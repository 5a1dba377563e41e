import Galley.Compile.Tag
import Galley.Proofs.Binding

/-!
# Calls that bind

The arguments of a library tag are checked against the signature of its function when a template is
compiled, long before the function is called with them. The check keeps the names that have not got
a value yet and takes those with a default off their end. Where fewer names than defaults are left,
too few of them are taken off, and a call is refused that binds.

* `Reader.foldlM_positional`, `Reader.foldlM_keyword`: the names that the check leaves open.
* `Reader.withoutDefaults_of_le`: those that it takes for missing.
* `Signature.Refuses`: the arguments for which some are.
* `Reader.tagCall_of_bind`: which calls are accepted, with their arguments, and which are refused.
-/

namespace Galley

/-! ## The names that the check leaves open -/

namespace Reader

variable {r : Reader} {s : Signature} {name : String} {c : Checked} {w : CallWord}
  {words : List CallWord} {e : Expression} {k : String}

theorem argument_eq_ok {named : Option String} (h : r.argument w = .ok (named, e)) :
    w.keyword.map r.textAt = named ∧ r.expression w.operand = .ok e := by
  unfold argument at h
  rw [bind_eq_ok] at h
  obtain ⟨e', he, h⟩ := h
  cases h
  exact ⟨rfl, he⟩

/-- **A positional argument** takes the first open name. -/
theorem checkArgument_positional (h : r.argument w = .ok (none, e)) (hc : c.keywordSpans = [])
    (hroom : c.openParams ≠ [] ∨ s.varargs.isSome) :
    r.checkArgument name s c w =
      .ok { c with positional := c.positional ++ [e], openParams := c.openParams.tail } := by
  obtain ⟨hkeyword, he⟩ := argument_eq_ok h
  have hopen : (c.openParams.isEmpty && s.varargs.isNone) = false := by
    rcases hroom with hne | hv
    · simp [hne]
    · simp [hv]
  unfold checkArgument
  rw [he, Option.map_eq_none_iff.1 hkeyword, hc]
  simp [bind, Except.bind, hopen, pure, Except.pure]

/-- Positional arguments take as many names. -/
theorem foldlM_positional (name : String) {positional : List Expression}
    (h : words.mapM r.argument = .ok (positional.map fun e => (none, e)))
    (hc : c.keywordSpans = [])
    (hroom : positional.length ≤ c.openParams.length ∨ s.varargs.isSome) :
    words.foldlM (r.checkArgument name s) c =
      .ok { c with
        positional := c.positional ++ positional
        openParams := c.openParams.drop positional.length } := by
  induction positional generalizing words c with
  | nil =>
    obtain rfl := eq_nil_of_mapM_nil h
    simp [pure, Except.pure]
  | cons e rest ih =>
    obtain ⟨w, words, rfl, hw, hwords⟩ := exists_of_mapM_cons h
    have hroom' : c.openParams ≠ [] ∨ s.varargs.isSome := by
      refine hroom.imp_left fun hlen hnil => ?_
      rw [hnil] at hlen
      cases hlen
    rw [foldlM_cons_of_ok (checkArgument_positional hw hc hroom')]
    refine Eq.trans (ih hwords ?_ ?_) ?_
    · exact hc
    · refine hroom.imp_left fun hlen => ?_
      simp only [List.length_cons, List.length_tail] at hlen ⊢
      omega
    · simp

/-- Taking a name out of names that are all different. -/
theorem erase_eq_filter_ne {names : List String} (h : names.Nodup) :
    (if names.contains k then names.erase k else names) = names.filter (· != k) := by
  rw [← h.erase_eq_filter]
  split
  · rfl
  · next hk => rw [List.erase_of_not_mem (by simpa using hk)]

/-- **A keyword argument** takes its name. -/
theorem checkArgument_keyword (name : String) (h : r.argument w = .ok (some k, e)) (htakes : s.Takes k)
    (hfresh : k ∉ c.keywordSpans.map (·.1)) (hopen : (c.openParams ++ c.openKeywords).Nodup) :
    ∃ span, r.checkArgument name s c w =
      .ok { c with
        keyword := c.keyword ++ [(k, e)]
        keywordSpans := c.keywordSpans ++ [(k, span)]
        openParams := c.openParams.filter (· != k)
        openKeywords := c.openKeywords.filter (· != k) } := by
  obtain ⟨hkeyword, he⟩ := argument_eq_ok h
  obtain ⟨keywordSpan, hspan, htext⟩ := Option.map_eq_some_iff.1 hkeyword
  obtain ⟨hparams, hkeywords, hdisjoint⟩ := List.nodup_append.1 hopen
  have hknown : (!s.params.contains k && !s.keywordOnly.contains k && s.varkw.isNone) = false := by
    rcases htakes with hp | hk | hv
    · simp [hp]
    · simp [hk]
    · simp [hv]
  have hlookup : c.keywordSpans.lookup k = none := by
    rw [← Option.isNone_iff_eq_none, isNone_lookup]
    simpa using hfresh
  -- a name that is open among the parameters is not open among the keyword arguments
  have hother : (if c.openParams.contains k then c.openKeywords else c.openKeywords.erase k) =
      c.openKeywords.filter (· != k) := by
    rw [← hkeywords.erase_eq_filter]
    split
    · next hp =>
      rw [List.erase_of_not_mem fun hk => hdisjoint k (by simpa using hp) k hk rfl]
    · rfl
  refine ⟨keywordSpan.through w.operand.span, ?_⟩
  unfold checkArgument
  rw [he, hspan]
  simp only [bind, Except.bind, htext, hknown, hlookup, erase_eq_filter_ne hparams, hother, pure,
    Except.pure, Bool.false_eq_true, if_false]

theorem filter_not_contains_nil (names : List String) :
    names.filter (!([] : List String).contains ·) = names :=
  List.filter_eq_self.2 fun _ _ => rfl

theorem filter_not_contains_cons (names : List String) (k : String) (keys : List String) :
    (names.filter (· != k)).filter (!keys.contains ·) = names.filter (!(k :: keys).contains ·) := by
  rw [List.filter_filter]
  refine List.filter_congr fun x _ => ?_
  rw [List.contains_cons, Bool.not_or, Bool.and_comm]
  rfl

/-- Keyword arguments take their names. -/
theorem foldlM_keyword (name : String) {keyword : List (String × Expression)}
    (h : words.mapM r.argument = .ok (keyword.map fun entry => (some entry.1, entry.2)))
    (htakes : ∀ k ∈ keyword.map (·.1), s.Takes k) (hnodup : (keyword.map (·.1)).Nodup)
    (hfresh : ∀ k ∈ keyword.map (·.1), k ∉ c.keywordSpans.map (·.1))
    (hopen : (c.openParams ++ c.openKeywords).Nodup) :
    ∃ spans, words.foldlM (r.checkArgument name s) c =
      .ok { c with
        keyword := c.keyword ++ keyword
        keywordSpans := spans
        openParams := c.openParams.filter (!(keyword.map (·.1)).contains ·)
        openKeywords := c.openKeywords.filter (!(keyword.map (·.1)).contains ·) } := by
  induction keyword generalizing words c with
  | nil =>
    obtain rfl := eq_nil_of_mapM_nil h
    refine ⟨c.keywordSpans, ?_⟩
    rw [List.map_nil, filter_not_contains_nil, filter_not_contains_nil, List.append_nil]
    rfl
  | cons entry rest ih =>
    obtain ⟨k, e⟩ := entry
    obtain ⟨w, words, rfl, hw, hwords⟩ := exists_of_mapM_cons h
    simp only [List.map_cons, List.forall_mem_cons, List.nodup_cons] at htakes hnodup hfresh
    obtain ⟨span, hstep⟩ := checkArgument_keyword name hw htakes.1 hfresh.1 hopen
    -- the names that stay open are all different still, and none of them was given
    have hopen' : (c.openParams.filter (· != k) ++ c.openKeywords.filter (· != k)).Nodup :=
      hopen.sublist (List.filter_sublist.append List.filter_sublist)
    have hfresh' : ∀ k' ∈ rest.map (·.1), k' ∉ (c.keywordSpans ++ [(k, span)]).map (·.1) := by
      intro k' hk'
      rw [List.map_append, List.mem_append, List.map_singleton, List.mem_singleton]
      rintro (hm | rfl)
      · exact hfresh.2 k' hk' hm
      · exact hnodup.1 hk'
    obtain ⟨spans, hrest⟩ := ih
      (c := ⟨c.positional, c.keyword ++ [(k, e)], c.keywordSpans ++ [(k, span)],
        c.openParams.filter (· != k), c.openKeywords.filter (· != k)⟩)
      hwords htakes.2 hnodup.2 hfresh' hopen'
    refine ⟨spans, ?_⟩
    rw [foldlM_cons_of_ok hstep, hrest]
    simp only [filter_not_contains_cons, List.append_assoc, List.singleton_append, List.map_cons]

/-! ## The names that are missing -/

/-- With no more names than defaults all of them have one. Too few are taken off where there are
fewer. -/
theorem withoutDefaults_of_le {names : List String} {defaults : Nat} (h : names.length ≤ defaults) :
    withoutDefaults names defaults =
      if names.length < defaults then names.take (2 * names.length - defaults) else [] := by
  unfold withoutDefaults
  by_cases hlt : names.length < defaults
  · rw [if_neg (by omega), if_pos hlt]
  · rw [if_pos (by omega), if_neg hlt, show names.length - defaults = 0 by omega, List.take_zero]

end Reader

namespace Signature

variable {s : Signature} {given : Nat} {names : List String}

/-- A call is **refused** although its arguments fit if there are more defaults than names without a
value, but not twice as many. -/
def Refuses (s : Signature) (given : Nat) (names : List String) : Prop :=
  (s.unset given names).length < s.defaults.length ∧
    s.defaults.length < 2 * (s.unset given names).length

/-- The names that the check takes for missing are those of a call that is refused. -/
theorem withoutDefaults_unset (hs : s.WellFormed) (h : s.Fits given names) :
    (¬ s.Refuses given names → Reader.withoutDefaults (s.unset given names) s.defaults.length = []) ∧
      (s.Refuses given names →
        Reader.withoutDefaults (s.unset given names) s.defaults.length =
            (s.unset given names).take (2 * (s.unset given names).length - s.defaults.length) ∧
          (s.unset given names).take (2 * (s.unset given names).length - s.defaults.length) ≠ []) := by
  have hle := length_unset_le hs h
  rw [Reader.withoutDefaults_of_le hle]
  constructor
  · intro hno
    split
    · next hlt =>
      have : 2 * (s.unset given names).length - s.defaults.length = 0 := by
        by_cases hd : s.defaults.length < 2 * (s.unset given names).length
        · exact absurd ⟨hlt, hd⟩ hno
        · omega
      rw [this, List.take_zero]
    · rfl
  · rintro ⟨hlt, hd⟩
    refine ⟨if_pos hlt, fun hnil => ?_⟩
    have hlen := congrArg List.length hnil
    simp only [List.length_take, List.length_nil] at hlen
    omega

/-- All keyword arguments without a default have a value. -/
theorem filter_required (h : s.Fits given names) :
    (s.keywordOnly.filter fun k => (s.keywordDefaults.lookup k).isNone).filter
      (!names.contains ·) = [] := by
  rw [List.filter_eq_nil_iff]
  intro k hk hnot
  obtain ⟨hk, hnone⟩ := List.mem_filter.1 hk
  have hsome := h.keywordDefaults k hk (by simpa using hnot)
  rw [Option.isNone_iff_eq_none.1 hnone] at hsome
  cases hsome

end Signature

namespace Reader

variable {r : Reader} {s : Signature} {name : String} {words : List CallWord}
  {positional : List Expression} {keyword : List (String × Expression)}

/-- **What the check leaves** of arguments that fit: the parameters that have no value. -/
theorem foldlM_checkArgument (name : String) (hs : s.WellFormed)
    (hfits : s.Fits positional.length (keyword.map (·.1))) (hnodup : (keyword.map (·.1)).Nodup)
    (h : words.mapM r.argument = .ok (positional.map (fun e => (none, e)) ++
      keyword.map fun entry => (some entry.1, entry.2))) :
    ∃ spans, words.foldlM (r.checkArgument name s)
        { openParams := s.params
          openKeywords := s.keywordOnly.filter fun k => (s.keywordDefaults.lookup k).isNone } =
      .ok ⟨positional, keyword, spans, s.unset positional.length (keyword.map (·.1)), []⟩ := by
  obtain ⟨before, behind, rfl, hbefore, hbehind⟩ := exists_of_mapM_append h
  have hpositional := foldlM_positional name
    (c := ⟨[], [], [], s.params, s.keywordOnly.filter fun k => (s.keywordDefaults.lookup k).isNone⟩)
    hbefore rfl hfits.room
  obtain ⟨spans, hkeyword⟩ := foldlM_keyword name
    (c := ⟨positional, [], [], s.params.drop positional.length,
      s.keywordOnly.filter fun k => (s.keywordDefaults.lookup k).isNone⟩)
    hbehind hfits.takes hnodup nofun
    (hs.nodup.sublist ((List.drop_sublist _ _).append List.filter_sublist))
  refine ⟨spans, ?_⟩
  rw [List.foldlM_append, bind_eq_ok]
  refine ⟨_, hpositional, hkeyword.trans ?_⟩
  rw [Signature.filter_required hfits]
  rfl

/-- **Which calls that bind are accepted.** A call whose arguments bind to the signature of its
function is compiled with these arguments, unless the names without a value are fewer than the
defaults but more than half as many; then it is refused for the first of them. The arguments are
positional ones and then keyword arguments with different names. -/
theorem tagCall_of_bind {f : Function} {takesScope : Bool} {loaded span parts : Span}
    {all : List CallWord} {target : Option String} {values : List Value}
    {keywordValues : List (String × Value)} {bindings : Bindings}
    (hf : f.signature.WellFormed) (hscope : LoadedTag.lacksScopeParameter f takesScope = false)
    (hall : CallWord.all r.source parts = .ok all) (htarget : r.splitTarget all = (words, target))
    (hwords : words.mapM r.argument = .ok (positional.map (fun e => (none, e)) ++
      keyword.map fun entry => (some entry.1, entry.2)))
    (hnodup : (keyword.map (·.1)).Nodup) (hvalues : values.length = positional.length)
    (hkeys : keywordValues.map (·.1) = keyword.map (·.1))
    (hbind : (LoadedTag.callSignature f takesScope).bind f.name values keywordValues = .ok bindings) :
    let s := LoadedTag.callSignature f takesScope
    let unset := s.unset positional.length (keyword.map (·.1))
    r.tagCall ⟨name, .simple f takesScope⟩ loaded span parts =
      if unset.length < s.defaults.length ∧ s.defaults.length < 2 * unset.length then
        .error (.here (.missingArguments name (", ".intercalate
          ((unset.take (2 * unset.length - s.defaults.length)).map Signature.quotedName))) parts)
      else .ok { name, function := f, takesScope, positional, keyword, target } := by
  intro s unset
  have hs : s.WellFormed := hf.callSignature takesScope
  have hfits : s.Fits positional.length (keyword.map (·.1)) := by
    rw [← hvalues, ← hkeys]
    exact Signature.fits_of_bind hs hbind
  obtain ⟨hnone, hsome⟩ := Signature.withoutDefaults_unset hs hfits
  obtain ⟨spans, hchecked⟩ := foldlM_checkArgument name hs hfits hnodup hwords
  -- of the arguments only the names without a value are left to be judged
  have hcall : r.tagCall ⟨name, .simple f takesScope⟩ loaded span parts =
      if !(withoutDefaults unset s.defaults.length).isEmpty then
        .error (.here (.missingArguments name (", ".intercalate
          ((withoutDefaults unset s.defaults.length).map Signature.quotedName))) parts)
      else .ok ⟨name, f, takesScope, positional, keyword, target⟩ := by
    unfold tagCall functionCall
    simp only [hscope, hall, htarget, bind, Except.bind, Bool.false_eq_true, if_false]
    rw [hchecked]
    simp only [List.append_nil]
    rfl
  by_cases hrefuses : s.Refuses positional.length (keyword.map (·.1))
  · obtain ⟨htake, hne⟩ := hsome hrefuses
    rw [hcall, htake, if_pos (by simpa using hne)]
    exact (if_pos hrefuses).symm
  · rw [hcall, hnone hrefuses, if_neg (by simp)]
    exact (if_neg hrefuses).symm

/-- A function of four parameters, of which all but the first have a default. -/
def sample : Function where
  name := "sample"
  signature := { params := ["a", "b", "c", "e"], defaults := [.int 2, .int 3, .int 4] }
  action := .compute fun _ => .ok .none

/-- With three values given the call is accepted. -/
theorem tagCall_sample :
    (⟨"1 2 e=5".toList, [], 0⟩ : Reader).tagCall ⟨"t", .simple sample false⟩ ⟨0, 0⟩ ⟨0, 0⟩ ⟨0, 7⟩ =
      .ok {
        name := "t", function := sample, takesScope := false
        positional := [⟨.int ⟨0, 1⟩ 1, []⟩, ⟨.int ⟨2, 1⟩ 2, []⟩]
        keyword := [("e", ⟨.int ⟨6, 1⟩ 5, []⟩)]
        target := none } := by
  have hsample : sample.signature.WellFormed := ⟨by decide, nofun⟩
  obtain ⟨bindings, hbind⟩ : ∃ bindings, (LoadedTag.callSignature sample false).bind sample.name
      [.int 1, .int 2] [("e", .int 5)] = .ok bindings := ⟨_, rfl⟩
  have hwords : [(⟨⟨.numeric, ⟨0, 1⟩⟩, none⟩ : CallWord), ⟨⟨.numeric, ⟨2, 1⟩⟩, none⟩,
        ⟨⟨.numeric, ⟨6, 1⟩⟩, some ⟨4, 1⟩⟩].mapM
          (⟨"1 2 e=5".toList, [], 0⟩ : Reader).argument =
      .ok ([⟨.int ⟨0, 1⟩ 1, []⟩, ⟨.int ⟨2, 1⟩ 2, []⟩].map (fun e => (none, e)) ++
        [("e", ⟨.int ⟨6, 1⟩ 5, []⟩)].map fun entry => (some entry.1, entry.2)) := rfl
  exact (tagCall_of_bind hsample rfl rfl rfl hwords (by decide) rfl rfl hbind).trans
    (if_neg (by decide))

/-- With two values given it is refused, although it binds. -/
theorem tagCall_sample_refused :
    (∃ bindings, sample.signature.bind sample.name [.int 1] [("e", .int 5)] = .ok bindings) ∧
      (⟨"1 e=5".toList, [], 0⟩ : Reader).tagCall ⟨"t", .simple sample false⟩ ⟨0, 0⟩ ⟨0, 0⟩ ⟨0, 5⟩ =
        .error (.here (.missingArguments "t" "'b'") ⟨0, 5⟩) :=
  ⟨⟨_, rfl⟩, rfl⟩

end Reader

end Galley
