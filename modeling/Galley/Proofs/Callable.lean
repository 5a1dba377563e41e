import Galley.Proofs.Calls
import Galley.Proofs.Effects

/-!
# Calls that can be made

A call of a library tag that was compiled is made when it is rendered, with the values that its
arguments have by then. What the check of the arguments has let through has room for them and knows
their names. Two things may still be wrong with it: a keyword argument may go by the name of a
parameter that has its value by position, the scope included, and where a keyword argument takes a
parameter that has a default, a parameter without one may be taken for one that has it.

* `Reader.Checked.Accounts`: what the check of the arguments knows about those it has seen.
* `Reader.admits_of_tagCall`: the arguments of a call that was compiled are admitted.
* `TagCall.bind_of_tagCall`: which calls that were compiled can be made, and what is wrong with the
  others.
-/

namespace Galley

/-! ## What the check of the arguments knows -/

namespace Reader

variable {r : Reader} {s : Signature} {name : String} {c c' : Checked} {w : CallWord}
  {words : List CallWord}

/-- The check of the arguments **accounts** for those it has seen: it knows their names, and which
names of the signature they leave open. -/
structure Checked.Accounts (s : Signature) (c : Checked) : Prop where
  spans : c.keywordSpans.map (·.1) = c.keyword.map (·.1)
  nodup : (c.keyword.map (·.1)).Nodup
  takes : ∀ k ∈ c.keyword.map (·.1), s.Takes k
  room : c.positional.length ≤ s.params.length ∨ s.varargs.isSome
  openParams : c.openParams = s.unset c.positional.length (c.keyword.map (·.1))
  openKeywords : c.openKeywords =
    (s.keywordOnly.filter fun k => (s.keywordDefaults.lookup k).isNone).filter
      (!(c.keyword.map (·.1)).contains ·)

/-- **What the check lets through:** a positional argument in front of all keyword arguments for
which there is room, or a keyword argument with a new name that the signature takes. -/
theorem checkArgument_cases (h : r.checkArgument name s c w = .ok c') :
    ∃ e, (r.argument w = .ok (none, e) ∧ c.keywordSpans = [] ∧
          (c.openParams ≠ [] ∨ s.varargs.isSome)) ∨
      ∃ k, r.argument w = .ok (some k, e) ∧ s.Takes k ∧ k ∉ c.keywordSpans.map (·.1) := by
  unfold checkArgument at h
  obtain ⟨e, he, h⟩ := bind_eq_ok.1 h
  refine ⟨e, ?_⟩
  unfold argument
  rw [he]
  split at h
  · next keywordSpan hkeyword =>
    rw [hkeyword]
    refine .inr ⟨r.textAt keywordSpan, rfl, ?_⟩
    dsimp only at h
    split at h
    · cases h
    next htakes =>
    split at h
    · cases h
    next hnew =>
    rw [← Option.isNone_iff_eq_none, isNone_lookup, Bool.not_eq_true'] at hnew
    refine ⟨?_, by simpa using hnew⟩
    unfold Signature.Takes
    cases hvarkw : s.varkw with
    | some _ => exact .inr (.inr rfl)
    | none => simpa [hvarkw, Decidable.or_iff_not_imp_left] using htakes
  · next hkeyword =>
    rw [hkeyword]
    split at h
    · cases h
    next hspans =>
    split at h
    · cases h
    next hopen =>
    refine .inl ⟨rfl, List.getLast?_eq_none_iff.1 hspans, ?_⟩
    cases hvarargs : s.varargs with
    | some _ => exact .inr rfl
    | none =>
      refine .inl fun hnil => hopen ?_
      rw [hnil, hvarargs]
      rfl

theorem filter_not_contains_concat (names keys : List String) (k : String) :
    (names.filter (!keys.contains ·)).filter (· != k) = names.filter (!(keys ++ [k]).contains ·) := by
  rw [List.filter_filter]
  refine List.filter_congr fun x _ => ?_
  rw [List.contains_append, Bool.not_or, Bool.and_comm, List.contains_cons, List.contains_nil,
    Bool.or_false]
  rfl

/-- **One more argument** is accounted for as well. -/
theorem Checked.Accounts.step (hs : s.WellFormed) (hc : c.Accounts s)
    (h : r.checkArgument name s c w = .ok c') : c'.Accounts s := by
  obtain ⟨e, ⟨hw, hspans, hroom⟩ | ⟨k, hw, htakes, hfresh⟩⟩ := checkArgument_cases h
  · -- no keyword argument stands before it, so the open parameters are those behind it
    have hkeyword : c.keyword = [] := by
      have hnames := hc.spans
      rw [hspans] at hnames
      exact List.map_eq_nil_iff.1 hnames.symm
    have hopen : c.openParams = s.params.drop c.positional.length := by
      rw [hc.openParams, hkeyword]
      exact filter_not_contains_nil _
    rw [checkArgument_positional hw hspans hroom, Except.ok.injEq] at h
    subst h
    refine ⟨hc.spans, hc.nodup, hc.takes, ?_, ?_, hc.openKeywords⟩
    · refine hroom.imp_left fun hne => ?_
      rw [hopen, ne_eq, List.drop_eq_nil_iff] at hne
      rw [List.length_append, List.length_singleton]
      omega
    · rw [hopen, hkeyword, List.length_append, List.length_singleton, List.tail_drop]
      exact (filter_not_contains_nil _).symm
  · have hnodup : (c.openParams ++ c.openKeywords).Nodup := by
      rw [hc.openParams, hc.openKeywords]
      exact hs.nodup.sublist ((List.filter_sublist.trans (List.drop_sublist _ _)).append
        (List.filter_sublist.trans List.filter_sublist))
    obtain ⟨span, hstep⟩ := checkArgument_keyword name hw htakes hfresh hnodup
    rw [hstep, Except.ok.injEq] at h
    subst h
    refine ⟨?_, ?_, ?_, hc.room, ?_, ?_⟩
    · rw [List.map_append, List.map_append, hc.spans]
      rfl
    · rw [hc.spans] at hfresh
      rw [List.map_append, List.map_singleton, List.nodup_append]
      refine ⟨hc.nodup, List.pairwise_singleton _ _, fun a ha b hb heq => hfresh ?_⟩
      have hak : a = k := heq.trans (List.mem_singleton.1 hb)
      rwa [hak] at ha
    · rw [List.map_append, List.forall_mem_append]
      exact ⟨hc.takes, by simpa using htakes⟩
    · rw [List.map_append, hc.openParams]
      exact filter_not_contains_concat _ _ _
    · rw [List.map_append, hc.openKeywords]
      exact filter_not_contains_concat _ _ _

/-- **All arguments** are accounted for in the end. -/
theorem accounts_checkArguments (hs : s.WellFormed)
    (h : words.foldlM (r.checkArgument name s)
      { openParams := s.params
        openKeywords := s.keywordOnly.filter fun k => (s.keywordDefaults.lookup k).isNone } =
      .ok c) : c.Accounts s := by
  refine of_foldlM (P := Checked.Accounts s) (fun _ _ _ hc hstep => hc.step hs hstep) ?_ h
  refine ⟨rfl, .nil, nofun, .inl (Nat.zero_le _), ?_, ?_⟩
  · exact (filter_not_contains_nil _).symm
  · exact (filter_not_contains_nil _).symm

/-- **The arguments of a call that was compiled** are admitted by the signature without the scope,
and no keyword argument is given twice. -/
theorem admits_of_tagCall {f : Function} {takesScope : Bool} {loaded tag parts : Span}
    {call : TagCall} (hf : f.signature.WellFormed)
    (h : r.tagCall ⟨name, .simple f takesScope⟩ loaded tag parts = .ok call) :
    LoadedTag.lacksScopeParameter f takesScope = false ∧ call.function = f ∧
      call.takesScope = takesScope ∧ (call.keyword.map (·.1)).Nodup ∧
      (LoadedTag.callSignature f takesScope).Admits call.positional.length
        (call.keyword.map (·.1)) := by
  unfold tagCall functionCall at h
  dsimp only at h
  split at h
  · cases h
  next hscope =>
  obtain ⟨words, -, h⟩ := bind_eq_ok.1 h
  obtain ⟨checked, hchecked, h⟩ := bind_eq_ok.1 h
  have hc := accounts_checkArguments (hf.callSignature takesScope) hchecked
  split at h
  · cases h
  next hmissing =>
  cases h
  refine ⟨by simpa using hscope, rfl, rfl, hc.nodup, hc.room, hc.takes, fun k hk hnot => ?_⟩
  -- a keyword argument that was not given and has no default would be missing
  have hopen : checked.openKeywords = [] := by
    simp only [Bool.not_eq_true', Bool.not_eq_false, List.isEmpty_iff] at hmissing
    exact (List.append_eq_nil_iff.1 hmissing).2
  rw [hc.openKeywords, List.filter_eq_nil_iff] at hopen
  rw [← Option.not_isNone, Bool.not_eq_true', ← Bool.not_eq_true]
  intro hnone
  exact hopen k (List.mem_filter.2 ⟨hk, hnone⟩) (by simpa using hnot)

end Reader

/-! ## The call -/

open Rendering

/-- The values of arguments are as many as these, under the same names. -/
theorem shape_of_argumentValues {positional : List Expression} {keyword : List (String × Expression)}
    {s : Scope} {values : List Value} {named : List (String × Value)}
    (h : ((argumentValues positional keyword).run.run s).1 = .ok (values, named)) :
    values.length = positional.length ∧ named.map (·.1) = keyword.map (·.1) := by
  unfold argumentValues at h
  obtain ⟨found, s', hfound, h⟩ := exists_of_run_bind h
  obtain ⟨foundNamed, s'', hnamed, h⟩ := exists_of_run_bind h
  obtain ⟨scope, _, -, h⟩ := exists_of_run_bind h
  cases h
  constructor
  · have hmap := map_eq_of_run_mapM (fun _ => ()) (fun _ => ()) (by rw [hfound])
      fun _ _ _ _ => rfl
    have hlength := congrArg List.length hmap
    rwa [List.length_map, List.length_map, ← List.length_map] at hlength
  · have hmap := map_eq_of_run_mapM Prod.fst Prod.fst (by rw [hnamed])
      fun entry made s hmade => by
        obtain ⟨v, _, -, hv⟩ := exists_of_run_bind hmade
        cases hv
        rfl
    rw [List.map_map]
    exact hmap

namespace TagCall

/-- The values that a call gives to its function by position: the scope comes first if it takes it. -/
def arguments (c : TagCall) (scope : Scope) (values : List Value) : List Value :=
  if c.takesScope then scope.refreshed.toValue :: values else values

/-- A call that does not bind fails with the reason for it. -/
theorem run_of_bind_error {c : TagCall} {span : Span} {s s' : Scope} {values : List Value}
    {named : List (String × Value)} {e : HostError}
    (hvalues : (argumentValues c.positional c.keyword).run.run s = (.ok (values, named), s'))
    (hbind : c.function.signature.bind c.function.name (c.arguments s' values) named = .error e) :
    ((c.run span).run.run s).1 = .error (.template (.here (.raised e "here") span)) := by
  unfold TagCall.run
  rw [run_bind, hvalues]
  have hcall (scope : Scope) :
      c.function.call (c.arguments s' values) named scope = (.error e, scope) := by
    unfold Function.call
    rw [hbind]
  unfold arguments at hcall
  cases hscope : c.takesScope with
  | true =>
    simp only [hscope, if_true] at hcall ⊢
    rw [run_bind, run_modify]
    dsimp only
    rw [run_bind, run_get]
    dsimp only
    rw [hcall]
    rfl
  | false =>
    simp only [hscope, Bool.false_eq_true, if_false] at hcall ⊢
    rw [run_bind, run_get]
    dsimp only
    rw [hcall]
    rfl

variable {r : Reader} {name : String} {f : Function} {takesScope : Bool} {loaded tag parts : Span}
  {call : TagCall}

/-- With the scope in front the arguments of a call that was compiled are admitted by the signature
of its function. -/
theorem admits_arguments {values : List Value} {s : Scope} (hf : f.signature.WellFormed)
    (h : r.tagCall ⟨name, .simple f takesScope⟩ loaded tag parts = .ok call)
    (hvalues : values.length = call.positional.length) :
    f.signature.Admits (call.arguments s values).length (call.keyword.map (·.1)) := by
  obtain ⟨hscope, -, htakes, -, hadmits⟩ := Reader.admits_of_tagCall hf h
  unfold arguments
  rw [htakes]
  cases takesScope with
  | false =>
    rw [← hvalues] at hadmits
    exact hadmits
  | true =>
    have hhead : f.signature.params.head? = some "context" := by
      simpa [LoadedTag.lacksScopeParameter] using hscope
    obtain ⟨rest, hparams⟩ := List.head?_eq_some_iff.1 hhead
    have hsignature : LoadedTag.callSignature f true = { f.signature with params := rest } := by
      simp [LoadedTag.callSignature, hparams]
    rw [hsignature] at hadmits
    refine ⟨hadmits.room.imp_left fun hle => ?_, fun k hk => ?_, hadmits.keywordDefaults⟩
    · rw [hparams, if_pos rfl, List.length_cons, List.length_cons, hvalues]
      exact Nat.succ_le_succ hle
    · refine (hadmits.takes k hk).imp_left fun hrest => ?_
      rw [hparams]
      exact List.mem_cons_of_mem _ hrest

/-- **Which calls that were compiled can be made.** When the values of its arguments are known, the
call binds if no keyword argument goes to a parameter with a value by position and no parameter
without a default is left. Otherwise it fails for the first of the former or else for all of the
latter. -/
theorem bind_of_tagCall {s s' : Scope} {values : List Value} {named : List (String × Value)}
    (hf : f.signature.WellFormed)
    (h : r.tagCall ⟨name, .simple f takesScope⟩ loaded tag parts = .ok call)
    (hvalues : (argumentValues call.positional call.keyword).run.run s = (.ok (values, named), s')) :
    let arguments := call.arguments s' values
    let names := call.keyword.map (·.1)
    let twice := f.signature.twice arguments.length names
    let unfilled := f.signature.unfilled arguments.length names
    let outcome := f.signature.bind f.name arguments named
    (twice = [] → unfilled = [] → ∃ bindings, outcome = .ok bindings) ∧
      (∀ k ∈ twice.head?, outcome = .error (Signature.multipleValues f.name k)) ∧
      (twice = [] → unfilled ≠ [] →
        outcome = .error (Signature.missing f.name "positional" unfilled)) ∧
      ∀ e, outcome = .error e →
        ((call.run tag).run.run s).1 = .error (.template (.here (.raised e "here") tag)) := by
  intro arguments names twice unfilled outcome
  obtain ⟨hlength, hnames⟩ := shape_of_argumentValues (s := s) (by rw [hvalues])
  obtain ⟨-, hfunction, -, hnodup, -⟩ := Reader.admits_of_tagCall hf h
  have hadmits := admits_arguments (s := s') hf h hlength
  rw [← hnames] at hadmits hnodup
  obtain ⟨htwice, hunfilled, hfits⟩ := Signature.bind_of_admits f.name hf hadmits hnodup
  rw [hnames] at htwice hunfilled hfits
  exact ⟨hfits, htwice, hunfilled, fun e he => run_of_bind_error hvalues (by rwa [hfunction])⟩

/-- A function of two parameters, of which the second has a default. -/
def pad : Function where
  name := "pad"
  signature := { params := ["text", "width"], defaults := [.int 80] }
  action := .compute fun _ => .ok .none

/-- With a text and a width it is called. -/
theorem bind_of_tagCall_pad :
    let call : TagCall := {
      name := "pad", function := pad, takesScope := false
      positional := [⟨.int ⟨0, 1⟩ 7, []⟩]
      keyword := [("width", ⟨.int ⟨8, 1⟩ 9, []⟩)]
      target := none }
    (⟨"7 width=9".toList, [], 0⟩ : Reader).tagCall ⟨"pad", .simple pad false⟩ ⟨0, 0⟩ ⟨0, 9⟩ ⟨0, 9⟩ =
        .ok call ∧
      ∃ bindings, pad.signature.bind "pad" [.int 7] [("width", .int 9)] = .ok bindings := by
  intro call
  have hpad : pad.signature.WellFormed := ⟨by decide, nofun⟩
  have hcall : (⟨"7 width=9".toList, [], 0⟩ : Reader).tagCall ⟨"pad", .simple pad false⟩ ⟨0, 0⟩
      ⟨0, 9⟩ ⟨0, 9⟩ = .ok call := rfl
  have hvalues : (argumentValues call.positional call.keyword).run.run {} =
      (.ok ([.int 7], [("width", .int 9)]), {}) := rfl
  exact ⟨hcall, (bind_of_tagCall hpad hcall hvalues).1 rfl rfl⟩

/-- With a width alone, or with two texts, a call is compiled that cannot be made. -/
theorem run_pad_unbound :
    let missing : TagCall := {
      name := "pad", function := pad, takesScope := false, positional := []
      keyword := [("width", ⟨.int ⟨6, 1⟩ 9, []⟩)], target := none }
    let repeated : TagCall := {
      name := "pad", function := pad, takesScope := false, positional := [⟨.int ⟨0, 1⟩ 7, []⟩]
      keyword := [("text", ⟨.int ⟨7, 1⟩ 9, []⟩)], target := none }
    ((⟨"width=9".toList, [], 0⟩ : Reader).tagCall ⟨"pad", .simple pad false⟩ ⟨0, 0⟩ ⟨0, 7⟩ ⟨0, 7⟩ =
          .ok missing ∧
        ((missing.run ⟨0, 7⟩).run.run {}).1 = .error (.template (.here (.raised
          (Signature.missing "pad" "positional" ["text"]) "here") ⟨0, 7⟩))) ∧
      (⟨"7 text=9".toList, [], 0⟩ : Reader).tagCall ⟨"pad", .simple pad false⟩ ⟨0, 0⟩ ⟨0, 8⟩ ⟨0, 8⟩ =
          .ok repeated ∧
        ((repeated.run ⟨0, 8⟩).run.run {}).1 = .error (.template (.here (.raised
          (Signature.multipleValues "pad" "text") "here") ⟨0, 8⟩)) :=
  ⟨⟨rfl, rfl⟩, rfl, rfl⟩

end TagCall

end Galley
