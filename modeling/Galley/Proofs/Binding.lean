import Galley.Function
import Galley.Proofs.Outcome

/-!
# Arguments that bind

A call binds its arguments to the names of a signature. Where this succeeds the arguments fit: there
is room for the positional ones, the keyword arguments have names that are known, and whatever was
not given has a default. Arguments that a signature admits may only fail to bind because a parameter
has two values or none.

* `Signature.WellFormed`: the signatures that functions have.
* `Signature.Admits`, `Signature.Fits`: arguments that are admitted and arguments that fit, told by
  their number and their names.
* `Signature.fits_of_bind`: arguments that bind fit.
* `Signature.length_unset_le`: no more parameters are left without a value than have a default.
* `Signature.twice`, `Signature.unfilled`: the parameters with two values, and those with none.
* `Signature.bind_of_admits`: what comes of binding arguments that are admitted.
-/

namespace Galley

namespace Signature

variable {s : Signature} {function : String} {positional : List Value}
  {keyword : String × Value} {keywords : List (String × Value)} {given given' : Given}

/-- A signature is **well formed** if no name stands in it twice and if only keyword arguments have
the defaults of keyword arguments. -/
structure WellFormed (s : Signature) : Prop where
  nodup : (s.params ++ s.keywordOnly).Nodup
  keywordDefaults : ∀ entry ∈ s.keywordDefaults, entry.1 ∈ s.keywordOnly

/-- Whether an argument may be given under a name. -/
def Takes (s : Signature) (name : String) : Prop :=
  name ∈ s.params ∨ name ∈ s.keywordOnly ∨ s.varkw.isSome

/-- The names that have no value after so many positional arguments and the keyword arguments with
the given names. -/
def unset (s : Signature) (given : Nat) (names : List String) : List String :=
  (s.params.drop given).filter (!names.contains ·)

/-- So many positional arguments are **admitted** by a signature together with keyword arguments of
the given names: whatever may go wrong with them is that a parameter has no value or two. -/
structure Admits (s : Signature) (given : Nat) (names : List String) : Prop where
  room : given ≤ s.params.length ∨ s.varargs.isSome
  takes : ∀ name ∈ names, s.Takes name
  keywordDefaults : ∀ name ∈ s.keywordOnly, name ∉ names → (s.keywordDefaults.lookup name).isSome

/-- So many positional arguments **fit** a signature together with keyword arguments of the given
names. -/
structure Fits (s : Signature) (given : Nat) (names : List String) : Prop extends
    Admits s given names where
  defaults : ∀ name ∈ s.unset given names, name ∈ s.params.drop (s.params.length - s.defaults.length)

/-- The scope is no argument of a call. -/
theorem WellFormed.callSignature {f : Function} (h : f.signature.WellFormed) (takesScope : Bool) :
    (LoadedTag.callSignature f takesScope).WellFormed := by
  unfold LoadedTag.callSignature
  split
  · refine ⟨List.Nodup.sublist ?_ h.nodup, h.keywordDefaults⟩
    exact (List.tail_sublist _).append (List.Sublist.refl _)
  · exact h

theorem takes_of_takeKeyword (h : s.takeKeyword function given keyword = .ok given') :
    s.Takes keyword.1 ∧ ∀ entry ∈ given'.1, entry ∈ given.1 ∨ entry = keyword := by
  unfold takeKeyword at h
  split at h
  · next hc =>
    simp only [Bool.or_eq_true, List.contains_iff_mem] at hc
    split at h
    · cases h
    · cases h
      refine ⟨hc.elim .inl fun hk => .inr (.inl hk), fun entry hentry => ?_⟩
      simpa using hentry
  · split at h
    · next hv =>
      cases h
      exact ⟨.inr (.inr hv), fun entry hentry => .inl hentry⟩
    · cases h

theorem takes_of_foldlM (h : keywords.foldlM (s.takeKeyword function) given = .ok given') :
    (∀ keyword ∈ keywords, s.Takes keyword.1) ∧
      ∀ entry ∈ given'.1, entry ∈ given.1 ∨ entry ∈ keywords := by
  induction keywords generalizing given with
  | nil =>
    cases h
    exact ⟨nofun, fun entry hentry => .inl hentry⟩
  | cons keyword rest ih =>
    rw [List.foldlM_cons, bind_eq_ok] at h
    obtain ⟨middle, hfirst, hrest⟩ := h
    obtain ⟨htakes, hfrom⟩ := takes_of_takeKeyword hfirst
    obtain ⟨htakes', hfrom'⟩ := ih hrest
    refine ⟨List.forall_mem_cons.2 ⟨htakes, htakes'⟩, fun entry hentry => ?_⟩
    rcases hfrom' entry hentry with hm | hm
    · rcases hfrom entry hm with hg | rfl
      · exact .inl hg
      · exact .inr List.mem_cons_self
    · exact .inr (List.mem_cons_of_mem _ hm)

/-- The parameters that have a value by position. -/
theorem map_fst_zip_take {α β : Type} {as : List α} {bs : List β} :
    (as.zip bs).map (·.1) = as.take bs.length := by
  induction as generalizing bs with
  | nil => simp
  | cons a rest ih =>
    cases bs with
    | nil => rfl
    | cons b rest' => rw [List.zip_cons_cons, List.map_cons, ih, List.length_cons, List.take_succ_cons]

/-- The names of the parameters that have a default. -/
theorem map_positionalDefaults :
    s.positionalDefaults.map (·.1) = s.params.drop (s.params.length - s.defaults.length) := by
  unfold positionalDefaults
  refine List.map_fst_zip ?_
  rw [List.length_drop]
  omega

/-- The names that have a value when all arguments are taken up. -/
theorem mem_complete_iff {name : String} {entries : List (String × Value)} :
    name ∈ (s.complete entries).map (·.1) ↔
      name ∈ entries.map (·.1) ∨ name ∈ s.params.drop (s.params.length - s.defaults.length) ∨
        name ∈ s.keywordDefaults.map (·.1) := by
  rw [← map_positionalDefaults, complete, List.map_append, List.mem_append,
    ← List.mem_append (s := s.positionalDefaults.map (·.1)), ← List.map_append]
  constructor
  · rintro (h | h)
    · exact .inl h
    · obtain ⟨entry, hentry, rfl⟩ := List.mem_map.1 h
      exact .inr (List.mem_map.2 ⟨entry, (List.mem_filter.1 hentry).1, rfl⟩)
  · rintro (h | h)
    · exact .inl h
    · obtain ⟨entry, hentry, rfl⟩ := List.mem_map.1 h
      by_cases hg : entry.1 ∈ entries.map (·.1)
      · exact .inl hg
      · refine .inr (List.mem_map.2 ⟨entry, List.mem_filter.2 ⟨hentry, ?_⟩, rfl⟩)
        rw [isNone_lookup]
        simpa using hg

theorem isNone_lookup_complete {name : String} {entries : List (String × Value)} :
    ((s.complete entries).lookup name).isNone ↔
      name ∉ entries.map (·.1) ∧ name ∉ s.params.drop (s.params.length - s.defaults.length) ∧
        name ∉ s.keywordDefaults.map (·.1) := by
  rw [isNone_lookup, Bool.not_eq_true', ← Bool.not_eq_true, List.contains_iff_mem, mem_complete_iff,
    not_or, not_or]

/-- Where no name is lacking each has a value. -/
theorem mem_of_lacking {names : List String} {entries : List (String × Value)} {name : String}
    (h : (lacking (s.complete entries) names).isEmpty) (hn : name ∈ names) :
    name ∈ entries.map (·.1) ∨ name ∈ s.params.drop (s.params.length - s.defaults.length) ∨
      name ∈ s.keywordDefaults.map (·.1) := by
  rw [lacking, List.isEmpty_iff, List.filter_eq_nil_iff] at h
  have hsome := h name hn
  rw [isNone_lookup, Bool.not_eq_true', Bool.not_eq_false, List.contains_iff_mem] at hsome
  exact mem_complete_iff.1 hsome

/-- A call that binds passes the three checks. -/
theorem checks_of_bind {bindings : Bindings} (h : s.bind function positional keywords = .ok bindings) :
    ∃ given further,
      keywords.foldlM (s.takeKeyword function) (s.params.zip positional, []) = .ok (given, further) ∧
        (positional.length ≤ s.params.length ∨ s.varargs.isSome) ∧
        (lacking (s.complete given) s.params).isEmpty ∧
        (lacking (s.complete given) s.keywordOnly).isEmpty := by
  unfold bind at h
  rw [bind_eq_ok] at h
  obtain ⟨⟨given, further⟩, hgiven, h⟩ := h
  refine ⟨given, further, hgiven, ?_⟩
  dsimp only at h
  -- too many arguments, then a parameter without a value, then a keyword argument without one
  split at h
  · cases h
  next hroom =>
  split at h
  · cases h
  next hparams =>
  split at h
  · cases h
  next hkeywords =>
  refine ⟨?_, by simpa using hparams, by simpa using hkeywords⟩
  simp only [Bool.and_eq_true, decide_eq_true_eq, not_and, Option.isNone_iff_eq_none] at hroom
  by_cases hle : positional.length ≤ s.params.length
  · exact .inl hle
  · exact .inr (Option.isSome_iff_ne_none.2 (hroom (by omega)))

/-- **Arguments that bind fit the signature.** -/
theorem fits_of_bind {bindings : Bindings} (hs : s.WellFormed)
    (h : s.bind function positional keywords = .ok bindings) :
    s.Fits positional.length (keywords.map (·.1)) := by
  obtain ⟨given, further, hgiven, hroom, hparams, hkeywords⟩ := checks_of_bind h
  obtain ⟨htakes, hfrom⟩ := takes_of_foldlM hgiven
  obtain ⟨hnodup, hnodup', hdisjoint⟩ := List.nodup_append.1 hs.nodup
  have hnames : ∀ name ∈ given.map (·.1),
      name ∈ s.params.take positional.length ∨ name ∈ keywords.map (·.1) := by
    intro name hname
    obtain ⟨entry, hentry, rfl⟩ := List.mem_map.1 hname
    rw [← map_fst_zip_take]
    exact (hfrom entry hentry).imp (List.mem_map_of_mem ·) (List.mem_map_of_mem ·)
  refine ⟨⟨hroom, fun name hname => ?_, fun name hname hnot => ?_⟩, fun name hname => ?_⟩
  · obtain ⟨keyword, hk, rfl⟩ := List.mem_map.1 hname
    exact htakes keyword hk
  · -- a keyword argument without a value: neither a parameter nor its default goes by its name
    rw [isSome_lookup, List.contains_iff_mem]
    rcases mem_of_lacking hkeywords hname with hg | hd | hd
    · rcases hnames name hg with hp | hk
      · exact absurd rfl (hdisjoint name (List.mem_of_mem_take hp) name hname)
      · exact absurd hk hnot
    · exact absurd rfl (hdisjoint name (List.mem_of_mem_drop hd) name hname)
    · exact hd
  · -- a parameter without a value: it was not given, so its value is its default
    obtain ⟨hdrop, hnot⟩ := List.mem_filter.1 hname
    have hname := List.mem_of_mem_drop hdrop
    rcases mem_of_lacking hparams hname with hg | hd | hd
    · rcases hnames name hg with hp | hk
      · rw [← List.take_append_drop positional.length s.params] at hnodup
        exact absurd rfl ((List.nodup_append.1 hnodup).2.2 name hp name hdrop)
      · simp [hk] at hnot
    · exact hd
    · obtain ⟨entry, hentry, rfl⟩ := List.mem_map.1 hd
      exact absurd rfl (hdisjoint _ hname _ (hs.keywordDefaults entry hentry))

theorem length_unset_le {names : List String} {count : Nat} (hs : s.WellFormed) (h : s.Fits count names) :
    (s.unset count names).length ≤ s.defaults.length := by
  have hnodup : (s.unset count names).Nodup :=
    (List.nodup_append.1 hs.nodup).1.sublist (List.filter_sublist.trans (List.drop_sublist _ _))
  have hle := hnodup.length_le_of_subset h.defaults
  rw [List.length_drop] at hle
  omega

/-! ## Binding arguments that are admitted -/

variable {name : String} {names : List String} {count : Nat}

/-- The names under which an argument is not collected. -/
def knows (s : Signature) (name : String) : Bool :=
  s.params.contains name || s.keywordOnly.contains name

/-- The error of a parameter with two values. -/
def multipleValues (function name : String) : HostError :=
  .typeError (function ++ "() got multiple values for argument " ++ quotedName name)

/-- The names of keyword arguments that go to parameters with a value by position. -/
def twice (s : Signature) (given : Nat) (names : List String) : List String :=
  names.filter (s.params.take given).contains

/-- The parameters that have neither a value nor a default. -/
def unfilled (s : Signature) (given : Nat) (names : List String) : List String :=
  (s.unset given names).filter
    (!(s.params.drop (s.params.length - s.defaults.length)).contains ·)

theorem takeKeyword_of_fresh (function : String) (htakes : s.Takes keyword.1)
    (hfresh : s.knows keyword.1 → keyword.1 ∉ given.1.map (·.1)) :
    ∃ further, s.takeKeyword function given keyword =
      .ok (given.1 ++ [keyword].filter (s.knows ·.1), further) := by
  unfold takeKeyword
  split
  · next hknows =>
    have hnone : ¬(given.1.lookup keyword.1).isSome := by
      rw [isSome_lookup, List.contains_iff_mem]
      exact hfresh hknows
    rw [if_neg hnone, List.filter_cons_of_pos (by exact hknows), List.filter_nil]
    exact ⟨_, rfl⟩
  · next hknows =>
    have hvarkw : s.varkw.isSome := by
      rcases htakes with hp | hk | hv
      · exact absurd (by simp [hp]) hknows
      · exact absurd (by simp [hk]) hknows
      · exact hv
    rw [if_pos hvarkw, List.filter_cons_of_neg (by exact hknows), List.filter_nil,
      List.append_nil]
    exact ⟨_, rfl⟩

theorem takeKeyword_of_given (hknows : s.knows keyword.1) (h : keyword.1 ∈ given.1.map (·.1)) :
    s.takeKeyword function given keyword = .error (multipleValues function keyword.1) := by
  have hsome : (given.1.lookup keyword.1).isSome := by
    rwa [isSome_lookup, List.contains_iff_mem]
  unfold takeKeyword
  rw [hsome]
  split
  · rfl
  · next hnot => exact absurd hknows hnot

/-- **Keyword arguments with different names** are all taken up if none of them has a value. -/
theorem foldlM_takeKeyword (function : String) (given : Given)
    (htakes : ∀ keyword ∈ keywords, s.Takes keyword.1)
    (hnodup : (keywords.map (·.1)).Nodup)
    (hfresh : ∀ keyword ∈ keywords, s.knows keyword.1 → keyword.1 ∉ given.1.map (·.1)) :
    ∃ further, keywords.foldlM (s.takeKeyword function) given =
      .ok (given.1 ++ keywords.filter (s.knows ·.1), further) := by
  induction keywords generalizing given with
  | nil => exact ⟨given.2, by rw [List.filter_nil, List.append_nil]; rfl⟩
  | cons keyword rest ih =>
    obtain ⟨htake, htakes⟩ := List.forall_mem_cons.1 htakes
    obtain ⟨hnew, hfresh⟩ := List.forall_mem_cons.1 hfresh
    rw [List.map_cons, List.nodup_cons] at hnodup
    obtain ⟨further, hstep⟩ := takeKeyword_of_fresh function htake hnew
    -- the one that was taken up has another name than those that are left
    have hfresh' : ∀ other ∈ rest, s.knows other.1 →
        other.1 ∉ (given.1 ++ [keyword].filter (s.knows ·.1)).map (·.1) := by
      intro other hother hknows
      rw [List.map_append, List.mem_append]
      rintro (hg | hk)
      · exact hfresh other hother hknows hg
      · obtain ⟨entry, hentry, heq⟩ := List.mem_map.1 hk
        rw [List.mem_singleton.1 (List.mem_filter.1 hentry).1] at heq
        exact hnodup.1 (List.mem_map.2 ⟨other, hother, heq.symm⟩)
    obtain ⟨further', hrest⟩ := ih (_, further) htakes hnodup.2 hfresh'
    refine ⟨further', ?_⟩
    rw [foldlM_cons_of_ok hstep, hrest, List.append_assoc, ← List.filter_append]
    rfl

theorem knows_of_mem_take (h : name ∈ s.params.take count) : s.knows name := by
  simp [knows, List.mem_of_mem_take h]

/-- **A parameter with a value by position** cannot be given by keyword: the first such argument is
the error. -/
theorem bind_of_twice (htakes : ∀ name ∈ keywords.map (·.1), s.Takes name)
    (hnodup : (keywords.map (·.1)).Nodup)
    (h : (s.twice positional.length (keywords.map (·.1))).head? = some name) :
    s.bind function positional keywords = .error (multipleValues function name) := by
  rw [twice, List.head?_filter, List.find?_eq_some_iff_append] at h
  obtain ⟨hname, before, behind, hsplit, hbefore⟩ := h
  obtain ⟨first, last, rfl, rfl, hlast⟩ := List.map_eq_append_iff.1 hsplit
  obtain ⟨keyword, last, rfl, rfl, rfl⟩ := List.map_eq_cons_iff.1 hlast
  have hzip : (s.params.zip positional).map (·.1) = s.params.take positional.length :=
    map_fst_zip_take
  have htaken : keyword.1 ∈ s.params.take positional.length := by simpa using hname
  rw [List.map_append, List.nodup_append] at hnodup
  -- the arguments in front of it are taken up
  obtain ⟨further, hfirst⟩ := foldlM_takeKeyword function
    (s.params.zip positional, [])
    (fun entry hentry => htakes _ (List.mem_map.2 ⟨entry, List.mem_append_left _ hentry, rfl⟩))
    hnodup.1
    (fun entry hentry _ => by
      rw [hzip]
      simpa using hbefore entry.1 (List.mem_map.2 ⟨entry, hentry, rfl⟩))
  have hgiven : keyword.1 ∈ (s.params.zip positional ++ first.filter (s.knows ·.1)).map (·.1) := by
    rw [List.map_append, hzip]
    exact List.mem_append_left _ htaken
  have hfold : (first ++ keyword :: last).foldlM (s.takeKeyword function)
      (s.params.zip positional, []) = .error (multipleValues function keyword.1) := by
    rw [List.foldlM_append, hfirst]
    dsimp only [Bind.bind, Except.bind]
    rw [List.foldlM_cons, takeKeyword_of_given (knows_of_mem_take htaken) hgiven]
    rfl
  unfold bind
  rw [hfold]
  rfl

section Complete

variable {entries : List (String × Value)}

/-- The parameters that lack a value when all arguments are taken up. -/
theorem lacking_params (hs : s.WellFormed)
    (hentries : entries.map (·.1) = s.params.take count ++ names.filter s.knows) :
    lacking (s.complete entries) s.params = s.unfilled count names := by
  obtain ⟨hparams, -, hdisjoint⟩ := List.nodup_append.1 hs.nodup
  rw [← List.take_append_drop count s.params] at hparams
  have hapart := (List.nodup_append.1 hparams).2.2
  have htaken : (s.params.take count).filter
      (fun name => ((s.complete entries).lookup name).isNone) = [] := by
    rw [List.filter_eq_nil_iff]
    intro name hname hnone
    refine (isNone_lookup_complete.1 hnone).1 ?_
    rw [hentries]
    exact List.mem_append_left _ hname
  have hleft : (s.params.drop count).filter
      (fun name => ((s.complete entries).lookup name).isNone) = s.unfilled count names := by
    unfold unfilled unset
    rw [List.filter_filter]
    refine List.filter_congr fun name hname => ?_
    have hparam := List.mem_of_mem_drop hname
    have hknows : s.knows name := by simp [knows, hparam]
    have htake : name ∉ s.params.take count := fun h => hapart name h name hname rfl
    have hkeyword : name ∉ s.keywordDefaults.map (·.1) := by
      intro h
      obtain ⟨entry, hentry, rfl⟩ := List.mem_map.1 h
      exact hdisjoint _ hparam _ (hs.keywordDefaults entry hentry) rfl
    rw [Bool.eq_iff_iff, isNone_lookup_complete, hentries]
    simp [htake, hknows, hkeyword, and_comm]
  unfold lacking
  calc s.params.filter _
      = (s.params.take count ++ s.params.drop count).filter _ := by rw [List.take_append_drop]
    _ = s.unfilled count names := by rw [List.filter_append, htaken, hleft, List.nil_append]

/-- No keyword argument does. -/
theorem lacking_keywordOnly (h : s.Admits count names)
    (hentries : entries.map (·.1) = s.params.take count ++ names.filter s.knows) :
    lacking (s.complete entries) s.keywordOnly = [] := by
  unfold lacking
  rw [List.filter_eq_nil_iff]
  intro name hname hnone
  obtain ⟨hgiven, -, hdefault⟩ := isNone_lookup_complete.1 hnone
  rw [hentries, List.mem_append, List.mem_filter, not_or] at hgiven
  have hnot : name ∉ names := fun hmem => hgiven.2 ⟨hmem, by simp [knows, hname]⟩
  have hsome := h.keywordDefaults name hname hnot
  rw [isSome_lookup, List.contains_iff_mem] at hsome
  exact hdefault hsome

end Complete

/-- Where no parameter is given twice all arguments are taken up, and only parameters may be left
without a value. -/
theorem bind_of_fresh (function : String) (hs : s.WellFormed)
    (h : s.Admits positional.length (keywords.map (·.1))) (hnodup : (keywords.map (·.1)).Nodup)
    (htwice : s.twice positional.length (keywords.map (·.1)) = []) :
    let unfilled := s.unfilled positional.length (keywords.map (·.1))
    ∃ bindings, s.bind function positional keywords =
      if unfilled.isEmpty then .ok bindings else .error (missing function "positional" unfilled) := by
  dsimp only
  have hzip : (s.params.zip positional).map (·.1) = s.params.take positional.length :=
    map_fst_zip_take
  obtain ⟨further, hfold⟩ := foldlM_takeKeyword function
    (s.params.zip positional, [])
    (fun keyword hkeyword => h.takes _ (List.mem_map.2 ⟨keyword, hkeyword, rfl⟩)) hnodup
    (fun keyword hkeyword _ hgiven => by
      rw [hzip] at hgiven
      refine List.filter_eq_nil_iff.1 htwice keyword.1 (List.mem_map.2 ⟨keyword, hkeyword, rfl⟩) ?_
      simpa using hgiven)
  have hentries : (s.params.zip positional ++ keywords.filter (s.knows ·.1)).map (·.1) =
      s.params.take positional.length ++ (keywords.map (·.1)).filter s.knows := by
    rw [List.map_append, hzip, List.filter_map]
    rfl
  have hroom : (decide (s.params.length < positional.length) && s.varargs.isNone) = false := by
    rcases h.room with hle | hv
    · rw [decide_eq_false (by omega), Bool.false_and]
    · rw [← Option.not_isSome, hv, Bool.not_true, Bool.and_false]
  unfold bind
  rw [hfold]
  dsimp only [Bind.bind, Except.bind]
  rw [hroom, lacking_params hs hentries, lacking_keywordOnly h hentries]
  cases s.unfilled positional.length (keywords.map (·.1)) with
  | nil => exact ⟨_, rfl⟩
  | cons name rest => exact ⟨⟨[], [], []⟩, rfl⟩

/-- **What comes of arguments that are admitted.** They bind if no parameter is given twice and none
is left without a value. The first one that is given twice is the error otherwise, then all those
without a value are. -/
theorem bind_of_admits (function : String) (hs : s.WellFormed)
    (h : s.Admits positional.length (keywords.map (·.1))) (hnodup : (keywords.map (·.1)).Nodup) :
    let twice := s.twice positional.length (keywords.map (·.1))
    let unfilled := s.unfilled positional.length (keywords.map (·.1))
    let outcome := s.bind function positional keywords
    (∀ name ∈ twice.head?, outcome = .error (multipleValues function name)) ∧
      (twice = [] → unfilled ≠ [] → outcome = .error (missing function "positional" unfilled)) ∧
      (twice = [] → unfilled = [] → ∃ bindings, outcome = .ok bindings) := by
  intro twice unfilled outcome
  refine ⟨fun name hname => bind_of_twice h.takes hnodup hname, fun htwice hne => ?_,
    fun htwice hnil => ?_⟩
  · obtain ⟨bindings, hbind⟩ := bind_of_fresh function hs h hnodup htwice
    exact hbind.trans (if_neg (by simpa using hne))
  · obtain ⟨bindings, hbind⟩ := bind_of_fresh function hs h hnodup htwice
    exact ⟨bindings, hbind.trans (if_pos (by simpa using hnil))⟩

end Signature

end Galley
