import Galley.Compile
import Galley.Proofs.Outcome

/-!
# What a `load` tag brings in

The words of a `load` tag name whole libraries, or members of the library behind a last `from`. What they
bring in depends on the text and on the libraries alone, and so does the error of a word that names
nothing: not on what has been read or loaded before.

* `Offer`: a filter or a tag that is brought in, and by which word.
* `membersFrom?`, `offersOf`: the two forms of the tag, and **what its words bring in**, in their order.
* `Compiler.accept`: a compiler that has been brought something.
* `Compiler.Brings`, `Compiler.brings_load`: loading is accepting what the words bring in, or refusing one
  of them whatever has been loaded.
* `exists_member_of_mem`: from one library nothing comes but what is listed.
-/

namespace Galley

/-- **What is brought in** under a name: a filter, or a tag with the place of the word that brought it. -/
inductive Offer where
  | filter (name : String) (function : Function)
  | tag (name : String) (tag : LibraryTag) (word : Span)

namespace Offer

/-- The name of what is brought in. -/
def name : Offer → String
  | filter name _ | tag name _ _ => name

/-- A filter under its name. -/
def filter? : Offer → Option (String × Function)
  | filter name f => some (name, f)
  | tag .. => none

/-- A tag under its name, as it is remembered. -/
def tag? : Offer → Option (String × LoadedTag × Span)
  | filter .. => none
  | tag name t word => some (name, ⟨name, t⟩, word)

end Offer

/-- Everything of a library. -/
def Library.offers (l : Library) (word : Span) : List Offer :=
  l.filters.map (fun entry => .filter entry.1 entry.2) ++
    l.tags.map fun entry => .tag entry.1 entry.2 word

/-- What a library has under a name: a filter, a tag, or both. -/
def Library.offersOf (l : Library) (name : String) (word : Span) : List Offer :=
  ((l.filters.lookup name).map (Offer.filter name)).toList ++
    ((l.tags.lookup name).map (Offer.tag name · word)).toList

/-- The text at a place. -/
def Span.text (span : Span) (source : List Char) : String := String.ofList (span.slice source)

/-- **The members that are listed,** and the library that they come from: the words before a last `from`,
and the word behind it. -/
def membersFrom? (source : List Char) (words : List Span) : Option (List Span × Span) :=
  match words.reverse with
  | library :: from_ :: member :: members =>
    if from_.text source = "from" then some ((member :: members).reverse, library) else none
  | _ => none

/-- **What the words of a `load` tag bring in,** in their order. -/
def offersOf (source : List Char) (libraries : List (String × Library)) (parts : Span) : List Offer :=
  let words := LoadWord.all source parts
  let library (word : Span) : Library := (libraries.lookup (word.text source)).getD {}
  match membersFrom? source words with
  | some (members, from_) => members.flatMap fun word => (library from_).offersOf (word.text source) word
  | none => words.flatMap fun word => (library word).offers word

variable {source : List Char} {libraries : List (String × Library)} {parts : Span} {α : Type}
  {offers more : List Offer}

/-- Where there are no libraries nothing is brought in. -/
theorem offersOf_nil (source : List Char) (parts : Span) : offersOf source [] parts = [] := by
  unfold offersOf
  dsimp only
  split
  · exact List.flatMap_eq_nil_iff.2 fun word _ => rfl
  · exact List.flatMap_eq_nil_iff.2 fun word _ => rfl

/-- **A load from one library brings in only what it lists.** -/
theorem exists_member_of_mem {members : List Span} {library : Span} {o : Offer}
    (hfrom : membersFrom? source (LoadWord.all source parts) = some (members, library))
    (h : o ∈ offersOf source libraries parts) : ∃ word ∈ members, o.name = word.text source := by
  unfold offersOf at h
  dsimp only at h
  rw [hfrom] at h
  obtain ⟨word, hword, hoffer⟩ := List.mem_flatMap.1 h
  refine ⟨word, hword, ?_⟩
  rcases List.mem_append.1 hoffer with hfilter | htag
  · obtain ⟨f, -, rfl⟩ := Option.map_eq_some_iff.1 (Option.mem_toList.1 hfilter)
    rfl
  · obtain ⟨t, -, rfl⟩ := Option.map_eq_some_iff.1 (Option.mem_toList.1 htag)
    rfl

namespace Compiler

variable {c : Compiler}

/-- **A compiler that has been brought** something; what comes last is found first. -/
def accept (c : Compiler) (offers : List Offer) : Compiler :=
  { c with
    filters := (offers.filterMap Offer.filter?).reverse ++ c.filters
    tags := (offers.filterMap Offer.tag?).reverse ++ c.tags }

theorem accept_append (c : Compiler) (offers more : List Offer) :
    c.accept (offers ++ more) = (c.accept offers).accept more := by
  simp only [accept, List.filterMap_append, List.reverse_append, List.append_assoc]

/-- A step of loading **brings in** offers to every compiler of a text and libraries, or refuses to do so
with the same error for all of them. -/
def Brings (source : List Char) (libraries : List (String × Library))
    (load : Compiler → Except TemplateError Compiler) (offers : List Offer) : Prop :=
  (∀ c : Compiler, c.source = source → c.libraries = libraries → load c = .ok (c.accept offers)) ∨
    ∃ e, ∀ c : Compiler, c.source = source → c.libraries = libraries → load c = .error e

/-- **Word by word.** -/
theorem brings_foldlM {load : Compiler → α → Except TemplateError Compiler} {offers : α → List Offer}
    {items : List α} (h : ∀ a ∈ items, Brings source libraries (load · a) (offers a)) :
    Brings source libraries (fun c => items.foldlM load c) (items.flatMap offers) := by
  induction items with
  | nil => exact .inl fun c _ _ => rfl
  | cons a rest ih =>
    obtain ⟨hfirst, hrest⟩ := List.forall_mem_cons.1 h
    rcases hfirst with hok | ⟨e, herror⟩
    · have hgoes (c : Compiler) (hs : c.source = source) (hl : c.libraries = libraries) :
          (a :: rest).foldlM load c = rest.foldlM load (c.accept (offers a)) :=
        foldlM_cons_of_ok (hok c hs hl)
      rcases ih hrest with hok' | ⟨e, herror⟩
      · left
        intro c hs hl
        rw [List.flatMap_cons, accept_append]
        exact (hgoes c hs hl).trans (hok' _ hs hl)
      · right
        exact ⟨e, fun c hs hl => (hgoes c hs hl).trans (herror (c.accept (offers a)) hs hl)⟩
    · right
      refine ⟨e, fun c hs hl => ?_⟩
      have hstops := herror c hs hl
      dsimp only at hstops ⊢
      rw [List.foldlM_cons, hstops]
      rfl

/-- All filters and all tags of a library, one after the other. -/
theorem foldl_load (c : Compiler) (l : Library) (word : Span) :
    l.tags.foldl (fun c entry => c.loadTag word entry.1 entry.2)
      (l.filters.foldl (fun c entry => c.loadFilter entry.1 entry.2) c) = c.accept (l.offers word) := by
  have hfilters (entries : List (String × Function)) (c : Compiler) :
      entries.foldl (fun c entry => c.loadFilter entry.1 entry.2) c =
        c.accept (entries.map fun entry => .filter entry.1 entry.2) := by
    induction entries generalizing c with
    | nil => rfl
    | cons entry rest ih =>
      rw [List.foldl_cons, ih, List.map_cons]
      exact (accept_append c [.filter entry.1 entry.2] _).symm
  have htags (entries : List (String × LibraryTag)) (c : Compiler) :
      entries.foldl (fun c entry => c.loadTag word entry.1 entry.2) c =
        c.accept (entries.map fun entry => .tag entry.1 entry.2 word) := by
    induction entries generalizing c with
    | nil => rfl
    | cons entry rest ih =>
      rw [List.foldl_cons, ih, List.map_cons]
      exact (accept_append c [.tag entry.1 entry.2 word] _).symm
  rw [hfilters, htags, Library.offers, accept_append]

/-- A word that names a library. -/
theorem brings_loadLibrary (word : Span) :
    Brings source libraries (·.loadLibrary word)
      (((libraries.lookup (word.text source)).getD {}).offers word) := by
  cases hfound : libraries.lookup (word.text source) with
  | some l =>
    left
    rintro c rfl rfl
    have hlibrary : c.library (c.reader.textAt word) word = .ok l := by
      change c.libraries.lookup (c.reader.textAt word) = some l at hfound
      unfold library
      rw [hfound]
    unfold loadLibrary
    dsimp only
    rw [hlibrary]
    exact congrArg Except.ok (foldl_load c l word)
  | none =>
    right
    let known := (libraries.map (·.1)).mergeSort fun a b => !(b < a)
    refine ⟨.here (.unknownLibrary (word.text source) known) word, ?_⟩
    rintro c rfl rfl
    change c.libraries.lookup (c.reader.textAt word) = none at hfound
    unfold loadLibrary library
    dsimp only
    rw [hfound]
    rfl

/-- A word that names a member of a library. -/
theorem brings_loadMember (l : Library) (libraryName : String) (librarySpan word : Span) :
    Brings source libraries (fun c => loadMember l libraryName librarySpan c word)
      (l.offersOf (word.text source) word) := by
  have htext (c : Compiler) (hs : c.source = source) : c.reader.textAt word = word.text source := by
    subst hs
    rfl
  unfold Library.offersOf loadMember
  cases hfilter : l.filters.lookup (word.text source) with
  | none =>
    cases htag : l.tags.lookup (word.text source) with
    | none =>
      right
      refine ⟨.here (.unknownMember (word.text source) libraryName librarySpan) word, fun c hs _ => ?_⟩
      dsimp only
      rw [htext c hs, hfilter, htag]
    | some t =>
      left
      intro c hs _
      dsimp only
      rw [htext c hs, hfilter, htag]
      rfl
  | some f =>
    left
    intro c hs _
    dsimp only
    rw [htext c hs, hfilter]
    cases l.tags.lookup (word.text source) <;> rfl

/-- The two forms of the tag. -/
theorem load_eq (c : Compiler) (parts : Span) :
    c.load parts =
      match membersFrom? c.source (LoadWord.all c.source parts) with
      | some (members, from_) => do
        let l ← c.library (from_.text c.source) from_
        members.foldlM (loadMember l (from_.text c.source) from_) c
      | none => (LoadWord.all c.source parts).foldlM loadLibrary c := by
  have hword (word : Span) : word.text c.source = "from" ↔ word.slice c.source = "from".toList := by
    rw [Span.text, ← String.toList_inj, String.toList_ofList]
  unfold load membersFrom?
  dsimp only
  rcases (LoadWord.all c.source parts).reverse with _ | ⟨library, _ | ⟨from_, _ | ⟨member, members⟩⟩⟩
  · rfl
  · rfl
  · rfl
  · dsimp only
    by_cases hfrom : from_.slice c.source = "from".toList
    · rw [if_pos hfrom, if_pos ((hword from_).2 hfrom)]
      rfl
    · rw [if_neg hfrom, if_neg (mt (hword from_).1 hfrom)]

/-- **Loading is accepting what the words bring in,** or one of them is refused, whatever has been read
and loaded before. -/
theorem brings_load (source : List Char) (libraries : List (String × Library)) (parts : Span) :
    Brings source libraries (·.load parts) (offersOf source libraries parts) := by
  unfold offersOf
  dsimp only
  cases hfrom : membersFrom? source (LoadWord.all source parts) with
  | none =>
    have hall : Brings source libraries (fun c => (LoadWord.all source parts).foldlM loadLibrary c)
        ((LoadWord.all source parts).flatMap fun word =>
          ((libraries.lookup (word.text source)).getD {}).offers word) :=
      brings_foldlM fun word _ => brings_loadLibrary word
    have hload (c : Compiler) (hs : c.source = source) :
        c.load parts = (LoadWord.all source parts).foldlM loadLibrary c := by
      rw [load_eq, hs, hfrom]
    rcases hall with hok | ⟨e, herror⟩
    · exact .inl fun c hs hl => (hload c hs).trans (hok c hs hl)
    · exact .inr ⟨e, fun c hs hl => (hload c hs).trans (herror c hs hl)⟩
  | some form =>
    obtain ⟨members, from_⟩ := form
    dsimp only
    cases hfound : libraries.lookup (from_.text source) with
    | none =>
      -- the library is looked up before its members
      right
      let known := (libraries.map (·.1)).mergeSort fun a b => !(b < a)
      refine ⟨.here (.unknownLibrary (from_.text source) known) from_, ?_⟩
      rintro c rfl rfl
      dsimp only
      rw [load_eq, hfrom]
      dsimp only
      unfold library
      rw [hfound]
      rfl
    | some l =>
      have hall : Brings source libraries
          (fun c => members.foldlM (loadMember l (from_.text source) from_) c)
          (members.flatMap fun word => l.offersOf (word.text source) word) :=
        brings_foldlM fun word _ => brings_loadMember l (from_.text source) from_ word
      have hload (c : Compiler) (hs : c.source = source) (hl : c.libraries = libraries) :
          c.load parts = members.foldlM (loadMember l (from_.text source) from_) c := by
        rw [load_eq, hs, hfrom]
        dsimp only
        unfold library
        rw [hl, hfound]
        rfl
      rcases hall with hok | ⟨e, herror⟩
      · exact .inl fun c hs hl => (hload c hs hl).trans (hok c hs hl)
      · exact .inr ⟨e, fun c hs hl => (hload c hs hl).trans (herror c hs hl)⟩

/-- What has been loaded without an error. -/
theorem eq_accept_of_load {c' : Compiler} (h : c.load parts = .ok c') :
    c' = c.accept (offersOf c.source c.libraries parts) := by
  rcases brings_load c.source c.libraries parts with hok | ⟨e, herror⟩
  · exact Except.ok.inj (h.symm.trans (hok c rfl rfl))
  · cases h.symm.trans (herror c rfl rfl)

end Compiler

end Galley
