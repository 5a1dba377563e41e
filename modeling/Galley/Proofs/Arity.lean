import Galley.Compile
import Galley.Proofs.Binding
import Galley.Proofs.Pipeline

/-!
# Arguments of loaded filters

A filter of a library is a function. It is called with its value and, if there is one, with the
argument behind its colon, and its signature tells how many arguments may be given to it by
position. What is accepted in a template goes by only three classes of signatures.

* `Signature.TakesPositional`, `Signature.takesPositional_iff_bind`: how many arguments a function
  takes by position.
* `Function.arity_eq_required_iff`, `Function.arity_eq_forbidden_iff`: the classes.
* `Signature.Weighs`, `Function.passes_iff`: the uses for which they tell what the signature does.
* `Reader.Piped`, `Pipeline.piped_written`: an expression with one more filter, and its text.
* `Reader.chain_piped`: **which uses of a loaded filter are accepted.**
-/

namespace Galley

open Text

variable {r : Reader} {start : Nat}

namespace Signature

variable {s : Signature} {n : Nat}

/-- Whether a function **takes a number of arguments by position:** not fewer than have no default,
and not more than there are names. -/
def TakesPositional (s : Signature) (n : Nat) : Prop :=
  s.params.length - s.defaults.length ≤ n ∧ n ≤ s.params.length

instance (s : Signature) (n : Nat) : Decidable (s.TakesPositional n) :=
  inferInstanceAs (Decidable (_ ∧ _))

/-- The names behind a number of names have a default exactly if the number is not too small. -/
theorem forall_mem_drop_iff (hs : s.params.Nodup) (hn : n ≤ s.params.length) :
    (∀ name ∈ s.params.drop n, name ∈ s.params.drop (s.params.length - s.defaults.length)) ↔
      s.params.length - s.defaults.length ≤ n := by
  refine ⟨fun h => ?_, fun hle name hname => List.drop_subset_drop_left s.params hle hname⟩
  by_contra hlt
  have hle : (s.params.drop n).length ≤
      (s.params.drop (s.params.length - s.defaults.length)).length :=
    (hs.sublist (List.drop_sublist _ _)).length_le_of_subset h
  simp only [List.length_drop] at hle
  omega

/-- **The calls that bind** are those with a number of arguments that is taken, if nothing else is
collected or must be given by keyword. -/
theorem takesPositional_iff_bind {positional : List Value} (function : String) (hs : s.WellFormed)
    (hvarargs : s.varargs = none) (hkeyword : s.keywordOnly = []) :
    s.TakesPositional positional.length ↔
      ∃ bindings, s.bind function positional [] = .ok bindings := by
  have hnodup : s.params.Nodup := (List.nodup_append.1 hs.nodup).1
  have hunset : s.unset positional.length [] = s.params.drop positional.length := by
    simp [unset]
  constructor
  · rintro ⟨hleast, hmost⟩
    have hadmits : s.Admits positional.length [] :=
      ⟨.inl hmost, List.forall_mem_nil _, by simp [hkeyword]⟩
    have hall := (forall_mem_drop_iff hnodup hmost).2 hleast
    have hfilled : s.unfilled positional.length [] = [] := by
      rw [unfilled, hunset, List.filter_eq_nil_iff]
      intro name hname
      simp [hall name hname]
    have hnames : ([] : List (String × Value)).map (·.1) = [] := rfl
    rw [← hnames] at hadmits hfilled
    exact (bind_of_admits function hs hadmits List.nodup_nil).2.2 rfl hfilled
  · rintro ⟨bindings, hbind⟩
    have hfits := fits_of_bind hs hbind
    have hmost : positional.length ≤ s.params.length := by simpa [hvarargs] using hfits.room
    have hall := hfits.defaults
    rw [List.map_nil, hunset] at hall
    exact ⟨(forall_mem_drop_iff hnodup hmost).1 hall, hmost⟩

end Signature

namespace Function

variable {f : Function}

/-- An argument is required if more than one has no default. -/
theorem arity_eq_required_iff :
    f.arity = .required ↔ 1 < f.signature.params.length - f.signature.defaults.length := by
  have hdefaults : f.signature.defaults.isEmpty ↔ f.signature.defaults.length = 0 := by
    rw [List.isEmpty_iff, List.length_eq_zero_iff]
  simp only [arity]
  split
  · next hfew => exact ⟨nofun, by omega⟩
  · next hmany =>
    split
    · next hnone =>
      simp only [Bool.or_eq_true, decide_eq_true_eq, hdefaults] at hnone
      exact ⟨fun _ => by omega, fun _ => rfl⟩
    · next hsome =>
      simp only [Bool.or_eq_true, decide_eq_true_eq, hdefaults] at hsome
      exact ⟨nofun, by omega⟩

/-- No argument may be given to a function of less than two names. -/
theorem arity_eq_forbidden_iff : f.arity = .forbidden ↔ f.signature.params.length < 2 := by
  simp only [arity]
  split
  · next hfew => exact ⟨fun _ => hfew, fun _ => rfl⟩
  · next hmany =>
    refine ⟨fun h => ?_, fun h => absurd h hmany⟩
    split at h <;> cases h

end Function

variable {f : Function} {argument : Option Atom} {name : Span}

/-- A use of a filter is **weighed by its signature** if the function takes any argument, where the
filter has none, and if no more than two have no default, where it has one. -/
def Signature.Weighs (s : Signature) : Option Atom → Prop
  | none => 1 ≤ s.params.length
  | some _ => s.params.length - s.defaults.length ≤ 2

/-- Whether the class of a function lets a use of it pass. -/
def Function.Passes (f : Function) : Option Atom → Prop
  | none => f.arity ≠ .required
  | some _ => f.arity ≠ .forbidden

instance (f : Function) : (argument : Option Atom) → Decidable (f.Passes argument)
  | none => inferInstanceAs (Decidable (f.arity ≠ .required))
  | some _ => inferInstanceAs (Decidable (f.arity ≠ .forbidden))

/-- What is said of a filter with a name that is not accepted. -/
def arityError (name : Span) : Option Atom → TemplateError
  | none => .here .missingArgument name
  | some a => .here .unexpectedArgument a.span

theorem Reader.checkArity_loaded (f : Function) (function : String) (name : Span)
    (argument : Option Atom) :
    checkArity (.loaded function f) name argument =
      if f.Passes argument then .ok () else .error (arityError name argument) := by
  have harity : (Filter.loaded function f).arity = f.arity := rfl
  have hnone : f.Passes none ↔ f.arity ≠ .required := Iff.rfl
  have hsome (a : Atom) : f.Passes (some a) ↔ f.arity ≠ .forbidden := Iff.rfl
  unfold checkArity
  rw [harity]
  cases argument with
  | none => cases hclass : f.arity <;> simp [hnone, hclass, arityError]
  | some a => cases hclass : f.arity <;> simp [hsome, hclass, arityError]

/-- **A use that is weighed** passes exactly if the function takes its arguments, the value among
them. Another one passes, although the function does not take them. -/
theorem Function.passes_iff (f : Function) (argument : Option Atom) :
    (f.signature.Weighs argument →
      (f.Passes argument ↔ f.signature.TakesPositional (1 + argument.toList.length))) ∧
    (¬ f.signature.Weighs argument →
      f.Passes argument ∧ ¬ f.signature.TakesPositional (1 + argument.toList.length)) := by
  have hrequired := (arity_eq_required_iff (f := f)).not
  have hforbidden := (arity_eq_forbidden_iff (f := f)).not
  cases argument with
  | none =>
    simp only [Signature.Weighs, Passes, Signature.TakesPositional, hrequired,
      Option.toList_none, List.length_nil]
    omega
  | some a =>
    simp only [Signature.Weighs, Passes, Signature.TakesPositional, hforbidden,
      Option.toList_some, List.length_singleton]
    omega

/-! ## One more filter -/

namespace Reader

/-- **An expression and one more filter** of some name and argument: what a content that starts at
an offset is read as. -/
def Piped (r : Reader) (content : List Char) (start : Nat) (e : Expression) (name : Span)
    (argument : Option Atom) : Prop :=
  ∃ o c earlier operand, Chain.read? content start = .ok (some (o, c)) ∧ r.atom o = .ok e.head ∧
    Cursor.readAll Chain.filterStep c = ⟨earlier ++ [⟨name, operand⟩], none⟩ ∧
    earlier.mapM r.filterUse = .ok e.filters ∧ operand.mapM r.atom = .ok argument

variable {content : List Char} {e : Expression}

theorem filterUse_loaded {operand : Option Operand} (hoperand : operand.mapM r.atom = .ok argument)
    (hloaded : r.filters.lookup (r.textAt name) = some f) :
    r.filterUse ⟨name, operand⟩ = if f.Passes argument
      then .ok ⟨name, .loaded (r.textAt name) f, argument⟩ else .error (arityError name argument) := by
  have hfilter : r.filter name = .ok (.loaded (r.textAt name) f) := by
    simp only [filter, hloaded]
  rw [filterUse_eq hoperand hfilter, checkArity_loaded]
  split <;> rfl

/-- The one more filter decides. -/
theorem Piped.chain_eq (h : r.Piped content start e name argument)
    (hloaded : r.filters.lookup (r.textAt name) = some f) (whole : Span) :
    r.chain content whole start = if f.Passes argument
      then .ok ⟨e.head, e.filters ++ [⟨name, .loaded (r.textAt name) f, argument⟩]⟩
      else .error (arityError name argument) := by
  obtain ⟨o, c, earlier, operand, hread, hhead, hwords, hearlier, hoperand⟩ := h
  rw [chain_of_read hread hhead, hwords, Cursor.Words.mapM, List.mapM_append, hearlier,
    List.mapM_cons, filterUse_loaded hoperand hloaded]
  split <;> rfl

end Reader

/-! ## Its text -/

/-- A chain with one more filter behind it. -/
def Pipeline.piped (p : Pipeline) (l : Link) : Pipeline := { p with links := p.links ++ [l] }

/-- **A chain with one more filter** is read as its expression and that filter. -/
theorem Pipeline.piped_written {p : Pipeline} {l : Link} (hp : p.Proper r) (hl : l.Spelled)
    (hreads : (⟨start, (p.piped l).written⟩ : Cursor).Reads r.source) :
    let place := l.nameStart (p.linksStart start + (p.links.flatMap Link.written).length)
    r.Piped (p.piped l).written start (p.expression r start) ⟨place, l.name.toList.length⟩
      (l.use r place).argument ∧ r.textAt ⟨place, l.name.toList.length⟩ = l.name := by
  intro place
  have hspelled : (p.piped l).Spelled := by
    refine ⟨hp.leading, hp.head, fun m hm => ?_, hp.trailing⟩
    rcases List.mem_append.1 hm with hm | hm
    · exact (hp.links m hm).spelled
    · rwa [List.mem_singleton.1 hm]
  have hlinks := hreads.append.2.append.2.append.1
  rw [Pipeline.piped, List.flatMap_append, List.flatMap_singleton] at hlinks
  obtain ⟨hbefore, hlast⟩ := hlinks.append
  have hbare : (⟨place, l.bare⟩ : Cursor).Reads r.source := Link.reads_bare hlast
  refine ⟨⟨_, _, Link.words (p.linksStart start) p.links, _, read?_spelled hspelled start,
    Reader.atom_written hp.head hreads.append.2.append.1, ?_, Link.mapM_words hp.links hbefore,
    Link.mapM_atom_word hl hbare⟩, ?_⟩
  · rw [Link.readAll_spelled hspelled.links hspelled.trailing, Pipeline.piped, Link.words_append]
    rfl
  · rw [Reader.textAt, hbare.append.1.slice_eq, String.ofList_toList]

namespace Reader

variable {content : List Char} {e : Expression}

/-- **Which uses of a loaded filter are accepted.** One that is weighed by its signature is accepted
if the function takes the value and the argument of the filter by position; if not, the argument is
missing or unexpected. Any other is accepted, although the function does not take them. -/
theorem chain_piped (h : r.Piped content start e name argument)
    (hloaded : r.filters.lookup (r.textAt name) = some f) (whole : Span) :
    (f.signature.Weighs argument → r.chain content whole start =
      if f.signature.TakesPositional (1 + argument.toList.length)
      then .ok ⟨e.head, e.filters ++ [⟨name, .loaded (r.textAt name) f, argument⟩]⟩
      else .error (arityError name argument)) ∧
    (¬ f.signature.Weighs argument →
      ¬ f.signature.TakesPositional (1 + argument.toList.length) ∧
      r.chain content whole start =
        .ok ⟨e.head, e.filters ++ [⟨name, .loaded (r.textAt name) f, argument⟩]⟩) := by
  obtain ⟨hweighed, hlax⟩ := f.passes_iff argument
  refine ⟨fun hw => ?_, fun hw => ⟨(hlax hw).2, ?_⟩⟩
  · rw [h.chain_eq hloaded]
    exact if_congr (hweighed hw) rfl rfl
  · rw [h.chain_eq hloaded, if_pos (hlax hw).1]

/-- A function of three parameters without a default. -/
def triple : Function where
  name := "triple"
  signature := { params := ["a", "b", "c"] }
  action := .compute fun _ => .ok .none

/-- Without an argument the filter is refused. -/
theorem chain_piped_triple :
    (⟨"x|f".toList, [("f", triple)], 0⟩ : Reader).chain "x|f".toList ⟨0, 3⟩ 0 =
      .error (.here .missingArgument ⟨2, 1⟩) := by
  have hpiped : Reader.Piped ⟨"x|f".toList, [("f", triple)], 0⟩ "x|f".toList 0
      ⟨.path ⟨0, 1⟩ "x" [], []⟩ ⟨2, 1⟩ none :=
    ⟨⟨.path, ⟨0, 1⟩⟩, ⟨2, ['f']⟩, [], none, rfl, rfl, rfl, rfl, rfl⟩
  have hweighed : triple.signature.Weighs none := show 1 ≤ 3 by decide
  exact ((chain_piped hpiped rfl ⟨0, 3⟩).1 hweighed).trans (if_neg (by decide))

/-- With an argument it is accepted, although the function takes no less than three values. -/
theorem chain_piped_triple_lax :
    ¬ triple.signature.TakesPositional 2 ∧
      compile "{% load lib %}\x7b\x7b x|f:1 \x7d\x7d".toList [("lib", { filters := [("f", triple)] })] =
        .ok [.load ⟨0, 14⟩, .output ⟨14, 11⟩ ⟨.path ⟨17, 1⟩ "x" [],
          [⟨⟨19, 1⟩, .loaded "f" triple, some (.int ⟨21, 1⟩ 1)⟩]⟩] := by
  have hscan : Token.scan "{% load lib %}\x7b\x7b x|f:1 \x7d\x7d".toList =
      [⟨.tag, ⟨0, 14⟩⟩, ⟨.interpolation, ⟨14, 11⟩⟩] := by decide +kernel
  refine ⟨by decide, ?_⟩
  rw [compile, hscan]
  rfl

end Reader

end Galley
