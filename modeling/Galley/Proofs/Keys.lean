import Galley.Proofs.Comparison
import Galley.Proofs.Exact
import Galley.Proofs.Renumbering
import Mathlib

/-!
# Keys

A variable stands under a key, and it is found under every key that is like this one. Keys are alike if
they are told by the same: numbers of all kinds by their exact value, texts of all kinds by their
characters, tuples by their members, and what has a number of its own by this number. So it does not
matter under which of two keys that are alike a variable is looked for.

* `Value.IsKey`: what can be a key.
* `Value.keyForm?`: what a key is told by.
* `Value.alike_iff`: **keys are alike exactly if they are told by the same.**
* `Value.alike_comm`, `Value.alike_congr`: likeness of keys is symmetric and transitive.
-/

namespace Galley

/-- What a key is told by. -/
inductive KeyForm where
  | nothing
  | quantity (value : Bool ⊕ ℚ)
  | text (s : String)
  | bytes (data : List UInt8)
  | tuple (items : List KeyForm)
  /-- The number of members, the first one if there is one, and the step if there are several. -/
  | range (length : Nat) (first : Option (Int × Option Int))
  | nan (number : Nat)
  | stream (number : Nat)
  | object (number : Nat)

namespace Value

variable {a b c : Value}

/-- **What can be a key.** -/
def IsKey (v : Value) : Prop := v.unhashable? = .none

instance (v : Value) : Decidable v.IsKey :=
  decidable_of_iff (v.unhashable?.isNone) Option.isNone_iff_eq_none

/-- What a range is told by. -/
def rangeForm (start stop step : Int) : KeyForm :=
  let n := rangeLength start stop step
  .range n (if n = 0 then .none else some (start, if n = 1 then .none else some step))

/-- A form with a number, unless it is that of a value that is nowhere else. -/
def numberForm? (form : Nat → KeyForm) (number : Nat) : Option KeyForm :=
  if number = 0 then .none else some (form number)

mutual

/-- **What a key is told by.** A value that is nowhere else is told by nothing, and so is what cannot be
a key. -/
def keyForm? : Value → Option KeyForm
  | .none => some .nothing
  | bool b => (Number.int (if b then 1 else 0)).quantity?.map .quantity
  | int n => (Number.int n).quantity?.map .quantity
  | float x => (Number.float x).quantity?.map .quantity
  | nan number => numberForm? .nan number
  | text _ s => some (.text s)
  | bytes _ data => some (.bytes data)
  | tuple _ items => (keyForms? items).map .tuple
  | range _ start stop step => some (rangeForm start stop step)
  | stream number _ _ => numberForm? .stream number
  | object identity _ _ => numberForm? .object identity.number
  | list .. | dict .. | view .. | scope .. => .none

/-- What some keys are told by. -/
def keyForms? : List Value → Option (List KeyForm)
  | [] => some []
  | v :: rest => do return (← keyForm? v) :: (← keyForms? rest)

end

/-! ## What keys are told by -/

theorem keyForms?_cons_eq_some {v : Value} {rest : List Value} {forms : List KeyForm} :
    keyForms? (v :: rest) = some forms ↔
      ∃ form others, forms = form :: others ∧ v.keyForm? = some form ∧ keyForms? rest = some others := by
  rw [keyForms?]
  cases v.keyForm? <;> cases keyForms? rest <;> simp [eq_comm]

theorem isKey_tuple {number : Nat} {items : List Value} (h : (tuple number items).IsKey) :
    ∀ v ∈ items, v.IsKey := by
  unfold IsKey unhashable? at h
  induction items with
  | nil => exact List.forall_mem_nil _
  | cons v rest ih =>
    rw [anyUnhashable?] at h
    cases hv : v.unhashable? with
    | some name =>
      rw [hv] at h
      cases h
    | none =>
      rw [hv] at h
      exact List.forall_mem_cons.2 ⟨hv, ih h⟩

theorem exists_some_iff {m n : KeyForm} : (∃ told, some m = some told ∧ some n = some told) ↔ m = n := by
  constructor
  · rintro ⟨told, hm, hn⟩
    exact Option.some.inj (hm.trans hn.symm)
  · rintro rfl
    exact ⟨m, rfl, rfl⟩

/-- What has a number of its own is told by it. -/
theorem numberForm?_iff {form : Nat → KeyForm} (hform : ∀ m n, form m = form n → m = n) (m n : Nat) :
    (m ≠ 0 ∧ m = n) ↔ ∃ told, numberForm? form m = some told ∧ numberForm? form n = some told := by
  unfold numberForm?
  by_cases hm : m = 0
  · simp [hm]
  · by_cases hn : n = 0
    · have hne : m ≠ n := fun heq => hm (heq.trans hn)
      simp [hn, hm]
    · have heq : form n = form m ↔ m = n := ⟨fun h => (hform n m h).symm, fun h => congrArg form h.symm⟩
      simp [hm, hn, heq]

theorem rangeEq_iff (a b : Int × Int × Int) :
    rangeEq a b ↔ rangeForm a.1 a.2.1 a.2.2 = rangeForm b.1 b.2.1 b.2.2 := by
  unfold rangeEq rangeForm
  generalize rangeLength a.1 a.2.1 a.2.2 = m, rangeLength b.1 b.2.1 b.2.2 = n
  by_cases hlength : m = n
  · subst hlength
    by_cases hzero : m = 0
    · simp [hzero]
    · by_cases hone : m = 1
      · simp [hone]
      · simp [hzero, hone]
  · simp [hlength]

/-- A value is **told** by its form if it is like those values that have the same form. -/
def Told (a : Value) : Prop := ∀ b, alike a b ↔ ∃ form, a.keyForm? = some form ∧ b.keyForm? = some form

theorem eqAll_iff {as : List Value} (h : ∀ a ∈ as, Told a) (bs : List Value) :
    eqAll as bs ↔ ∃ forms, keyForms? as = some forms ∧ keyForms? bs = some forms := by
  induction as generalizing bs with
  | nil =>
    cases bs with
    | nil => exact iff_of_true rfl ⟨[], rfl, rfl⟩
    | cons b bs =>
      refine iff_of_false Bool.false_ne_true ?_
      rintro ⟨forms, hnil, hcons⟩
      obtain ⟨form, others, rfl, -⟩ := keyForms?_cons_eq_some.1 hcons
      cases hnil
  | cons a as ih =>
    obtain ⟨ha, has⟩ := List.forall_mem_cons.1 h
    cases bs with
    | nil =>
      refine iff_of_false Bool.false_ne_true ?_
      rintro ⟨forms, hcons, hnil⟩
      obtain ⟨form, others, rfl, -⟩ := keyForms?_cons_eq_some.1 hcons
      cases hnil
    | cons b bs =>
      change (alike a b && eqAll as bs) ↔ _
      rw [Bool.and_eq_true, ha b, ih has bs]
      constructor
      · rintro ⟨⟨form, hforma, hformb⟩, forms, hformas, hformbs⟩
        exact ⟨form :: forms, keyForms?_cons_eq_some.2 ⟨form, forms, rfl, hforma, hformas⟩,
          keyForms?_cons_eq_some.2 ⟨form, forms, rfl, hformb, hformbs⟩⟩
      · rintro ⟨forms, hleft, hright⟩
        obtain ⟨form, others, rfl, hforma, hformas⟩ := keyForms?_cons_eq_some.1 hleft
        obtain ⟨form', others', heq, hformb, hformbs⟩ := keyForms?_cons_eq_some.1 hright
        obtain ⟨rfl, rfl⟩ := List.cons.inj heq
        exact ⟨⟨form, hforma, hformb⟩, others, hformas, hformbs⟩

/-- What is not a number has no exact value. -/
theorem quantity?_nan : (Number.float (0.0 / 0.0)).quantity? = Option.none := by
  have hdecode : Binary.decode (0.0 / 0.0) = .nan := by decide +kernel
  rw [Number.quantity?, hdecode]
  rfl

/-- Numbers are told by their exact value. -/
theorem told_of_number {m : Number} (hform : a.keyForm? = m.quantity?.map .quantity)
    (heq : ∀ b, alike a b = (number? b).any m.eq) : Told a := by
  intro b
  have hnumber {n : Number} (hn : b.number? = some n) (hb : b.keyForm? = n.quantity?.map .quantity) :
      alike a b ↔ ∃ form, a.keyForm? = some form ∧ b.keyForm? = some form := by
    rw [heq, hn, Option.any_some, Number.eq_iff, hform, hb]
    cases m.quantity? <;> cases n.quantity? <;> simp
  cases b with
  | bool b => exact hnumber (n := .int (if b then 1 else 0)) rfl rfl
  | int n => exact hnumber (n := .int n) rfl rfl
  | float x => exact hnumber (n := .float x) rfl rfl
  | nan number =>
    rw [heq, number?, Option.any_some, Number.eq_iff, quantity?_nan, hform]
    simp [keyForm?, numberForm?]
  | _ =>
    rw [heq, hform]
    simp [number?, keyForm?, numberForm?, rangeForm]

/-- **Keys are alike exactly if they are told by the same.** -/
theorem alike_iff (h : a.IsKey) (b : Value) :
    alike a b ↔ ∃ form, a.keyForm? = some form ∧ b.keyForm? = some form := by
  suffices htold : a.IsKey → Told a from htold h b
  clear h b
  -- of the parts of a value only the members of a tuple have to be keys too
  induction a using nested with
  | none =>
    intro _ b
    cases b <;> simp [alike, sameNan, eq, keyForm?, numberForm?, rangeForm]
  -- a number of one kind may be like one of another kind, so all kinds go together
  | bool x =>
    intro _
    exact told_of_number (m := .int (if x then 1 else 0)) rfl fun b => by simp [alike, sameNan, eq]
  | int n =>
    intro _
    exact told_of_number (m := .int n) rfl fun b => by simp [alike, sameNan, eq]
  | float x =>
    intro _
    exact told_of_number (m := .float x) rfl fun b => by simp [alike, sameNan, eq]
  | nan number =>
    intro _ b
    cases b with
    | nan other =>
      simpa [alike, sameNan, eq, keyForm?] using numberForm?_iff (fun _ _ h => by injection h) _ _
    | _ => simp [alike, sameNan, eq, keyForm?, numberForm?, rangeForm]
  | text kind s =>
    intro _ b
    cases b with
    | text =>
      rw [keyForm?, keyForm?, exists_some_iff]
      simp [alike, sameNan, eq]
    | _ => simp [alike, sameNan, eq, keyForm?, numberForm?, rangeForm]
  | bytes number data =>
    intro _ b
    cases b with
    | bytes =>
      rw [keyForm?, keyForm?, exists_some_iff]
      simp [alike, sameNan, eq]
    | _ => simp [alike, sameNan, eq, keyForm?, numberForm?, rangeForm]
  | tuple number items ih =>
    intro h b
    have heach := eqAll_iff fun v hv => ih v hv (isKey_tuple h v hv)
    cases b <;> simp [alike, sameNan, eq, keyForm?, numberForm?, rangeForm, heach]
  | range number start stop step =>
    intro _ b
    cases b with
    | range =>
      rw [keyForm?, keyForm?, exists_some_iff]
      simp [alike, sameNan, eq, rangeEq_iff]
    | _ => simp [alike, sameNan, eq, keyForm?, numberForm?, rangeForm]
  | stream number items ending =>
    intro _ b
    cases b with
    | stream other =>
      simpa [alike, sameNan, eq, keyForm?] using numberForm?_iff (fun _ _ h => by injection h) _ _
    | _ => simp [alike, sameNan, eq, keyForm?, numberForm?, rangeForm]
  | object identity attributes call =>
    intro _ b
    cases b with
    | object other =>
      simpa [alike, sameNan, eq, keyForm?] using numberForm?_iff (fun _ _ h => by injection h) _ _
    | _ => simp [alike, sameNan, eq, keyForm?, numberForm?, rangeForm]
  | view part entries =>
    intro h b
    cases part with
    | values =>
      cases b with
      | view other others => simp [alike, sameNan, eq, keyForm?, subsetViews_of_values]
      | _ => simp [alike, sameNan, eq, keyForm?]
    | keys | items => cases h
  | list | dict | scope => intro h; cases h

theorem alike_comm (ha : a.IsKey) (hb : b.IsKey) : alike a b = alike b a := by
  rw [Bool.eq_iff_iff, alike_iff ha, alike_iff hb]
  exact exists_congr fun form => and_comm

/-- Keys that are alike are like the same values. -/
theorem alike_congr (ha : a.IsKey) (hb : b.IsKey) (h : alike a b) (c : Value) :
    alike a c = alike b c := by
  obtain ⟨form, hforma, hformb⟩ := (alike_iff ha b).1 h
  rw [Bool.eq_iff_iff, alike_iff ha, alike_iff hb, hforma, hformb]

/-- Keys that are like a third one are alike. -/
theorem alike_of_alike (ha : a.IsKey) (hb : b.IsKey) (h : alike a c) (h' : alike b c) : alike a b := by
  obtain ⟨form, hforma, hformc⟩ := (alike_iff ha c).1 h
  obtain ⟨form', hformb, hformc'⟩ := (alike_iff hb c).1 h'
  rw [hformc] at hformc'
  exact (alike_iff ha b).2 ⟨form, hforma, hformb.trans hformc'.symm⟩

/-- A key is like itself if it is told by something. -/
theorem alike_self_iff (ha : a.IsKey) : alike a a ↔ a.keyForm?.isSome := by
  rw [alike_iff ha, Option.isSome_iff_exists]
  exact exists_congr fun form => and_self_iff

end Value

end Galley
