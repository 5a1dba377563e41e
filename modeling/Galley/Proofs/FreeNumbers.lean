import Galley.Proofs.Allotment
import Galley.Proofs.Frame
import Mathlib

/-!
# Numbers that are free

A scope goes on with the first number that none of its values has, so it never gives a number that
one of them was given before.

* `Value.Shows`, `Value.showing`: numbers that were given are found in the value.
* `Layer.freeNumber_given`: **the numbers that a layer is given** are not free any more.
* `Layer.start`, `Layer.get?_numbered`: from which number on the value of a variable is numbered.
* `Layer.start_disjoint`: different variables are given different numbers.
-/

namespace Galley

namespace Value

variable {α β γ δ ε ζ : Type}

/-! ## The highest number -/

/-- The step by which the highest number in a value is found. -/
def mark (part : Value) : StateM Nat Value := fun n => (part, max n part.number)

theorem run_mark (v : Value) (n : Nat) : (mark v).run n = (v, max n v.number) := rfl

/-- The numbers that a computation hands out **show** in what it makes, and so do all numbers that
were there before. Numbers show to a computation that keeps the highest one. -/
def Shows (x : StateM Nat α) (after : α → StateM Nat β) (before : StateM Nat γ) : Prop :=
  ∀ n s h, ((after (x.run n).1).run s).2 ≤ h →
    s ≤ h ∧ (x.run n).2 ≤ max n (h + 1) ∧ ∀ t ≤ h, (before.run t).2 ≤ h

theorem shows_pure {a : α} {b : β} {c : γ} {after : α → StateM Nat β} (h : after a = pure b) :
    Shows (pure a) after (pure c) := by
  intro n s m hm
  rw [run_pure_number, h, run_pure_number] at hm
  exact ⟨hm, Nat.le_max_left n _, fun t ht => ht⟩

/-- Two computations in a row, of which the second one does not depend on the first. -/
theorem Shows.both {x : StateM Nat α} {y : StateM Nat β} {after : α → StateM Nat α}
    {after' : β → StateM Nat β} {before : StateM Nat α} {before' : StateM Nat β}
    (hx : Shows x after before) (hy : Shows y after' before') (c : α → β → γ)
    (afterBoth : γ → StateM Nat γ)
    (h : ∀ a b, afterBoth (c a b) = do return c (← after a) (← after' b)) :
    Shows (do return c (← x) (← y)) afterBoth (do return c (← before) (← before')) := by
  intro n s m hm
  simp only [run_bind_number, run_pure_number, h] at hm ⊢
  obtain ⟨hs, hn, hbefore'⟩ := hy _ _ m hm
  obtain ⟨hs', hn', hbefore⟩ := hx n s m hs
  exact ⟨hs', by omega, fun t ht => hbefore' _ (hbefore t ht)⟩

section Part

variable {inner : StateM Nat α} {marked : α → StateM Nat α} {parts : α}

/-- What is not given a number shows those of its parts and its own. -/
theorem Shows.numberPart_of_none (h : Shows inner marked (marked parts)) (build : α → Value)
    (hnone : ∀ as m, (build as).withNumber? m = .none)
    (hnumber : ∀ as, (build as).number = (build parts).number)
    (hmark : ∀ as, rebuild mark (build as) = marked as >>= fun as => mark (build as)) :
    Shows (inner >>= fun as => numberPart (build as)) (rebuild mark)
      (rebuild mark (build parts)) := by
  intro n s m hm
  rw [run_bind_number, run_numberPart_of_none (hnone _ _)] at hm ⊢
  simp only [hmark, run_bind_number, run_mark, hnumber _, Nat.max_le] at hm ⊢
  obtain ⟨hs, hn, hbefore⟩ := h n s m hm.1
  exact ⟨hs, hn, fun t ht => ⟨hbefore t ht, hm.2⟩⟩

/-- What may be given a number shows it. -/
theorem Shows.numberPart (h : Shows inner marked (marked parts)) (build : α → Nat → Value)
    (hb : ∀ as, Numberable (build as)) (hnumber : ∀ as k, (build as k).number = k)
    (hmark : ∀ as k, rebuild mark (build as k) = marked as >>= fun as => mark (build as k))
    (number : Nat) :
    Shows (inner >>= fun as => numberPart (build as number)) (rebuild mark)
      (rebuild mark (build parts number)) := by
  by_cases hk : number = 0
  · subst hk
    intro n s m hm
    rw [run_bind_number, run_numberPart_of_some ((hb _).first _)] at hm ⊢
    simp only [hmark, run_bind_number, run_mark, hnumber, Nat.max_le] at hm ⊢
    obtain ⟨hs, hn, hbefore⟩ := h n s m hm.1
    -- the number that it is given is the next one behind those of its parts
    exact ⟨hs, by omega, fun t ht => ⟨hbefore t ht, Nat.zero_le m⟩⟩
  · exact h.numberPart_of_none (build · number) (fun as m => (hb as).withNumber?_of_ne hk m)
      (fun as => by rw [hnumber, hnumber]) (hmark · number)

end Part

/-- The numbers that the parts of a value are given show. -/
def Showing (v : Value) : Prop := Shows (rebuild numberPart v) (rebuild mark) (rebuild mark v)

theorem shows_rebuildAll {items : List Value} (h : ∀ v ∈ items, Showing v) :
    Shows (rebuildAll numberPart items) (rebuildAll mark) (rebuildAll mark items) := by
  induction items with
  | nil => exact shows_pure rfl
  | cons v rest ih =>
    obtain ⟨hv, hrest⟩ := List.forall_mem_cons.1 h
    exact hv.both (ih hrest) List.cons _ fun _ _ => rfl

theorem shows_rebuildEntries {entries : List (Value × Value)}
    (h : ∀ e ∈ entries, Showing e.1 ∧ Showing e.2) :
    Shows (rebuildEntries numberPart entries) (rebuildEntries mark)
      (rebuildEntries mark entries) := by
  induction entries with
  | nil => exact shows_pure rfl
  | cons e rest ih =>
    obtain ⟨⟨hk, hv⟩, hrest⟩ := List.forall_mem_cons.1 h
    have hvalue := hv.both (ih hrest) Prod.mk
      (fun p => do return (← rebuild mark p.1, ← rebuildEntries mark p.2)) fun _ _ => rfl
    exact hk.both hvalue (fun k p => (k, p.1) :: p.2) _ fun _ _ => rfl

theorem shows_rebuildLayers {layers : List (List (Value × Value))}
    (h : ∀ layer ∈ layers, ∀ e ∈ layer, Showing e.1 ∧ Showing e.2) :
    Shows (rebuildLayers numberPart layers) (rebuildLayers mark) (rebuildLayers mark layers) := by
  induction layers with
  | nil => exact shows_pure rfl
  | cons layer rest ih =>
    obtain ⟨hlayer, hrest⟩ := List.forall_mem_cons.1 h
    exact (shows_rebuildEntries hlayer).both (ih hrest) List.cons _ fun _ _ => rfl

theorem shows_rebuildAttributes {attributes : List (String × Except HostError Value)}
    (h : ∀ a ∈ attributes, ∀ v, a.2 = .ok v → Showing v) :
    Shows (rebuildAttributes numberPart attributes) (rebuildAttributes mark)
      (rebuildAttributes mark attributes) := by
  induction attributes with
  | nil => exact shows_pure rfl
  | cons a rest ih =>
    obtain ⟨ha, hrest⟩ := List.forall_mem_cons.1 h
    obtain ⟨name, result⟩ := a
    cases result with
    | error e =>
      have hnothing : Shows (pure ()) pure (pure ()) := shows_pure rfl
      exact hnothing.both (ih hrest) (fun _ as => (name, .error e) :: as) (rebuildAttributes mark)
        fun _ _ => rfl
    | ok v =>
      exact (ha v rfl).both (ih hrest) (fun b as => (name, .ok b) :: as) (rebuildAttributes mark)
        fun _ _ => rfl

/-- **Numbers show** in the highest number of the value that was numbered. -/
theorem showing (v : Value) : Showing v := by
  have hnothing : Shows (pure ()) pure (pure ()) := shows_pure rfl
  induction v using nested with
  | none =>
    exact hnothing.numberPart_of_none (fun _ => .none) (fun _ _ => rfl) (fun _ => rfl) fun _ => rfl
  | bool b =>
    exact hnothing.numberPart_of_none (fun _ => .bool b) (fun _ _ => rfl) (fun _ => rfl) fun _ => rfl
  | int n =>
    exact hnothing.numberPart_of_none (fun _ => .int n) (fun _ _ => rfl) (fun _ => rfl) fun _ => rfl
  | text kind s =>
    exact hnothing.numberPart_of_none (fun _ => .text kind s) (fun _ _ => rfl) (fun _ => rfl)
      fun _ => rfl
  | float x =>
    by_cases hx : x.isNaN = true
    · have hgiven (m : Nat) : (numberPart (float x)).run m = (nan m, m + 1) :=
        run_numberPart_of_some (if_pos hx)
      intro n s m hm
      simp only [rebuild, hgiven, run_mark, number, Nat.max_le] at hm ⊢
      exact ⟨hm.1, by omega, fun t ht => ⟨ht, Nat.zero_le m⟩⟩
    · exact hnothing.numberPart_of_none (fun _ => .float x) (fun _ _ => if_neg hx) (fun _ => rfl)
        fun _ => rfl
  | nan number =>
    exact hnothing.numberPart (fun _ => nan) (fun _ => numberable_nan) (fun _ _ => rfl)
      (fun _ _ => rfl) number
  | bytes number data =>
    exact hnothing.numberPart (fun _ n => bytes n data) (fun _ => numberable_bytes data)
      (fun _ _ => rfl) (fun _ _ => rfl) number
  | range number start stop step =>
    exact hnothing.numberPart (fun _ n => range n start stop step)
      (fun _ => numberable_range start stop step) (fun _ _ => rfl) (fun _ _ => rfl) number
  | list number items ih =>
    exact (shows_rebuildAll ih).numberPart (fun as n => list n as) numberable_list
      (fun _ _ => rfl) (fun _ _ => rfl) number
  | tuple number items ih =>
    exact (shows_rebuildAll ih).numberPart (fun as n => tuple n as) numberable_tuple
      (fun _ _ => rfl) (fun _ _ => rfl) number
  | stream number items ending ih =>
    exact (shows_rebuildAll ih).numberPart (fun as n => stream n as ending)
      (numberable_stream · ending) (fun _ _ => rfl) (fun _ _ => rfl) number
  | dict number entries ih =>
    exact (shows_rebuildEntries ih).numberPart (fun as n => dict n as) numberable_dict
      (fun _ _ => rfl) (fun _ _ => rfl) number
  | view part entries ih =>
    exact (shows_rebuildEntries ih).numberPart_of_none (fun as => view part as) (fun _ _ => rfl)
      (fun _ => rfl) fun _ => rfl
  | object identity attributes call ih =>
    exact (shows_rebuildAttributes ih).numberPart
      (fun as n => object { identity with number := n } as call) (numberable_object identity · call)
      (fun _ _ => rfl) (fun _ _ => rfl) identity.number
  | scope number layers ih =>
    exact (shows_rebuildLayers ih).numberPart (fun as n => scope n as) numberable_scope
      (fun _ _ => rfl) (fun _ _ => rfl) number

/-- **A value that was numbered** shows the numbers that it was given, and those that it had. -/
theorem highest_numbered (v : Value) (n : Nat) :
    (v.numbered.run n).2 ≤ max n ((v.numbered.run n).1.highest + 1) ∧
      v.highest ≤ (v.numbered.run n).1.highest := by
  unfold numbered
  split
  · obtain ⟨-, hn, hbefore⟩ := showing v n 0 _ (Nat.le_refl _)
    exact ⟨hn, hbefore 0 (Nat.zero_le _)⟩
  · exact ⟨Nat.le_max_left n _, Nat.le_refl _⟩

/-! ## Names -/

theorem alike_str (s t : String) : alike (.str s) (.str t) = (s == t) := by
  simp [alike, sameNan, str, eq]

theorem alike_withNumber? {v w : Value} {m : Nat} (h : v.withNumber? m = some w) (name : String) :
    alike w (.str name) = alike v (.str name) := by
  unfold withNumber? at h
  split at h
  all_goals first | (cases h; rfl) | (split at h <;> cases h; rfl) | cases h

theorem alike_numberPart (v : Value) (m : Nat) (name : String) :
    alike ((numberPart v).run m).1 (.str name) = alike v (.str name) := by
  cases h : v.withNumber? m with
  | none => rw [run_numberPart_of_none h]
  | some w => rw [run_numberPart_of_some h, alike_withNumber? h]

/-- A value is like a name before it is numbered if and only if it is so afterwards. -/
theorem alike_numbered (v : Value) (n : Nat) (name : String) :
    alike (v.numbered.run n).1 (.str name) = alike v (.str name) := by
  unfold numbered
  split
  · cases v <;> first | rfl | exact alike_numberPart _ _ name
  · rfl

end Value

namespace Layer

/-- The first free number of a layer is above all numbers that are in it, and not below the first
number that values are given. -/
theorem freeNumber_le_iff {layer : Layer} {n : Nat} :
    layer.freeNumber ≤ n ↔
      Value.firstNumber ≤ n ∧ ∀ e ∈ layer, e.1.highest < n ∧ e.2.highest < n := by
  have hfold (entries : Layer) (m : Nat) :
      entries.foldl (fun n entry => max n (max entry.1.highest entry.2.highest + 1)) m ≤ n ↔
        m ≤ n ∧ ∀ e ∈ entries, e.1.highest < n ∧ e.2.highest < n := by
    induction entries generalizing m with
    | nil => simp
    | cons e rest ih =>
      rw [List.foldl_cons, ih, List.forall_mem_cons, Nat.max_le, Nat.succ_le_iff, Nat.max_lt, and_assoc]
  exact hfold layer Value.firstNumber

/-- Numbering the entries of a layer one after the other. -/
theorem run_numbered_cons (k v : Value) (rest : Layer) (n : Nat) :
    (numbered ((k, v) :: rest)).run n =
      (((k.numbered.run n).1, (v.numbered.run (n + k.places)).1) ::
          ((numbered rest).run (n + k.places + v.places)).1,
        ((numbered rest).run (n + k.places + v.places)).2) := by
  unfold numbered
  simp only [List.mapM_cons, Value.run_bind_number, Value.run_pure_number, Value.run_numbered_snd]

theorem numbers_below (layer : Layer) {n m : Nat}
    (h : ∀ e ∈ (layer.numbered.run n).1, e.1.highest < m ∧ e.2.highest < m) :
    (layer.numbered.run n).2 ≤ max n m ∧ ∀ e ∈ layer, e.1.highest < m ∧ e.2.highest < m := by
  induction layer generalizing n with
  | nil => exact ⟨Nat.le_max_left n m, List.forall_mem_nil _⟩
  | cons e rest ih =>
    obtain ⟨k, v⟩ := e
    rw [run_numbered_cons, List.forall_mem_cons] at h
    obtain ⟨⟨hk, hv⟩, hrest⟩ := h
    obtain ⟨hlast, hrest⟩ := ih hrest
    obtain ⟨hnext, hk'⟩ := k.highest_numbered n
    obtain ⟨hnext', hv'⟩ := v.highest_numbered (n + k.places)
    rw [Value.run_numbered_snd] at hnext hnext'
    rw [run_numbered_cons]
    dsimp only at hk hv ⊢
    have hhead := And.intro (Nat.lt_of_le_of_lt hk' hk) (Nat.lt_of_le_of_lt hv' hv)
    exact ⟨by omega, List.forall_mem_cons.2 ⟨hhead, hrest⟩⟩

/-- **The numbers that a layer is given** are not free any more, and neither are those it had. -/
theorem freeNumber_given (layer : Layer) :
    (layer.numbered.run layer.freeNumber).2 ≤ layer.given.freeNumber ∧
      layer.freeNumber ≤ layer.given.freeNumber := by
  obtain ⟨hfirst, hbelow⟩ := freeNumber_le_iff.1 (Nat.le_refl layer.given.freeNumber)
  obtain ⟨hlast, hbefore⟩ := numbers_below layer hbelow
  have hle := freeNumber_le_iff.2 ⟨hfirst, hbefore⟩
  exact ⟨by omega, hle⟩

/-- The number from which on the value of a variable is numbered. -/
def start (key : Value) : Layer → Nat → Nat
  | [], n => n
  | (k, v) :: rest, n =>
    if Value.alike k key then n + k.places else start key rest (n + k.places + v.places)

/-- **The value of a variable** in a layer that was numbered. -/
theorem get?_numbered (layer : Layer) (name : String) (n : Nat) :
    (layer.numbered.run n).1.get? (.str name) =
      (layer.get? (.str name)).map fun v => (v.numbered.run (start (.str name) layer n)).1 := by
  induction layer generalizing n with
  | nil => rfl
  | cons e rest ih =>
    obtain ⟨k, v⟩ := e
    rw [run_numbered_cons]
    unfold get? Value.lookupKey? at ih ⊢
    rw [List.find?_cons, List.find?_cons, start]
    dsimp only
    rw [Value.alike_numbered]
    cases Value.alike k (.str name) with
    | true => rfl
    | false => exact ih _

/-! ## The numbers of different variables -/

theorem le_start (layer : Layer) (key : Value) (n : Nat) : n ≤ start key layer n := by
  induction layer generalizing n with
  | nil => exact Nat.le_refl n
  | cons e rest ih =>
    have hrest := ih (n + e.1.places + e.2.places)
    rw [start]
    split <;> omega

theorem get?_cons (k v key : Value) (rest : Layer) :
    get? ((k, v) :: rest) key = if Value.alike k key then some v else get? rest key := by
  unfold get? Value.lookupKey?
  rw [List.find?_cons]
  cases Value.alike k key <;> rfl

theorem le_run_numbered (layer : Layer) (n : Nat) : n ≤ (layer.numbered.run n).2 := by
  induction layer generalizing n with
  | nil => exact Nat.le_refl n
  | cons e rest ih =>
    have hrest := ih (n + e.1.places + e.2.places)
    rw [run_numbered_cons]
    dsimp only
    omega

/-- The numbers of a variable are among those that the layer is given. -/
theorem start_add_places_le {layer : Layer} {key v : Value} (h : layer.get? key = some v) (n : Nat) :
    start key layer n + v.places ≤ (layer.numbered.run n).2 := by
  induction layer generalizing n with
  | nil => exact nomatch h
  | cons e rest ih =>
    obtain ⟨k, a⟩ := e
    rw [get?_cons] at h
    rw [start, run_numbered_cons]
    split at h
    · next hkey =>
      cases h
      rw [if_pos hkey]
      exact le_run_numbered rest _
    · next hkey =>
      rw [if_neg hkey]
      exact ih h _

/-- **Different variables** are given different numbers. -/
theorem start_disjoint {layer : Layer} {name other : String} {v w : Value}
    (hv : layer.get? (.str name) = some v) (hw : layer.get? (.str other) = some w) (hne : name ≠ other)
    (n : Nat) :
    start (.str name) layer n + v.places ≤ start (.str other) layer n ∨
      start (.str other) layer n + w.places ≤ start (.str name) layer n := by
  induction layer generalizing n with
  | nil => exact nomatch hv
  | cons e rest ih =>
    obtain ⟨k, a⟩ := e
    rw [get?_cons] at hv hw
    have hlater (key : Value) := le_start rest key (n + k.places + a.places)
    simp only [start]
    split at hv
    · next hname =>
      have hother : Value.alike k (.str other) = false := by
        rw [Value.alike_of_alike_str hname, Value.alike_str]
        exact beq_false_of_ne hne
      rw [hother] at hw ⊢
      cases hv
      rw [if_pos hname, if_neg Bool.false_ne_true]
      exact .inl (hlater _)
    · next hname =>
      rw [if_neg hname]
      split at hw
      · next hother =>
        cases hw
        rw [if_pos hother]
        exact .inr (hlater _)
      · next hother =>
        rw [if_neg hother]
        exact ih hv hw _

end Layer

end Galley
