import Galley.Compile.Expression
import Galley.Proofs.Effects
import Galley.Proofs.FreeNumbers

/-!
# A loop variable as a walk

What a template asks of a running loop could be looked up name by name in the dictionary of the
innermost loop: a dictionary holds the one of the loop around, and the one of the outermost loop holds
an empty one. A loop variable takes a shorter way. Both ways lead to the same value, apart from the
numbers that tell values apart.

* `LoopPart`, `LoopPart.Shows`: what can be reached from the dictionary of a loop.
* `LoopPart.Shows.continues`, `LoopPart.run_follow`: a name leads from one part to another, and so do
  names.
* `shows_loopValue`: the shorter way leads where the names lead.
* `Scope.loops_walked`: **a loop variable is a walk** through the dictionaries.
-/

namespace Galley

open Rendering

variable {loops around : List Loop} {entries : List (Value × Value)} {v w : Value} {name : String}

/-! ## Values without numbers -/

namespace Value

/-- A part of a value without its number. -/
def clearNumber : Value → Value
  | nan _ => nan 0
  | bytes _ data => bytes 0 data
  | list _ items => list 0 items
  | tuple _ items => tuple 0 items
  | dict _ entries => dict 0 entries
  | range _ start stop step => range 0 start stop step
  | stream _ items ending => stream 0 items ending
  | object identity attributes call => object { identity with number := 0 } attributes call
  | scope _ layers => scope 0 layers
  | v => v

/-- **A value without the numbers** that tell it and its parts from others that are equal. -/
def unnumbered (v : Value) : Value := rebuild (m := Id) clearNumber v

end Value

/-! ## The dictionaries of loops -/

/-- The order in which a dictionary holds the counters. -/
def LoopCounter.order : List LoopCounter := [.counter0, .counter, .revcounter, .revcounter0, .first, .last]

/-- The counters of a loop with their values. -/
def Loop.counters (loop : Loop) : List (Value × Value) :=
  LoopCounter.order.map fun c => (.str c.word, loop.read c)

/-- **The entries of the dictionaries of loops,** innermost first, up to the numbers of the dictionaries
in them. -/
inductive Nested : List Loop → List (Value × Value) → Prop
  | nil : Nested [] []
  | cons (loop : Loop) {around : List Loop} (number : Nat) {entries : List (Value × Value)}
    (h : Nested around entries) :
    Nested (loop :: around) ((.str "parentloop", .dict number entries) :: loop.counters)

/-- The dictionaries of loops, as they are made. -/
theorem exists_nestLoops (loops : List Loop) :
    ∃ entries, Scope.nestLoops loops = .dict 0 entries ∧ Nested loops entries := by
  induction loops with
  | nil => exact ⟨[], rfl, .nil⟩
  | cons loop around ih =>
    obtain ⟨entries, heq, h⟩ := ih
    exact ⟨_, by rw [Scope.nestLoops, heq]; rfl, .cons loop 0 h⟩

theorem Loop.read_cases (loop : Loop) (c : LoopCounter) :
    (∃ n, loop.read c = .int n) ∨ ∃ b, loop.read c = .bool b := by
  cases c with
  | counter => exact .inl ⟨_, rfl⟩
  | counter0 => exact .inl ⟨_, rfl⟩
  | revcounter => exact .inl ⟨_, rfl⟩
  | revcounter0 => exact .inl ⟨_, rfl⟩
  | first => exact .inr ⟨_, rfl⟩
  | last => exact .inr ⟨_, rfl⟩

/-- Counters and their names have no parts to be changed. -/
theorem Loop.rebuild_counters {m : Type → Type} [Monad m] [LawfulMonad m] {f : Value → m Value}
    (hint : ∀ n, f (.int n) = pure (.int n)) (hbool : ∀ b, f (.bool b) = pure (.bool b))
    (hstr : ∀ s, f (.str s) = pure (.str s)) (loop : Loop) :
    Value.rebuildEntries f loop.counters = pure loop.counters := by
  have hkey (s : String) : Value.rebuild f (.str s) = pure (.str s) := hstr s
  have hread (c : LoopCounter) : Value.rebuild f (loop.read c) = pure (loop.read c) := by
    rcases loop.read_cases c with ⟨n, hn⟩ | ⟨b, hb⟩
    · rw [hn]
      exact hint n
    · rw [hb]
      exact hbool b
  unfold Loop.counters
  induction LoopCounter.order with
  | nil => rfl
  | cons c rest ih => simp only [List.map_cons, Value.rebuildEntries, hkey, hread, ih, pure_bind]

/-- Numbering changes nothing but numbers. -/
theorem Nested.numbered (h : Nested loops entries) (n : Nat) :
    Nested loops ((Value.rebuildEntries Value.numberPart entries).run n).1 := by
  induction h generalizing n with
  | nil => exact .nil
  | @cons loop around number entries h ih =>
    have hcounters := loop.rebuild_counters (f := Value.numberPart) (fun _ => rfl) (fun _ => rfl)
      (fun _ => rfl)
    -- the dictionary in the first entry has a number or gets one
    have hdict : ∃ number', ((Value.rebuild Value.numberPart (.dict number entries)).run n).1 =
        .dict number' ((Value.rebuildEntries Value.numberPart entries).run n).1 := by
      cases number with
      | zero => exact ⟨_, rfl⟩
      | succ k => exact ⟨k + 1, rfl⟩
    obtain ⟨number', hdict⟩ := hdict
    rw [Value.rebuildEntries, hcounters]
    have hcons := Nested.cons loop number' (ih n)
    rw [← hdict] at hcons
    exact hcons

/-- Without their numbers the entries are those that were made. -/
theorem Nested.unnumbered (h : Nested loops entries) :
    Scope.nestLoops loops = .dict 0 (Value.rebuildEntries (m := Id) Value.clearNumber entries) := by
  induction h with
  | nil => rfl
  | @cons loop around number entries h ih =>
    have hcounters := loop.rebuild_counters (m := Id) (f := Value.clearNumber) (fun _ => rfl)
      (fun _ => rfl) (fun _ => rfl)
    rw [Scope.nestLoops, ih, Value.rebuildEntries, hcounters]
    rfl

/-! ## Looking up names -/

/-- **What can be reached** from the dictionary of a loop: a counter, the dictionaries of loops, and a
view of them. -/
inductive LoopPart where
  | counter (v : Value)
  | dict (loops : List Loop)
  | view (part : DictPart) (loops : List Loop)

namespace LoopPart

/-- Whether a value is such a part, up to numbers. -/
inductive Shows : LoopPart → Value → Prop
  | int (n : Int) : Shows (.counter (.int n)) (.int n)
  | bool (b : Bool) : Shows (.counter (.bool b)) (.bool b)
  | dict (number : Nat) {loops : List Loop} {entries : List (Value × Value)}
    (h : Nested loops entries) : Shows (.dict loops) (.dict number entries)
  | view (part : DictPart) {loops : List Loop} {entries : List (Value × Value)}
    (h : Nested loops entries) : Shows (.view part loops) (.view part entries)

/-- The key of a dictionary of loops. -/
def keyed? : List Loop → String → Option LoopPart
  | [], _ => none
  | loop :: around, name =>
    if name = "parentloop" then some (.dict around)
    else (LoopCounter.order.find? (·.word = name)).map fun c => .counter (loop.read c)

/-- What a dictionary makes of its entries. -/
def made? (loops : List Loop) : String → Option LoopPart
  | "items" => some (.view .items loops)
  | "keys" => some (.view .keys loops)
  | "values" => some (.view .values loops)
  | "copy" => some (.dict loops)
  | _ => none

/-- **What a name leads to**: a key, or what a dictionary or a counter makes. -/
def dot (part : LoopPart) (name : String) : Option LoopPart :=
  match part with
  | .counter (.int n) => if name = "real" then some (.counter (.int n)) else none
  | .counter (.bool b) => if name = "real" then some (.counter (.int (if b then 1 else 0))) else none
  | .dict loops => (keyed? loops name).or (made? loops name)
  | _ => none

/-- What names lead to. -/
def follow (part : LoopPart) (names : List String) : Option LoopPart := names.foldlM dot part

/-- A part that may be missing. -/
inductive ShowsOption : Option LoopPart → Option Value → Prop
  | none : ShowsOption none none
  | some {part : LoopPart} {v : Value} (h : part.Shows v) : ShowsOption (some part) (some v)

variable {part : LoopPart}

/-- Numbering does not change what a value shows. -/
theorem Shows.numbered (h : part.Shows v) (n : Nat) : part.Shows (v.numbered.run n).1 := by
  cases h with
  | int n => exact .int n
  | bool b => exact .bool b
  | dict number h =>
    cases number with
    | zero => exact .dict _ (h.numbered n)
    | succ k => exact .dict (k + 1) h
  | view part h => exact .view part (h.numbered n)

/-- Two values that show one part differ in numbers only. -/
theorem Shows.unnumbered_eq (h : part.Shows v) (h' : part.Shows w) : v.unnumbered = w.unnumbered := by
  cases h with
  | int n => cases h'; rfl
  | bool b => cases h'; rfl
  | dict number h =>
    cases h' with
    | dict number' h' => exact h.unnumbered.symm.trans h'.unnumbered
  | view part h =>
    cases h' with
    | view _ h' =>
      have hentries := (Value.dict.inj (h.unnumbered.symm.trans h'.unnumbered)).2
      exact congrArg (Value.view part) hentries

end LoopPart

/-- What is found and can be had is numbered. -/
theorem Value.run_dot_found {u : Value} {strictness : Strictness} {start offset : Nat} {s : Scope}
    (hmember : v.member name = .found u) (htakes : u.takes? = Option.none)
    (hcalled : u.called = .ok (some w)) :
    ((v.dot strictness name start offset).run.run s).1 =
      .ok (some (w.numbered.run s.nextNumber).1) := by
  unfold Value.dot
  rw [hmember]
  dsimp only
  rw [htakes, hcalled]
  rfl

theorem Value.run_dot_refused {u : Value} {strictness : Strictness} {start offset : Nat} {s : Scope}
    (hmember : v.member name = .found u) (htakes : u.takes? = Option.none)
    (hcalled : u.called = .ok Option.none) :
    ((v.dot strictness name start offset).run.run s).1 = .ok Option.none := by
  unfold Value.dot
  rw [hmember]
  dsimp only
  rw [htakes, hcalled]
  rfl

theorem Value.run_dot_absent {start offset : Nat} {s : Scope} (hmember : v.member name = .absent) :
    ((v.dot .lenient name start offset).run.run s).1 = .ok Option.none := by
  unfold Value.dot
  rw [hmember]
  rfl

theorem Value.member_of_keyed? (h : v.keyed? name = some w) : v.member name = .found w := by
  rw [Value.member, h]

theorem Value.member_of_attribute? (hkeyed : v.keyed? name = Option.none)
    (h : v.attribute? name = some (.ok w)) : v.member name = .found w := by
  rw [Value.member, hkeyed, h]

theorem Value.member_absent (hkeyed : v.keyed? name = Option.none)
    (hattribute : v.attribute? name = Option.none) (hindexed : ∀ n, v.indexed? n = Option.none) :
    v.member name = .absent := by
  rw [Value.member, hkeyed, hattribute]
  dsimp only
  cases Integer.read? name.toList with
  | none => rfl
  | some n => rw [Option.bind_some, hindexed n]

namespace Nested

theorem lookupKey?_counters (loop : Loop) (name : String) :
    Value.lookupKey? loop.counters (.str name) =
      (LoopCounter.order.find? (·.word = name)).map loop.read := by
  have hfun : (fun entry : Value × Value => entry.1.alike (.str name)) ∘
      (fun c : LoopCounter => (Value.str c.word, loop.read c)) = (decide <| ·.word = name) := by
    funext c
    exact (Value.alike_str c.word name).trans (Bool.beq_eq_decide_eq _ _)
  rw [Value.lookupKey?, Loop.counters, List.find?_map, Option.map_map, hfun]
  rfl

theorem shows_counter (loop : Loop) (c : LoopCounter) :
    (LoopPart.counter (loop.read c)).Shows (loop.read c) := by
  rcases loop.read_cases c with ⟨n, hn⟩ | ⟨b, hb⟩
  · rw [hn]
    exact .int n
  · rw [hb]
    exact .bool b

/-- **A key** of a dictionary of loops. -/
theorem lookupKey? (h : Nested loops entries) (name : String) :
    LoopPart.ShowsOption (LoopPart.keyed? loops name) (Value.lookupKey? entries (.str name)) := by
  cases h with
  | nil => exact .none
  | @cons loop around number entries h =>
    have hcons : Value.lookupKey? ((.str "parentloop", .dict number entries) :: loop.counters)
        (.str name) = if name = "parentloop" then some (.dict number entries)
          else (LoopCounter.order.find? (·.word = name)).map loop.read := by
      rw [← lookupKey?_counters, Value.lookupKey?, List.find?_cons, Value.alike_str]
      by_cases hname : name = "parentloop"
      · rw [if_pos hname, hname]
        rfl
      · rw [if_neg hname, beq_eq_false_iff_ne.2 (Ne.symm hname)]
        rfl
    rw [hcons, LoopPart.keyed?]
    by_cases hname : name = "parentloop"
    · rw [if_pos hname, if_pos hname]
      exact .some (.dict number h)
    · rw [if_neg hname, if_neg hname]
      cases LoopCounter.order.find? (·.word = name) with
      | none => exact .none
      | some c => exact .some (shows_counter loop c)

/-- No number is a key. -/
theorem lookupKey?_int (h : Nested loops entries) (n : Int) :
    Value.lookupKey? entries (.int n) = none := by
  have hkey : ∀ entry ∈ entries, entry.1.alike (.int n) = false := by
    cases h with
    | nil => exact fun entry hentry => absurd hentry List.not_mem_nil
    | cons loop number h =>
      refine List.forall_mem_cons.2 ⟨rfl, fun entry hentry => ?_⟩
      obtain ⟨c, -, rfl⟩ := List.mem_map.1 hentry
      rfl
  rw [Value.lookupKey?, List.find?_eq_none.2 fun entry hentry => by simp [hkey entry hentry]]
  rfl

end Nested

namespace LoopPart

variable {part : LoopPart}

/-- No part can be called. -/
theorem Shows.called (h : part.Shows v) : v.takes? = Option.none ∧ v.called = .ok (some v) := by
  cases h <;> exact ⟨rfl, rfl⟩

/-- What a dictionary makes, and its functions that need an argument. -/
theorem made?_cases (h : Nested loops entries) (name : String) :
    (∃ part w, made? loops name = some part ∧ part.Shows w ∧
      Value.dictAttribute? entries name = some (Value.method (.ok w))) ∨
    made? loops name = none ∧ (Value.dictAttribute? entries name = some Value.methodWithArguments ∨
      Value.dictAttribute? entries name = none) := by
  unfold Value.dictAttribute?
  split
  · exact .inl ⟨_, _, rfl, .view .items h, rfl⟩
  · exact .inl ⟨_, _, rfl, .view .keys h, rfl⟩
  · exact .inl ⟨_, _, rfl, .view .values h, rfl⟩
  · exact .inl ⟨_, _, rfl, .dict 0 h, rfl⟩
  · exact .inr ⟨rfl, .inl rfl⟩
  · exact .inr ⟨rfl, .inl rfl⟩
  · next hitems hkeys hvalues hcopy _ _ =>
    refine .inr ⟨?_, .inr rfl⟩
    unfold made?
    split
    · exact absurd rfl hitems
    · exact absurd rfl hkeys
    · exact absurd rfl hvalues
    · exact absurd rfl hcopy
    · rfl

/-- **A part continues** under a name as the value does that shows it. -/
def Continues (part : LoopPart) (v : Value) (name : String) : Prop :=
  ∀ start offset s, ∃ r, ((v.dot .lenient name start offset).run.run s).1 = .ok r ∧
    ShowsOption (part.dot name) r

theorem continues_found {u : Value} {next : LoopPart} (hmember : v.member name = .found u)
    (htakes : u.takes? = Option.none) (hcalled : u.called = .ok (some w)) (hw : next.Shows w)
    (hnext : part.dot name = some next) : part.Continues v name := by
  intro start offset s
  rw [hnext]
  exact ⟨_, Value.run_dot_found hmember htakes hcalled, .some (hw.numbered _)⟩

theorem continues_absent (hmember : v.member name = .absent) (hnext : part.dot name = none) :
    part.Continues v name := by
  intro start offset s
  rw [hnext]
  exact ⟨_, Value.run_dot_absent hmember, .none⟩

/-- In a dictionary a key comes before what the dictionary makes. -/
theorem continues_dict (number : Nat) (h : Nested loops entries) (name : String) :
    (LoopPart.dict loops).Continues (.dict number entries) name := by
  have hdot : (LoopPart.dict loops).dot name = (keyed? loops name).or (made? loops name) := rfl
  have hattribute : (Value.dict number entries).attribute? name =
    (Value.dictAttribute? entries name).map .ok := rfl
  have hkeyed : (Value.dict number entries).keyed? name = Value.lookupKey? entries (.str name) := rfl
  have hkey := h.lookupKey? name
  generalize keyed? loops name = next? at hkey hdot
  rw [← hkeyed] at hkey
  cases hlookup : (Value.dict number entries).keyed? name with
  | some w =>
    rw [hlookup] at hkey
    cases hkey with
    | some hw =>
      obtain ⟨htakes, hcalled⟩ := hw.called
      exact continues_found (Value.member_of_keyed? hlookup) htakes hcalled hw hdot
  | none =>
    rw [hlookup] at hkey
    cases hkey
    rw [Option.none_or] at hdot
    obtain ⟨next, w, hmade, hw, hmethod⟩ | ⟨hmade, hmethod | hmethod⟩ := made?_cases h name
    · rw [hmethod] at hattribute
      exact continues_found (Value.member_of_attribute? hlookup hattribute) rfl rfl hw
        (hdot.trans hmade)
    · rw [hmethod] at hattribute
      intro start offset s
      rw [hdot, hmade]
      exact ⟨_, Value.run_dot_refused (Value.member_of_attribute? hlookup hattribute) rfl rfl, .none⟩
    · rw [hmethod] at hattribute
      exact continues_absent (Value.member_absent hlookup hattribute h.lookupKey?_int)
        (hdot.trans hmade)

/-- **A name leads from part to part.** -/
theorem Shows.continues (h : part.Shows v) (name : String) : part.Continues v name := by
  cases h with
  | int n =>
    by_cases hname : name = "real"
    · exact continues_found (Value.member_of_attribute? rfl (if_pos hname)) rfl rfl (.int n)
        (if_pos hname)
    · exact continues_absent (Value.member_absent rfl (if_neg hname) fun k => ite_self _)
        (if_neg hname)
  | bool b =>
    by_cases hname : name = "real"
    · exact continues_found (Value.member_of_attribute? rfl (if_pos hname)) rfl rfl (.int _)
        (if_pos hname)
    · exact continues_absent (Value.member_absent rfl (if_neg hname) fun k => ite_self _)
        (if_neg hname)
  | view part h => exact continues_absent (Value.member_absent rfl rfl fun k => ite_self _) rfl
  | dict number h => exact continues_dict number h name

/-- **Names lead from part to part.** -/
theorem run_follow (h : part.Shows v) (names : List String) (start offset : Nat) (s : Scope) :
    ∃ r, ((v.follow .lenient start offset names).run.run s).1 = .ok r ∧
      ShowsOption (part.follow names) r := by
  induction names generalizing part v offset s with
  | nil => exact ⟨_, rfl, .some h⟩
  | cons name names ih =>
    obtain ⟨r, hr, hshows⟩ := h.continues name start offset s
    rw [Value.run_follow_cons, follow, List.foldlM_cons]
    cases hrun : (v.dot .lenient name start offset).run.run s with
    | mk outcome s' =>
      rw [hrun] at hr
      dsimp only at hr
      subst hr
      cases hdot : part.dot name with
      | none =>
        rw [hdot] at hshows
        cases hshows
        exact ⟨_, rfl, .none⟩
      | some next =>
        rw [hdot] at hshows
        cases hshows with
        | some hw => exact ih hw _ _

theorem follow_append (part : LoopPart) (names others : List String) :
    part.follow (names ++ others) = (part.follow names).bind (·.follow others) :=
  List.foldlM_append

/-! ## Outwards -/

theorem dot_parentloop (loop : Loop) (around : List Loop) :
    (LoopPart.dict (loop :: around)).dot "parentloop" = some (.dict around) := rfl

theorem dot_counter (loop : Loop) (around : List Loop) (c : LoopCounter) :
    (LoopPart.dict (loop :: around)).dot c.word = some (.counter (loop.read c)) := by
  cases c <;> rfl

theorem dot_counter_nil (c : LoopCounter) : (LoopPart.dict []).dot c.word = none := by
  cases c <;> rfl

theorem follow_singleton (part : LoopPart) (name : String) : part.follow [name] = part.dot name := by
  rw [follow, List.foldlM_cons]
  cases part.dot name <;> rfl

/-- **One level for each loop**: the dictionary of the outermost loop holds an empty one, which holds
nothing. -/
theorem follow_parentloops (loops : List Loop) (k : Nat) :
    (LoopPart.dict loops).follow (List.replicate k "parentloop") =
      if k ≤ loops.length then some (.dict (loops.drop k)) else none := by
  induction k generalizing loops with
  | zero => simp [follow]
  | succ k ih =>
    rw [List.replicate_succ, follow, List.foldlM_cons]
    cases loops with
    | nil => simp [dot, keyed?, made?]
    | cons loop around =>
      rw [dot_parentloop]
      have := ih around
      simpa [follow] using this

end LoopPart

/-- The names of the shorter way: some steps outwards, and a counter or none. -/
def loopNames (parents : Nat) (counter : Option LoopCounter) : List String :=
  List.replicate parents "parentloop" ++ (counter.map LoopCounter.word).toList

theorem Scope.loopAt_natCast (s : Scope) (parents : Nat) :
    s.loopAt parents = .ok s.loops[parents]? := by
  simp only [Scope.loopAt, Int.toNat_natCast]
  exact if_neg (Int.natCast_nonneg parents).not_gt

/-- **The shorter way** leads where these names lead. -/
theorem shows_loopValue (s : Scope) (parents : Nat) (counter : Option LoopCounter) :
    ∃ r, loopValue s parents counter = .ok r ∧
      LoopPart.ShowsOption ((LoopPart.dict s.loops).follow (loopNames parents counter)) r := by
  rw [loopNames, LoopPart.follow_append, LoopPart.follow_parentloops, loopValue, s.loopAt_natCast]
  rcases Nat.lt_trichotomy parents s.loops.length with hlt | heq | hgt
  · -- the loop there is running
    have hdrop : s.loops.drop parents = s.loops[parents] :: s.loops.drop (parents + 1) :=
      List.drop_eq_getElem_cons hlt
    rw [if_pos hlt.le, List.getElem?_eq_getElem hlt]
    cases counter with
    | none =>
      have hwithin : s.loopsWithin parents = parents := by
        simp only [Scope.loopsWithin]
        omega
      obtain ⟨entries, hnest, hentries⟩ := exists_nestLoops (s.loops.drop parents)
      refine ⟨some (s.loopDict parents), rfl, ?_⟩
      rw [Scope.loopDict, hwithin, hnest]
      exact .some (.dict 0 hentries)
    | some c =>
      refine ⟨some (s.loops[parents].read c), rfl, ?_⟩
      change LoopPart.ShowsOption ((LoopPart.dict (s.loops.drop parents)).follow [c.word]) _
      rw [LoopPart.follow_singleton, hdrop, LoopPart.dot_counter]
      exact .some (Nested.shows_counter _ c)
  · -- one level beyond the outermost loop
    have hdrop : s.loops.drop parents = [] := List.drop_eq_nil_of_le heq.ge
    rw [if_pos heq.le, List.getElem?_eq_none heq.ge, hdrop]
    cases counter with
    | none =>
      have hless : ¬s.loops.length < parents := Nat.not_lt.2 heq.le
      refine ⟨some (.dict 0 []), ?_, .some (.dict 0 .nil)⟩
      exact congrArg Except.ok (if_neg hless)
    | some c =>
      refine ⟨none, rfl, ?_⟩
      change LoopPart.ShowsOption ((LoopPart.dict []).follow [c.word]) _
      rw [LoopPart.follow_singleton, LoopPart.dot_counter_nil]
      exact .none
  · -- further out there is nothing
    rw [if_neg (Nat.not_le.2 hgt), List.getElem?_eq_none hgt.le]
    refine ⟨none, ?_, .none⟩
    cases counter with
    | none => exact congrArg Except.ok (if_pos hgt)
    | some c => rfl

/-- **The dictionary of the innermost loop** shows all loops. -/
theorem shows_loopDict (s : Scope) : (LoopPart.dict s.loops).Shows (s.loopDict 0) := by
  have hwithin : s.loopsWithin 0 = 0 := by
    simp only [Scope.loopsWithin]
    omega
  obtain ⟨entries, hnest, hentries⟩ := exists_nestLoops s.loops
  rw [Scope.loopDict, hwithin, List.drop_zero, hnest]
  exact .dict 0 hentries

theorem LoopPart.ShowsOption.unnumbered_eq {part : Option LoopPart} {v w : Option Value}
    (h : ShowsOption part v) (h' : ShowsOption part w) :
    v.map Value.unnumbered = w.map Value.unnumbered := by
  cases h with
  | none => cases h'; rfl
  | some h =>
    cases h' with
    | some h' => exact congrArg Option.some (h.unnumbered_eq h')

/-- The value that names lead to from the dictionary of the innermost loop. -/
def Scope.walkLoops (s : Scope) (start offset : Nat) (names : List String) :
    Except Fault (Option Value) :=
  (((s.loopDict 0).follow .lenient start offset names).run.run s).1

theorem shows_walkLoops (s : Scope) (start offset : Nat) (names : List String) :
    ∃ r, s.walkLoops start offset names = .ok r ∧
      LoopPart.ShowsOption ((LoopPart.dict s.loops).follow names) r :=
  LoopPart.run_follow (shows_loopDict s) names start offset s

/-- What a loop variable comes to shows what its names lead to. -/
theorem shows_resolve_loop (s : Scope) (span : Span) (parents : Nat) (counter : Option LoopCounter)
    (names : List String) :
    ∃ r, (((Atom.loop span parents counter names).resolve .lenient).run.run s).1 = .ok r ∧
      LoopPart.ShowsOption ((LoopPart.dict s.loops).follow (loopNames parents counter ++ names)) r := by
  obtain ⟨r, hvalue, hshows⟩ := shows_loopValue s parents counter
  rw [Atom.run_resolve_loop, hvalue, LoopPart.follow_append]
  cases hfollow : (LoopPart.dict s.loops).follow (loopNames parents counter) with
  | none =>
    rw [hfollow] at hshows
    cases hshows
    exact ⟨none, rfl, .none⟩
  | some part =>
    rw [hfollow] at hshows
    cases hshows with
    | some h => exact LoopPart.run_follow h names _ _ s

/-! ## Two ways -/

/-- A loop variable comes to what its names lead to from the dictionary of the innermost loop, apart
from numbers. -/
theorem exists_resolve_loop (s : Scope) (span : Span) (parents : Nat) (counter : Option LoopCounter)
    (names : List String) (start offset : Nat) :
    ∃ v w, (((Atom.loop span parents counter names).resolve .lenient).run.run s).1 = .ok v ∧
      s.walkLoops start offset (loopNames parents counter ++ names) = .ok w ∧
      v.map Value.unnumbered = w.map Value.unnumbered := by
  obtain ⟨v, hv, hshows⟩ := shows_resolve_loop s span parents counter names
  obtain ⟨w, hw, hshows'⟩ := shows_walkLoops s start offset (loopNames parents counter ++ names)
  exact ⟨v, w, hv, hw, hshows.unnumbered_eq hshows'⟩

/-- Steps outwards lead to the dictionaries of the loops from there on. -/
theorem exists_walkLoops_parentloops (s : Scope) (k start offset : Nat) :
    ∃ w, s.walkLoops start offset (List.replicate k "parentloop") = .ok w ∧
      w.map Value.unnumbered =
        if k ≤ s.loops.length then some (Scope.nestLoops (s.loops.drop k)) else none := by
  obtain ⟨w, hw, hshows⟩ := shows_walkLoops s start offset (List.replicate k "parentloop")
  refine ⟨w, hw, ?_⟩
  rw [LoopPart.follow_parentloops] at hshows
  split
  · next hle =>
    rw [if_pos hle] at hshows
    cases hshows with
    | some h =>
      cases h with
      | dict number h => exact congrArg some h.unnumbered.symm
  · next hbeyond =>
    rw [if_neg hbeyond] at hshows
    cases hshows
    rfl

/-- Nothing is found where the names lead to nothing. -/
theorem resolve_loop_of_follow {s : Scope} {parents : Nat} {counter : Option LoopCounter}
    (h : (LoopPart.dict s.loops).follow (loopNames parents counter) = none) (span : Span)
    (names : List String) :
    (((Atom.loop span parents counter names).resolve .lenient).run.run s).1 = .ok none := by
  obtain ⟨r, hr, hshows⟩ := shows_resolve_loop s span parents counter names
  rw [LoopPart.follow_append, h] at hshows
  cases hshows
  exact hr

/-- The dictionary that the outermost loop holds. -/
theorem Scope.loopValue_beyond (s : Scope) :
    loopValue s s.loops.length none = .ok (some (.dict 0 [])) := by
  rw [loopValue, loopAt_natCast, List.getElem?_eq_none (Nat.le_refl _)]
  exact congrArg Except.ok (if_neg (Nat.lt_irrefl _))

/-- **A loop variable is a walk** through the dictionaries of the running loops: it comes to what its
names lead to, apart from numbers. One step beyond the outermost loop there is an empty dictionary, which
has no counters, and nothing is further out. There is one dictionary for each running loop. -/
theorem Scope.loops_walked (s : Scope) :
    (∀ span parents counter names start offset, ∃ v w,
      (((Atom.loop span parents counter names).resolve .lenient).run.run s).1 = .ok v ∧
      s.walkLoops start offset (loopNames parents counter ++ names) = .ok w ∧
      v.map Value.unnumbered = w.map Value.unnumbered) ∧
    (∀ span, (((Atom.loop span s.loops.length none []).resolve .lenient).run.run s).1 =
      .ok (some (.dict 0 []))) ∧
    (∀ span c names, (((Atom.loop span s.loops.length (some c) names).resolve .lenient).run.run s).1 =
      .ok none) ∧
    (∀ span parents counter names, s.loops.length < parents →
      (((Atom.loop span parents counter names).resolve .lenient).run.run s).1 = .ok none) ∧
    ∀ k start offset, ∃ w, s.walkLoops start offset (List.replicate k "parentloop") = .ok w ∧
      w.map Value.unnumbered =
        if k ≤ s.loops.length then some (Scope.nestLoops (s.loops.drop k)) else none := by
  refine ⟨exists_resolve_loop s, fun span => ?_, fun span c names => ?_,
    fun span parents counter names hbeyond => ?_, exists_walkLoops_parentloops s⟩
  · rw [Atom.run_resolve_loop, s.loopValue_beyond]
    rfl
  · refine resolve_loop_of_follow ?_ span names
    rw [loopNames, LoopPart.follow_append, LoopPart.follow_parentloops, if_pos (Nat.le_refl _),
      List.drop_length]
    change (LoopPart.dict []).follow [c.word] = none
    rw [LoopPart.follow_singleton, LoopPart.dot_counter_nil]
  · refine resolve_loop_of_follow ?_ span names
    rw [loopNames, LoopPart.follow_append, LoopPart.follow_parentloops, if_neg (Nat.not_le.2 hbeyond)]
    rfl

/-! ## Paths -/

namespace Reader

theorem parents_eq (names : List String) :
    List.replicate (parents names).1 "parentloop" ++ (parents names).2 = names := by
  induction names with
  | nil => rfl
  | cons name rest ih =>
    rw [parents]
    split
    · next hname =>
      dsimp only
      rw [List.replicate_succ, List.cons_append, ih, hname]
    · rfl

theorem counter_eq (names : List String) :
    ((counter names).1.map LoopCounter.word).toList ++ (counter names).2 = names := by
  cases names with
  | nil => rfl
  | cons name rest =>
    rw [counter]
    cases hc : LoopCounter.ofWord? name with
    | none => rfl
    | some c =>
      have hword : c.word = name := by simpa using List.find?_some hc
      rw [← hword]
      rfl

/-- **Inside of a loop** a path from `forloop` on is a walk along its names. -/
theorem resolve_path_forloop {r : Reader} {span : Span} {names : List String}
    (hdepth : 0 < r.loopDepth)
    (hpath : (Text.splitOn '.' (span.slice r.source)).map String.ofList = "forloop" :: names)
    (s : Scope) (start offset : Nat) :
    ∃ v w, (((r.path span).resolve .lenient).run.run s).1 = .ok v ∧
      s.walkLoops start offset names = .ok w ∧ v.map Value.unnumbered = w.map Value.unnumbered := by
  have hatom : r.path span = .loop span (parents names).1 (counter (parents names).2).1
      (counter (parents names).2).2 := by
    rw [path, hpath]
    simp only [hdepth, decide_true, Bool.and_self, if_true]
  have hnames : loopNames (parents names).1 (counter (parents names).2).1 ++
      (counter (parents names).2).2 = names := by
    rw [loopNames, List.append_assoc, counter_eq, parents_eq]
  rw [hatom]
  have hwalk := exists_resolve_loop s span (parents names).1 (counter (parents names).2).1
    (counter (parents names).2).2 start offset
  rwa [hnames] at hwalk

end Reader

end Galley
