import Galley.Condition.Evaluate
import Galley.Filter
import Galley.Proofs.Members
import Galley.Route
import Mathlib

/-!
# What templates make of values with other numbers

Filters, operators and routes make of renumbered values what they make of the values themselves,
with other numbers, and go wrong in the same way.

* `Value.toInteger_renumber`, `Value.add_renumber`: arithmetic.
* `BuiltinFilter.apply_renumber`: the filters that are always there.
* `Operator.decided?_renumber`, `Operator.result?_renumber`: operators.
* `RouteTable.reverse_renumber`: routes.
-/

namespace Galley

variable (ρ : Renumbering)

namespace Value

/-! ## Arithmetic -/

theorem toInteger_renumber (v : Value) : (v.renumber ρ).toInteger = v.toInteger := by
  cases v with
  | view part _ => cases part <;> rfl
  | _ => rfl

theorem arithmetic_map (onInts : Int → Int → Int) (onFloats : Float → Float → Float)
    (a b : Number) :
    (arithmetic onInts onFloats a b).map (renumber ρ) = arithmetic onInts onFloats a b := by
  cases a with
  | int m =>
    cases b with
    | int n => rfl
    | float y => simp only [arithmetic]; cases Number.toFloat (.int m) <;> rfl
  | float x => simp only [arithmetic]; cases Number.toFloat b <;> rfl

/-- **The sum** of renumbered values. -/
theorem add_renumber (a b : Value) :
    (a.renumber ρ).add (b.renumber ρ) = (a.add b).map (renumber ρ) := by
  unfold add
  rw [number?_renumber, number?_renumber]
  split
  · rw [arithmetic_map]
  · have ha := typeName_renumber ρ a
    have hb := typeName_renumber ρ b
    simp only [cannotJoin, unsupported, ha, hb]
    cases a <;> cases b <;> first | rfl | simp [renumber, Except.map]

theorem sumOrMissing_renumber (a b : Value) :
    (a.renumber ρ).sumOrMissing (b.renumber ρ) =
      (a.sumOrMissing b).map (Option.map (renumber ρ)) := by
  unfold sumOrMissing
  rw [toInteger_renumber, toInteger_renumber, add_renumber]
  dsimp only
  split
  · rfl
  · split
    · rfl
    · cases a.add b <;> rfl

/-! ## Filters -/

theorem substitute_renumber (before : String) (v : Value) (behind : String) :
    (v.renumber ρ).substitute before behind = v.substitute before behind := by
  have hshown := congrArg (fun shown : Except HostError String =>
    (do return before ++ (← shown) ++ behind : Except HostError String)) (toText_renumber ρ v)
  cases v with
  | tuple number items =>
    match items with
    | [] | _ :: _ :: _ => rfl
    | [item] => simp only [renumber, renumberAll, substitute, toText_renumber]
  | _ => exact hshown

theorem toWidth_renumber (v : Value) (a : Atom) : (v.renumber ρ).toWidth a = v.toWidth a := by
  have htext := text?_renumber ρ v
  have hshown := toText_renumber ρ v
  have hput := substitute_renumber ρ "'" v "'"
  cases v with
  | none | bool _ | int _ | float _ | nan _ | text _ _ => rfl
  | _ =>
    simp only [renumber, toWidth] at htext hshown hput ⊢
    simp only [htext, hshown, hput]

end Value

theorem textOrEmpty_map (v : Option Value) : textOrEmpty (v.map (Value.renumber ρ)) = textOrEmpty v := by
  cases v with
  | none => rfl
  | some v => exact Value.toText_renumber ρ v

theorem isSafeText_map (v : Option Value) : isSafeText (v.map (Value.renumber ρ)) = isSafeText v := by
  cases v with
  | none => rfl
  | some v => exact Value.isSafe_renumber ρ v

theorem keepSafe_map (v : Option Value) (text : String) :
    keepSafe (v.map (Value.renumber ρ)) text = (keepSafe v text).renumber ρ := by
  unfold keepSafe
  rw [isSafeText_map]
  split <;> rfl

theorem onText_map (v : Option Value) (f : List Char → List Char) :
    onText (v.map (Value.renumber ρ)) f = (onText v f).map (Option.map (Value.renumber ρ)) := by
  unfold onText
  rw [textOrEmpty_map]
  cases textOrEmpty v with
  | error e => rfl
  | ok text => simp [ofHost, keepSafe_map, Except.map, bind, Except.bind, pure, Except.pure]

theorem ofHost_map {α β : Type} (f : α → β) (outcome : Except HostError α) :
    ofHost (outcome.map f) = (ofHost outcome).map f := by
  cases outcome <;> rfl

theorem chooseText_map (v : Option Value) (choices : Value) :
    chooseText (v.map (Value.renumber ρ)) (choices.renumber ρ) =
      (chooseText v choices).map (Option.map (Value.renumber ρ)) := by
  unfold chooseText
  rw [Value.toText_renumber]
  cases choices.toText with
  | error e => rfl
  | ok text =>
    simp only [bind, Except.bind]
    cases choicesOf? text.toList with
    | none => rfl
    | some parts =>
      obtain ⟨yes, no, maybe⟩ := parts
      cases v with
      | none => rfl
      | some v =>
        have htruth := Value.truth_renumber ρ v
        cases v with
        | none => rfl
        | _ =>
          dsimp only [Option.map_some, Value.renumber] at htruth ⊢
          rw [htruth]
          cases Value.truth _ with
          | error e => rfl
          | ok holds => cases holds <;> rfl

/-- The argument of a filter with other numbers. -/
def Argument.renumber (a : Argument) : Argument := { a with value := a.value.renumber ρ }

theorem BuiltinFilter.usesArgument_map (f : BuiltinFilter) (v : Option Value) :
    f.usesArgument (v.map (Value.renumber ρ)) = f.usesArgument v := by
  cases f <;> cases v <;> rfl

/-- **A filter that is always there**, applied to a renumbered value. -/
theorem BuiltinFilter.apply_renumber (f : BuiltinFilter) (argument : Option Argument)
    (v : Option Value) :
    f.apply (argument.map (Argument.renumber ρ)) (v.map (Value.renumber ρ)) =
      (f.apply argument v).map (Option.map (Value.renumber ρ)) := by
  have hgiven : (argument.map (Argument.renumber ρ)).getD ⟨.text ⟨0, 0⟩ "", .str ""⟩ =
      (argument.getD ⟨.text ⟨0, 0⟩ "", .str ""⟩).renumber ρ := by
    cases argument <;> rfl
  unfold apply
  rw [hgiven]
  generalize argument.getD ⟨.text ⟨0, 0⟩ "", .str ""⟩ = given
  cases f with
  | add =>
    cases v with
    | none => rfl
    | some v =>
      simp only [Option.map_some, Argument.renumber, Value.sumOrMissing_renumber]
      cases v.sumOrMissing given.value <;> rfl
  | addslashes | capfirst | lower | upper => exact onText_map ρ v _
  | center =>
    simp only [Argument.renumber, Value.toWidth_renumber, textOrEmpty_map, keepSafe_map]
    cases given.value.toWidth given.atom with
    | error e => rfl
    | ok width =>
      cases textOrEmpty v with
      | error e => rfl
      | ok text =>
        simp only [ofHost, bind, Except.bind]
        split <;> rfl
  | default => cases v <;> rfl
  | escape =>
    simp only [isSafeText_map, textOrEmpty_map]
    split
    · rfl
    · cases textOrEmpty v <;> rfl
  | safe =>
    simp only [textOrEmpty_map]
    cases textOrEmpty v <;> rfl
  | slugify =>
    have hslug := onText_map ρ v Text.slug
    cases v with
    | none => exact hslug
    | some v =>
      cases v with
      | int n =>
        simp only [Option.map_some, Value.renumber]
        cases (Value.int n).toText <;> rfl
      | float _ | nan _ => rfl
      | _ => exact hslug
  | wordwrap =>
    simp only [Argument.renumber, Value.toWidth_renumber, onText_map]
    cases given.value.toWidth given.atom with
    | error e => rfl
    | ok width =>
      simp only [bind, Except.bind]
      split <;> rfl
  | yesno =>
    cases argument with
    | none =>
      exact (congrArg ofHost (chooseText_map ρ v (.str (translate "yes,no,maybe")))).trans
        (ofHost_map _ _)
    | some a => exact (congrArg ofHost (chooseText_map ρ v a.value)).trans (ofHost_map _ _)

/-! ## Operators -/

theorem Value.negated_renumber (v : Value) : (v.renumber ρ).negated = v.negated.renumber ρ := by
  unfold negated
  rw [truth_renumber]
  cases v.truth <;> rfl

/-- **The answer that the first value decides.** -/
theorem Operator.decided?_renumber (operator : Operator) (a : Value) :
    operator.decided? (a.renumber ρ) = (operator.decided? a).map (Value.renumber ρ) := by
  unfold decided?
  rw [Value.truth_renumber]
  cases operator <;> cases a.truth <;> try rfl
  all_goals
    dsimp only
    split <;> rfl

/-- **An operator applied to two renumbered values.** -/
theorem Operator.result?_renumber (operator : Operator) (a b : Value) :
    operator.result? (a.renumber ρ) (b.renumber ρ) =
      (operator.result? a b).map (Value.renumber ρ) := by
  unfold result?
  cases operator <;> simp [Value.renumber, Function.comp_def]

/-! ## Routes -/

theorem Route.assign?_map (r : Route) (positional : List Value) (keyword : List (String × Value)) :
    r.assign? (positional.map (Value.renumber ρ)) (keyword.map (Prod.map id (Value.renumber ρ))) =
      (r.assign? positional keyword).map (List.map (Prod.map id (Value.renumber ρ))) := by
  have hnames : (keyword.map (Prod.map id (Value.renumber ρ))).map (·.1) = keyword.map (·.1) := by
    simp
  unfold assign?
  rw [hnames, List.isEmpty_map, List.length_map]
  dsimp only
  split
  · split <;> rfl
  · split
    · rw [Option.map_some, List.zip_map_right]
    · rfl

namespace RouteTable

theorem mismatch_renumber (start : String) (name : Value) (routes : List Route)
    (positional : List Value) (keyword : List (String × Value)) :
    mismatch start (name.renumber ρ) routes (positional.map (Value.renumber ρ))
      (keyword.map (Prod.map id (Value.renumber ρ))) =
      mismatch start name routes positional keyword := by
  have hpositional : (Value.tuple 0 (positional.map (Value.renumber ρ))).repr =
      (Value.tuple 0 positional).repr := by
    simpa [Value.renumber] using Value.repr_renumber ρ (.tuple 0 positional)
  have hkeyword : (Value.dict 0 ((keyword.map (Prod.map id (Value.renumber ρ))).map fun e =>
      (Value.str e.1, e.2))).repr = (Value.dict 0 (keyword.map fun e => (Value.str e.1, e.2))).repr := by
    have h := Value.repr_renumber ρ (.dict 0 (keyword.map fun e => (Value.str e.1, e.2)))
    simpa [Value.renumber, Function.comp_def, Value.str] using h
  simp only [mismatch, Value.toText_renumber, List.isEmpty_map, hpositional, hkeyword]

theorem reverseAmong_renumber (start : String) (routes : List Route) (name : Value)
    (positional : List Value) (keyword : List (String × Value)) :
    reverseAmong start routes (name.renumber ρ) (positional.map (Value.renumber ρ))
      (keyword.map (Prod.map id (Value.renumber ρ))) =
      reverseAmong start routes name positional keyword := by
  have hreserved {reserved : String × Value → Bool}
      (h : ∀ e, reserved (Prod.map id (Value.renumber ρ) e) = reserved e) :
      (keyword.map (Prod.map id (Value.renumber ρ))).find? reserved =
        (keyword.find? reserved).map (Prod.map id (Value.renumber ρ)) := by
    rw [List.find?_map, show reserved ∘ _ = reserved from funext h]
  have hnamed : (routes.reverse.filter fun r => Value.eq (.str r.name) (name.renumber ρ)) =
      routes.reverse.filter fun r => Value.eq (.str r.name) name :=
    List.filter_congr fun r _ => Value.eq_renumber ρ (.str r.name) name
  have htexts (values : List (String × Value))
      {text : String × Value → Except HostError (String × String)}
      (h : ∀ e, text (Prod.map id (Value.renumber ρ) e) = text e) :
      (values.map (Prod.map id (Value.renumber ρ))).mapM text = values.mapM text := by
    rw [List.mapM_map, show text ∘ _ = text from funext h]
  unfold reverseAmong
  rw [hreserved fun _ => rfl]
  cases List.find? _ keyword with
  | some reserved => rfl
  | none =>
    simp only [Option.map_none, Value.checkKey_renumber, hnamed, Route.assign?_map,
      mismatch_renumber]
    congr 1
    funext _
    congr 1
    · refine congrArg (List.filterMapM · _) (funext fun r => ?_)
      cases r.assign? positional keyword with
      | none => rfl
      | some values =>
        rw [Option.map_some]
        dsimp only
        rw [htexts values fun e => congrArg (· >>= fun text => pure (e.1, text))
          (Value.toText_renumber ρ e.2)]

/-- **The path of a route** for renumbered values. -/
theorem reverse_renumber (t : RouteTable) (name : Value) (positional : List Value)
    (keyword : List (String × Value)) (current : Option Value) :
    t.reverse (name.renumber ρ) (positional.map (Value.renumber ρ))
      (keyword.map (Prod.map id (Value.renumber ρ))) current =
      t.reverse name positional keyword current := by
  have hamong := reverseAmong_renumber ρ "" t.routes name positional keyword
  cases name with
  | text kind s =>
    have hgroup (group : RouteGroup) (next : String) := reverseAmong_renumber ρ group.start
      group.routes (.str next) positional keyword
    simp only [Value.renumber, reverse] at hamong ⊢
    simp only [Value.renumber, Value.str] at hgroup
    simp only [hamong, Value.str, hgroup]
  | _ => exact hamong

end RouteTable

/-- Registering a renumbered value. -/
theorem register_map {α β : Type} (f : α → β) (name : String) (item : α)
    (items : List (String × α)) :
    Library.register name (f item) (items.map (Prod.map id f)) =
      (Library.register name item items).map (Prod.map id f) := by
  unfold Library.register
  rw [Value.lookup_map_snd, Option.isSome_map]
  split
  · rw [List.map_map, List.map_map]
    refine List.map_congr_left fun entry _ => ?_
    simp only [Function.comp, Prod.map, id]
    split <;> rfl
  · rw [List.map_append]
    rfl

theorem foldl_register_map {α β : Type} (f : α → β) (entries done : List (String × α)) :
    (entries.map (Prod.map id f)).foldl (fun done e => Library.register e.1 e.2 done)
      (done.map (Prod.map id f)) =
      (entries.foldl (fun done e => Library.register e.1 e.2 done) done).map (Prod.map id f) := by
  induction entries generalizing done with
  | nil => rfl
  | cons entry rest ih =>
    rw [List.map_cons, List.foldl_cons, List.foldl_cons, ← ih]
    exact congrArg (List.foldl _ · _) (register_map f entry.1 entry.2 done)

end Galley
