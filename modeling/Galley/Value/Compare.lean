import Galley.Operator
import Galley.Text.Search
import Galley.Value

/-!
# Comparing values

Numbers of all kinds compare by their exact value, texts by their characters whatever their trust,
containers by their members, and objects by their identity.

* `Value.eq`: equality. Members are equal also if they are the same.
* `Value.same`: whether two values are one and the same.
* `Value.ordered?`: whether two values stand in the order that a comparison sign asks for.
* `Value.holds?`: whether a container holds a value.
-/

namespace Galley.Value

/-- A number of any kind. -/
inductive Number where
  | int (n : Int)
  | float (x : Float)

/-- The number that a value is; truth values count as zero and one. -/
def number? : Value → Option Number
  | bool b => some (.int (if b then 1 else 0))
  | int n => some (.int n)
  | float x => some (.float x)
  | nan _ => some (.float (0.0 / 0.0))
  | _ => .none

/-- The integer that a value is; truth values count as zero and one. -/
def integer? : Value → Option Int
  | bool b => some (if b then 1 else 0)
  | int n => some n
  | _ => .none

/-- The order of two numbers; nothing compares with what is no number. -/
def Number.compare? : Number → Number → Option Ordering
  | int m, int n => some (compare m n)
  | int m, float y => Binary.compareInt? m (Binary.decode y)
  | float x, int n => (Binary.compareInt? n (Binary.decode x)).map Ordering.swap
  | float x, float y =>
    if x < y then some .lt else if x == y then some .eq else if y < x then some .gt else .none

/-- Whether two numbers are equal. -/
def Number.eq (a b : Number) : Bool := a.compare? b == some .eq

/-- Whether two ranges have the same members. -/
def rangeEq (a b : Int × Int × Int) : Bool :=
  let n := rangeLength a.1 a.2.1 a.2.2
  n == rangeLength b.1 b.2.1 b.2.2 && (n == 0 || (a.1 == b.1 && (n == 1 || a.2.2 == b.2.2)))

/-- Whether two values are the same one that is not a number. -/
def sameNan : Value → Value → Bool
  | nan m, nan n => m != 0 && m == n
  | _, _ => false

mutual

/-- **Equality** of values. -/
def eq : Value → Value → Bool
  | .none, .none => true
  | text _ s, text _ t => s == t
  | bytes _ a, bytes _ b => a == b
  | list _ as, list _ bs => eqAll as bs
  | tuple _ as, tuple _ bs => eqAll as bs
  | dict _ as, dict _ bs => as.length == bs.length && subsetEntries as bs
  | view part as, view other bs => as.length == bs.length && subsetViews part other as bs
  | range _ a b c, range _ d e f => rangeEq (a, b, c) (d, e, f)
  | stream a _ _, stream b _ _ => a != 0 && a == b
  | object a _ _, object b _ _ => a.number != 0 && a.number == b.number
  | scope _ as, scope _ bs =>
    shownIn as bs && bs.all fun layer => layer.all fun entry => anyHasKey as entry.1
  | bool a, b => (number? b).any (Number.eq (.int (if a then 1 else 0)))
  | int a, b => (number? b).any (Number.eq (.int a))
  | float a, b => (number? b).any (Number.eq (.float a))
  | _, _ => false
termination_by structural a => a

/-- Whether two lists have equal members in the same order. -/
def eqAll : List Value → List Value → Bool
  | [], [] => true
  | a :: as, b :: bs => (sameNan a b || eq a b) && eqAll as bs
  | _, _ => false
termination_by structural a => a

/-- Whether every entry is also among others. -/
def subsetEntries : List (Value × Value) → List (Value × Value) → Bool
  | [], _ => true
  | (k, v) :: rest, others =>
    others.any (fun other =>
      (sameNan k other.1 || eq k other.1) && (sameNan v other.2 || eq v other.2)) &&
      subsetEntries rest others
termination_by structural a => a

/-- Whether everything that a view shows is also shown by another view; an item is shown as a pair.
Views of values are never told to be equal. -/
def subsetViews (part other : DictPart) :
    List (Value × Value) → List (Value × Value) → Bool
  | [], _ => part != .values && other != .values
  | (k, v) :: rest, others =>
    (others.any fun (l, w) =>
      match part, other with
      | .keys, .keys => sameNan k l || eq k l
      | .items, .items => (sameNan k l || eq k l) && (sameNan v w || eq v w)
      | .keys, .items =>
        match k with
        | tuple _ [a, b] => (sameNan a l || eq a l) && (sameNan b w || eq b w)
        | _ => false
      | .items, .keys =>
        match l with
        | tuple _ [a, b] => (sameNan k a || eq k a) && (sameNan v b || eq v b)
        | _ => false
      | _, _ => false) && subsetViews part other rest others
termination_by structural a => a

/-- Whether the visible entries of the first layers are visible entries of the others too. -/
def shownIn : List (List (Value × Value)) → List (List (Value × Value)) → Bool
  | [], _ => true
  | layer :: higher, others => layerShownIn layer higher others && shownIn higher others
termination_by structural a => a

/-- Whether the entries of a layer are visible entries of other layers, unless a higher layer hides
them. -/
def layerShownIn : List (Value × Value) → List (List (Value × Value)) →
    List (List (Value × Value)) → Bool
  | [], _, _ => true
  | (k, v) :: rest, higher, others =>
    (higher.any (fun layer => layer.any fun other => sameNan k other.1 || eq k other.1) ||
      match others.reverse.findSome? fun layer =>
        layer.find? fun other => sameNan k other.1 || eq k other.1 with
      | some (_, visible) => sameNan v visible || eq v visible
      | .none => false) && layerShownIn rest higher others
termination_by structural a => a

/-- Whether some layer has a key. -/
def anyHasKey : List (List (Value × Value)) → Value → Bool
  | [], _ => false
  | layer :: rest, key => hasKey layer key || anyHasKey rest key
termination_by structural a => a

/-- Whether a layer has a key. -/
def hasKey : List (Value × Value) → Value → Bool
  | [], _ => false
  | (k, _) :: rest, key => sameNan k key || eq k key || hasKey rest key
termination_by structural a => a

end

/-- Whether two values are equal as members of containers. -/
def alike (a b : Value) : Bool := sameNan a b || eq a b

/-- The number of a value, if it is one that has a number. -/
def number : Value → Nat
  | nan n | bytes n _ | list n _ | tuple n _ | dict n _ | range n .. | stream n .. | scope n _ => n
  | object identity .. => identity.number
  | _ => 0

/-- Whether two values have one number other than zero. -/
def sameNumber (a b : Value) : Bool := a.number != 0 && a.number == b.number

/-- **Whether two values are one and the same.** Numbers and texts are if they are equal; of what is
built only the empty and the shortest are without regard to their number. -/
def same (a b : Value) : Bool :=
  match a, b with
  | .none, .none => true
  | bool a, bool b => a == b
  | int a, int b => a == b
  | float a, float b => a == b
  | text i s, text j t => i == j && s == t
  | tuple _ [], tuple _ [] => true
  | bytes m s, bytes n t => s == t && (s.length ≤ 1 || (m != 0 && m == n))
  | a, b => sameNumber a b

/-- Whether an order is one that a comparison sign accepts. -/
def accepts (operator : Operator) (order : Ordering) : Bool :=
  match operator with
  | .less => order == .lt
  | .lessEqual => order != .gt
  | .greater => order == .gt
  | .greaterEqual => order != .lt
  | _ => false

/-- The order of two texts by their characters. -/
def textOrder (s t : String) : Ordering := if s < t then .lt else if s = t then .eq else .gt

/-- Whether entries of a view stand in the relation of part to whole that a sign asks for. -/
def viewOrdered (operator : Operator) (part other : DictPart) (as bs : List (Value × Value)) :
    Bool :=
  match operator with
  | .less => as.length < bs.length && subsetViews part other as bs
  | .lessEqual => as.length ≤ bs.length && subsetViews part other as bs
  | .greater => bs.length < as.length && subsetViews other part bs as
  | .greaterEqual => bs.length ≤ as.length && subsetViews other part bs as
  | _ => false

mutual

/-- **Whether two values stand in the order that a comparison sign asks for.** Values without an
order give no answer. Lists are ordered by their first difference. -/
def ordered? (operator : Operator) : Value → Value → Option Bool
  | text _ s, text _ t => some (accepts operator (textOrder s t))
  | bytes _ a, bytes _ b => some (accepts operator (compare (a.map (·.toNat)) (b.map (·.toNat))))
  | list _ as, list _ bs => orderedAll? operator as bs
  | tuple _ as, tuple _ bs => orderedAll? operator as bs
  | view part as, view other bs =>
    if part = .values || other = .values then .none
    else some (viewOrdered operator part other as bs)
  | a, b =>
    match number? a, number? b with
    | some m, some n => some ((m.compare? n).any (accepts operator))
    | _, _ => .none

/-- The same for the members of two lists. -/
def orderedAll? (operator : Operator) : List Value → List Value → Option Bool
  | a :: as, b :: bs => if alike a b then orderedAll? operator as bs else ordered? operator a b
  | as, bs => some (accepts operator (compare as.length bs.length))

end

mutual

/-- The type of a value, or of a member, that cannot be a key. -/
def unhashable? : Value → Option String
  | v@(list ..) | v@(dict ..) | v@(view .keys _) | v@(view .items _) | v@(scope ..) =>
    some v.typeName
  | tuple _ items => anyUnhashable? items
  | _ => .none

/-- The type of the first member that cannot be a key. -/
def anyUnhashable? : List Value → Option String
  | [] => .none
  | v :: rest => (unhashable? v).orElse fun _ => anyUnhashable? rest

end

/-- The error of using a value as a key that cannot be one. -/
def checkKey (key : Value) : Except HostError Unit :=
  match unhashable? key with
  | some name => .error (.typeError ("unhashable type: '" ++ name ++ "'"))
  | .none => .ok ()

/-- The value of a key. -/
def lookupKey? (entries : List (Value × Value)) (key : Value) : Option Value :=
  (entries.find? fun entry => alike entry.1 key).map (·.2)

/-- Whether an integer is a member of a range. -/
def rangeHolds (start stop step n : Int) : Bool :=
  if 0 < step then start ≤ n && n < stop && (n - start) % step == 0
  else n ≤ start && stop < n && (start - n) % -step == 0

/-- **Whether a container holds a value.** What is no container, or cannot tell, gives no answer. -/
def holds? (container v : Value) : Option Bool :=
  let asKey (found : Bool) := if (unhashable? v).isSome then .none else some found
  match container with
  | text _ s =>
    match v with
    | text _ t => some (Text.find? t.toList s.toList).isSome
    | _ => .none
  | bytes _ data =>
    match v, integer? v with
    | bytes _ part, _ =>
      some ((List.range (data.length + 1)).any fun i => part.isPrefixOf (data.drop i))
    | _, some n => if 0 ≤ n && n < 256 then some (data.any fun b => b.toNat == n.toNat) else .none
    | _, _ => .none
  | list _ items | tuple _ items => some (items.any fun item => alike item v)
  | dict _ entries | view .keys entries => asKey (entries.any fun entry => alike entry.1 v)
  | view .values entries => some (entries.any fun entry => alike entry.2 v)
  | view .items entries =>
    match v with
    | tuple _ [k, w] =>
      if (unhashable? k).isSome then .none
      else some (entries.any fun entry => alike entry.1 k && alike entry.2 w)
    | _ => some false
  | range _ start stop step =>
    match number? v with
    | some (.int n) => some (rangeHolds start stop step n)
    | some (.float x) =>
      let b := Binary.decode x
      some (b.isInteger && b.truncate?.any (rangeHolds start stop step))
    | .none => some false
  | stream _ items ending =>
    if items.any fun item => alike item v then some true
    else if ending.isSome then .none else some false
  | scope _ layers => asKey (layers.any fun layer => layer.any fun entry => alike entry.1 v)
  | _ => .none

end Galley.Value
