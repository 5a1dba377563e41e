import Galley.Proofs.Unaided
import Galley.Template
import Mathlib

/-!
# What the text of a template depends on

The text of a template depends on the variables that it mentions, and on no others: with variables
that agree on these names it is rendered to the same text, or goes wrong in both. The values of other
variables are given numbers too, and so each of two scopes is compared with a third one, in which
only the variables that are mentioned are set.

* `place`, `Renumbering.ofBlocks`: a change of numbers that moves them in blocks.
* `Layer.Agree`, `Layer.restrict`: the variables that are mentioned.
* `Layer.blocks`, `Layer.place_start`: the numbers that they are given beside others.
* `Scope.exists_mirrors_create`: a new scope mirrors that of what is mentioned.
* `Template.render_congr`: **the text of a template** for variables that agree on what it mentions.
-/

namespace Galley

/-! ## Numbers in blocks -/

/-- The place of a number from `n` on, if the numbers are put into blocks one after the other, each
with its first number and its size, and those that are left behind `last`. -/
def place (last : Nat) : List (Nat × Nat) → Nat → Nat → Nat
  | [], n, k => last + (k - n)
  | (first, size) :: rest, n, k =>
    if k < n + size then first + (k - n) else place last rest (n + size) k

/-- Two blocks that have no number in common. -/
def Apart (b c : Nat × Nat) : Prop := b.1 + b.2 ≤ c.1 ∨ c.1 + c.2 ≤ b.1

section Place

variable {last : Nat} {blocks : List (Nat × Nat)}

theorem place_cases (last : Nat) (blocks : List (Nat × Nat)) {n k : Nat} (hk : n ≤ k) :
    (∃ b ∈ blocks, b.1 ≤ place last blocks n k ∧ place last blocks n k < b.1 + b.2) ∨
      last ≤ place last blocks n k := by
  induction blocks generalizing n with
  | nil => exact .inr (Nat.le_add_right last _)
  | cons b rest ih =>
    obtain ⟨first, size⟩ := b
    rw [place]
    split
    · next h => exact .inl ⟨_, List.mem_cons_self, Nat.le_add_right first _, by dsimp only; omega⟩
    · next h =>
      rcases ih (Nat.not_lt.1 h) with ⟨b, hb, hplace⟩ | hplace
      · exact .inl ⟨b, List.mem_cons_of_mem _ hb, hplace⟩
      · exact .inr hplace

/-- Numbers in blocks that have none in common stay different. -/
theorem place_injective (hapart : blocks.Pairwise Apart) (hlast : ∀ b ∈ blocks, b.1 + b.2 ≤ last)
    {n k l : Nat} (hk : n ≤ k) (hl : n ≤ l) (h : place last blocks n k = place last blocks n l) :
    k = l := by
  induction blocks generalizing n with
  | nil =>
    simp only [place] at h
    omega
  | cons b rest ih =>
    obtain ⟨first, size⟩ := b
    obtain ⟨hfirst, hrest⟩ := List.pairwise_cons.1 hapart
    obtain ⟨hblock, hlast⟩ := List.forall_mem_cons.1 hlast
    -- a number of the first block is in no other
    have hout {m : Nat} (hm : n + size ≤ m) : ¬ (first ≤ place last rest (n + size) m ∧
        place last rest (n + size) m < first + size) := by
      rcases place_cases last rest hm with ⟨c, hc, hplace⟩ | hplace
      · rcases hfirst c hc with h | h <;> dsimp only at h <;> omega
      · dsimp only at hblock; omega
    rw [place, place] at h
    split at h <;> split at h
    · omega
    · next hin hnot => exact absurd ⟨by omega, by omega⟩ (hout (Nat.not_lt.1 hnot))
    · next hnot hin => exact absurd ⟨by omega, by omega⟩ (hout (Nat.not_lt.1 hnot))
    · next hk' hl' => exact ih hrest hlast (Nat.not_lt.1 hk') (Nat.not_lt.1 hl') h

end Place

/-- **A change of numbers** that leaves those below `n` alone and moves the others in blocks. -/
def Renumbering.ofBlocks (n last : Nat) (blocks : List (Nat × Nat)) (hn : 0 < n) (hle : n ≤ last)
    (hapart : blocks.Pairwise Apart) (hblocks : ∀ b ∈ blocks, n ≤ b.1 ∧ b.1 + b.2 ≤ last) :
    Renumbering where
  toFun k := if k < n then k else place last blocks n k
  zero := if_pos hn
  injective := by
    have habove {k : Nat} (hk : n ≤ k) : n ≤ place last blocks n k := by
      rcases place_cases last blocks hk with ⟨b, hb, hplace⟩ | hplace
      · exact Nat.le_trans (hblocks b hb).1 hplace.1
      · exact Nat.le_trans hle hplace
    intro k l h
    dsimp only at h
    split at h <;> split at h
    · exact h
    · next hk hl => exact absurd (habove (Nat.not_lt.1 hl)) (by omega)
    · next hk hl => exact absurd (habove (Nat.not_lt.1 hk)) (by omega)
    · next hk hl =>
      exact place_injective hapart (fun b hb => (hblocks b hb).2) (Nat.not_lt.1 hk)
        (Nat.not_lt.1 hl) h

/-! ## The variables that are mentioned -/

variable {names : List String}

namespace Layer

/-- Layers **agree** on some names if each stands for the same in both, or is set in neither. -/
def Agree (names : List String) (layer other : Layer) : Prop :=
  ∀ name ∈ names, layer.get? (.str name) = other.get? (.str name)

theorem Agree.refl (layer : Layer) : layer.Agree names layer := fun _ _ => rfl

theorem Agree.symm {layer other : Layer} (h : layer.Agree names other) : other.Agree names layer :=
  fun name hname => (h name hname).symm

/-- The variables of some names alone. -/
def restrict (layer : Layer) (names : List String) : Layer :=
  names.filterMap fun name => (layer.get? (.str name)).map (Prod.mk (.str name))

/-- The variables of some names stand for what they stand for, and others are not set. -/
theorem get?_restrict (layer : Layer) (names : List String) (name : String) :
    (layer.restrict names).get? (.str name) =
      if name ∈ names then layer.get? (.str name) else none := by
  induction names with
  | nil => rfl
  | cons first rest ih =>
    have hfirst : layer.restrict (first :: rest) =
        ((layer.get? (.str first)).map (Prod.mk (.str first))).toList ++ layer.restrict rest := by
      unfold restrict
      rw [List.filterMap_cons]
      cases layer.get? (.str first) <;> rfl
    rw [hfirst]
    by_cases hname : first = name
    · subst hname
      rw [if_pos List.mem_cons_self]
      cases hv : layer.get? (.str first) with
      | none =>
        -- a name that is not set is not set in the rest either
        rw [hv, ite_self] at ih
        exact ih
      | some v =>
        rw [Option.map_some, Option.toList_some, List.singleton_append, get?_cons, Value.alike_str,
          if_pos (beq_self_eq_true first)]
    · have hmem : name ∈ first :: rest ↔ name ∈ rest := by
        rw [List.mem_cons, or_iff_right (Ne.symm hname)]
      simp only [hmem, ← ih]
      cases layer.get? (.str first) with
      | none => rfl
      | some v =>
        rw [Option.map_some, Option.toList_some, List.singleton_append, get?_cons, Value.alike_str,
          if_neg (mt eq_of_beq hname)]

theorem exists_of_mem_restrict {layer : Layer} {e : Value × Value} (h : e ∈ layer.restrict names) :
    ∃ name ∈ names, e.1 = .str name ∧ layer.get? (.str name) = some e.2 := by
  obtain ⟨name, hname, he⟩ := List.mem_filterMap.1 h
  obtain ⟨v, hv, rfl⟩ := Option.map_eq_some_iff.1 he
  exact ⟨name, hname, rfl, hv⟩

theorem places_str (name : String) : (Value.str name).places = 0 := rfl

/-- The blocks in which the values of some variables are numbered in a layer. -/
def blocks (layer mentioned : Layer) (n : Nat) : List (Nat × Nat) :=
  mentioned.map fun e => (start e.1 layer n, e.2.places)

theorem apart_blocks {layer other : Layer} (hnames : names.Nodup) (h : layer.Agree names other)
    (n : Nat) :
    (blocks other (layer.restrict names) n).Pairwise Apart := by
  rw [blocks, List.pairwise_map, restrict, List.pairwise_filterMap]
  refine hnames.imp_of_mem fun {a b} ha hb hne e he e' he' => ?_
  obtain ⟨v, hv, rfl⟩ := Option.map_eq_some_iff.1 he
  obtain ⟨w, hw, rfl⟩ := Option.map_eq_some_iff.1 he'
  rw [h a ha] at hv
  rw [h b hb] at hw
  exact start_disjoint hv hw hne n

section Blocks

variable {layer mentioned : Layer} (hkeys : ∀ e ∈ mentioned, ∃ name, e.1 = .str name)

include hkeys

/-- The numbers of a variable that is mentioned are put where they are in the other layer. -/
theorem place_start {name : String} {v : Value} (h : mentioned.get? (.str name) = some v)
    {i : Nat} (hi : i < v.places) (last m n : Nat) :
    place last (blocks layer mentioned m) n (start (.str name) mentioned n + i) =
      start (.str name) layer m + i := by
  induction mentioned generalizing n with
  | nil => exact nomatch h
  | cons e rest ih =>
    obtain ⟨⟨other, hother⟩, hrest⟩ := List.forall_mem_cons.1 hkeys
    obtain ⟨k, w⟩ := e
    obtain rfl : k = .str other := hother
    rw [get?_cons, Value.alike_str] at h
    simp only [blocks, List.map_cons, place, start, Value.alike_str, places_str, Nat.add_zero] at ih ⊢
    split at h
    · next hname =>
      cases h
      obtain rfl : other = name := eq_of_beq hname
      rw [if_pos hname, if_pos (Nat.add_lt_add_left hi n), Nat.add_sub_cancel_left]
    · next hname =>
      have hle := le_start rest (.str name) (n + w.places)
      rw [if_neg hname, if_neg (by omega)]
      exact ih hrest h _

/-- The numbers behind those that are given are put behind all others. -/
theorem place_end (last m n i : Nat) :
    place last (blocks layer mentioned m) n ((mentioned.numbered.run n).2 + i) = last + i := by
  induction mentioned generalizing n with
  | nil => exact congrArg (last + ·) (Nat.add_sub_cancel_left n i)
  | cons e rest ih =>
    obtain ⟨⟨other, hother⟩, hrest⟩ := List.forall_mem_cons.1 hkeys
    obtain ⟨k, w⟩ := e
    obtain rfl : k = .str other := hother
    have hle := le_run_numbered rest (n + w.places)
    rw [run_numbered_cons, places_str, Nat.add_zero]
    simp only [blocks, List.map_cons, place] at ih ⊢
    rw [if_neg (by omega)]
    exact ih hrest _

end Blocks

end Layer

/-! ## The scope of what is mentioned -/

/-- A scope of variables that are given numbers from `n` on. -/
def Scope.numberedFrom (mentioned : Layer) (n : Nat) (autoescape : Bool)
    (request : Option Request) : Scope :=
  { upper := [(mentioned.numbered.run n).1], autoescape, request
    nextNumber := (mentioned.numbered.run n).2 }

theorem Layer.mirrors_constants (ρ : Renumbering) (names : List String) :
    Layer.constants.Mirrors ρ names Layer.constants := by
  intro name _
  have hfixed : ∀ e ∈ Layer.constants, e.2.renumber ρ = e.2 := by
    simp [Layer.constants, Value.renumber]
  unfold Layer.get? Value.lookupKey?
  cases h : Layer.constants.find? fun e => Value.alike e.1 (.str name) with
  | none => rfl
  | some e => exact congrArg some (hfixed e (List.mem_of_find?_eq_some h)).symm

/-- **A new scope mirrors** that of the variables that are mentioned. -/
theorem Scope.exists_mirrors_create {layer other : Layer} {n : Nat} (hnames : names.Nodup)
    (h : layer.Agree names other) (hpos : 0 < n) (hn : n ≤ layer.freeNumber)
    (hbelow : ∀ name ∈ names, ∀ v, layer.get? (.str name) = some v → v.isBelow n) (autoescape : Bool)
    (request : Option Request) :
    ∃ ρ, (Scope.numberedFrom (other.restrict names) n autoescape request).Mirrors ρ names
      (Scope.create (some layer) autoescape request) := by
  obtain ⟨hgiven, hfree⟩ := layer.freeNumber_given
  have hkeys : ∀ e ∈ other.restrict names, ∃ name, e.1 = .str name := fun e he =>
    (Layer.exists_of_mem_restrict he).imp fun _ hname => hname.2.1
  have hblocks : ∀ b ∈ layer.blocks (other.restrict names) layer.freeNumber,
      n ≤ b.1 ∧ b.1 + b.2 ≤ layer.given.freeNumber := by
    refine List.forall_mem_map.2 fun e he => ?_
    obtain ⟨name, hname, hkey, hv⟩ := Layer.exists_of_mem_restrict he
    have hend := Layer.start_add_places_le ((h name hname).trans hv) layer.freeNumber
    rw [hkey]
    exact ⟨Nat.le_trans hn (Layer.le_start layer _ _), Nat.le_trans hend hgiven⟩
  let ρ := Renumbering.ofBlocks n layer.given.freeNumber
    (layer.blocks (other.restrict names) layer.freeNumber) hpos (Nat.le_trans hn hfree)
    (Layer.apart_blocks hnames h.symm _) hblocks
  have hfixes : ρ.Fixes n := fun k hk => if_pos hk
  have habove {k : Nat} (hk : n ≤ k) :
      ρ k = place layer.given.freeNumber (layer.blocks (other.restrict names) layer.freeNumber) n k :=
    if_neg (Nat.not_lt.2 hk)
  refine ⟨ρ, .cons (fun name hname => ?_) .nil, Layer.mirrors_constants ρ names, rfl, rfl, rfl,
    fun i => ?_, rfl⟩
  · change ((layer.numbered.run layer.freeNumber).1.get? (.str name)) =
      (Layer.get? ((other.restrict names).numbered.run n).1 (.str name)).map (Value.renumber ρ)
    rw [Layer.get?_numbered, Layer.get?_numbered, Layer.get?_restrict, if_pos hname,
      ← h name hname]
    cases hv : layer.get? (.str name) with
    | none => rfl
    | some v =>
      have hmentioned : (other.restrict names).get? (.str name) = some v := by
        rw [Layer.get?_restrict, if_pos hname, ← h name hname, hv]
      -- the value itself stays as it is, and only what it is given changes
      have hstays := Value.renumber_of_isBelow hfixes (hbelow name hname v hv)
      have hplaces (i : Nat) (hi : i < v.places) :
          ρ (Layer.start (.str name) (other.restrict names) n + i) =
            Layer.start (.str name) layer layer.freeNumber + i := by
        rw [habove (Nat.le_add_right_of_le (Layer.le_start _ _ n))]
        exact Layer.place_start hkeys hmentioned hi _ _ n
      have hrun := Value.run_numbered_renumber hplaces
      rw [hstays] at hrun
      exact congrArg (fun r => some r.1) hrun
  · change ρ (((other.restrict names).numbered.run n).2 + i) = layer.given.freeNumber + i
    rw [habove (Nat.le_add_right_of_le (Layer.le_run_numbered _ n))]
    exact Layer.place_end hkeys _ _ n i

/-! ## What a template mentions -/

/-- The names of the variables that a template reads. -/
def Template.roots (t : Template) : List String := (expressionsOf t.nodes).flatMap Expression.roots

/-- The values of some variables are **closed** if no number that is in them, or in what their calls
make, is still free in the layer. Those of an application are, whose numbers are below all that are
given. -/
def Layer.Closed (layer : Layer) (names : List String) : Prop :=
  ∀ name ∈ names, (layer.get? (.str name)).all (·.isBelow layer.freeNumber)

theorem Layer.Closed.isBelow {layer : Layer} (h : layer.Closed names) {name : String}
    (hname : name ∈ names) {v : Value} (hv : layer.get? (.str name) = some v) :
    v.isBelow layer.freeNumber := by
  have hall := h name hname
  rwa [hv] at hall

namespace Template

variable {source : String} {name : Option String} {t : Template}

/-- The expressions of a template without libraries keep to what it mentions. -/
theorem keepsTo_roots (ht : compile source name [] = .ok t) :
    anyCallsTag t.nodes = false ∧ ∀ e ∈ expressionsOf t.nodes, e.KeepsTo t.roots.dedup := by
  unfold compile at ht
  split at ht
  · next nodes hnodes =>
    cases ht
    obtain ⟨hcalls, hbuiltin⟩ := unaided_compile hnodes
    refine ⟨hcalls, fun e he => ⟨fun root hroot => ?_, hbuiltin e he⟩⟩
    exact List.mem_dedup.2 (List.mem_flatMap.2 ⟨e, he, hroot⟩)
  · cases ht

/-- **The text of a template without libraries** is that in the scope of the variables that it
mentions. -/
theorem toOption_render (ht : compile source name [] = .ok t) (routes : RouteTable)
    {layer other : Layer} (h : layer.Agree t.roots other) {n : Nat} (hpos : 0 < n)
    (hn : n ≤ layer.freeNumber)
    (hbelow : ∀ root ∈ t.roots, ∀ v, layer.get? (.str root) = some v → v.isBelow n) (number : Nat)
    (autoescape : Bool) (request : Option Request) :
    (t.render routes (.dict number layer) autoescape request).1.toOption =
      ((renderAll routes t.nodes).run.run (Scope.numberedFrom (other.restrict t.roots.dedup) n
        autoescape request)).1.toOption := by
  obtain ⟨hcalls, hkeeps⟩ := keepsTo_roots ht
  obtain ⟨ρ, hmirrors⟩ := Scope.exists_mirrors_create t.roots.nodup_dedup
    (fun root hroot => h root (List.mem_dedup.1 hroot)) hpos hn
    (fun root hroot => hbelow root (List.mem_dedup.1 hroot)) autoescape request
  let bound := { Scope.create (some layer) autoescape request with
    bound := true, templateName := scopeName t.name }
  obtain ⟨hsame, -⟩ := mirrored_renderAll routes t.nodes hcalls hkeeps _ bound { hmirrors with }
  have hrender : (t.render routes (.dict number layer) autoescape request).1 =
      ((renderAll routes t.nodes).run.run bound).1.mapError (·.reported t.source t.name) := rfl
  rw [Option.map_id, id] at hsame
  rw [hrender, ← hsame]
  cases ((renderAll routes t.nodes).run.run bound).1 <;> rfl

/-- **What a template depends on.** A template without libraries is rendered to the same text for all
variables that agree on the names that it mentions, or to none. -/
theorem render_congr (ht : compile source name [] = .ok t) (routes : RouteTable)
    {first second : Layer} (h : first.Agree t.roots second) (hfirst : first.Closed t.roots)
    (hsecond : second.Closed t.roots) (number number' : Nat) (autoescape : Bool)
    (request : Option Request) (text : String) :
    (t.render routes (.dict number first) autoescape request).1 = .ok text ↔
      (t.render routes (.dict number' second) autoescape request).1 = .ok text := by
  -- both are compared with the scope of what the first has of the names, numbered from a number on
  -- that is free in neither
  let n := min first.freeNumber second.freeNumber
  have hpos : 0 < n := Nat.lt_min.2 ⟨first.freeNumber_pos, second.freeNumber_pos⟩
  have hbelow {root : String} (hroot : root ∈ t.roots) {v : Value}
      (hv : first.get? (.str root) = some v) : v.isBelow n := by
    rcases min_choice first.freeNumber second.freeNumber with hn | hn
    · rw [show n = first.freeNumber from hn]
      exact hfirst.isBelow hroot hv
    · rw [show n = second.freeNumber from hn]
      exact hsecond.isBelow hroot ((h root hroot).symm.trans hv)
  have hfirst := toOption_render ht routes (.refl first) hpos (Nat.min_le_left _ _)
    (fun root hroot v hv => hbelow hroot hv) number autoescape request
  have hsecond := toOption_render ht routes h.symm hpos (Nat.min_le_right _ _)
    (fun root hroot v hv => hbelow hroot ((h root hroot).trans hv)) number' autoescape request
  have hok (outcome : Except HostError String) :
      outcome = .ok text ↔ outcome.toOption = some text := by
    cases outcome with
    | ok written => simp [Except.toOption]
    | error e => simp [Except.toOption]
  rw [hok, hok, hfirst, hsecond]

/-- A loop that tells one list from those that are equal to it. -/
def search : String :=
  "{% for x in xs %}{% if x is y %}y{% else %}{{ x }}{% endif %}{% endfor %}"

set_option maxRecDepth 2000 in
/-- What is written does not show the list that is there before the others. -/
theorem render_congr_search :
    let y : Value := .list 1 []
    let xs : Value := .list 0 [y, .list 0 []]
    let first : Layer := [(.str "z", .list 0 [.list 0 []]), (.str "y", y), (.str "xs", xs)]
    let second : Layer := [(.str "xs", xs), (.str "y", y)]
    ∃ t, compile search none [] = .ok t ∧ t.roots = ["xs", "x", "y", "x"] ∧
      first.Agree t.roots second ∧ first.Closed t.roots ∧ second.Closed t.roots ∧
      (t.render {} (.dict 0 first) true none).1 = .ok "y[]" ∧
      (t.render {} (.dict 0 second) true none).1 = .ok "y[]" := by
  intro y xs first second
  let condition : Condition Expression :=
    .binary .same (.operand ⟨.path ⟨23, 1⟩ "x" [], []⟩) (.operand ⟨.path ⟨28, 1⟩ "y" [], []⟩)
  let nodes : List Node :=
    [.loop ⟨0, 17⟩ ⟨["x"], ⟨7, 1⟩, ⟨.path ⟨12, 2⟩ "xs" [], []⟩, false⟩
      [.choice ⟨17, 15⟩ condition [.text ⟨32, 1⟩ "y"]
        [.output ⟨43, 7⟩ ⟨.path ⟨46, 1⟩ "x" [], []⟩]] []]
  have hscan : Token.scan search.toList =
      [⟨.tag, ⟨0, 17⟩⟩, ⟨.tag, ⟨17, 15⟩⟩, ⟨.text, ⟨32, 1⟩⟩, ⟨.tag, ⟨33, 10⟩⟩,
        ⟨.interpolation, ⟨43, 7⟩⟩, ⟨.tag, ⟨50, 11⟩⟩, ⟨.tag, ⟨61, 12⟩⟩] := by decide +kernel
  have hnodes : Galley.compile search.toList [] = .ok nodes := by
    rw [Galley.compile, hscan]
    rfl
  have hcompile : compile search none [] = .ok ⟨search.toList, none, nodes⟩ := by
    rw [compile, hnodes]
  have hagree : first.Agree ["xs", "x", "y", "x"] second := by
    refine List.forall_mem_cons.2 ⟨rfl, List.forall_mem_cons.2 ⟨rfl, ?_⟩⟩
    exact List.forall_mem_cons.2 ⟨rfl, List.forall_mem_singleton.2 rfl⟩
  have hfirst : first.Closed ["xs", "x", "y", "x"] := List.all_eq_true.1 rfl
  have hsecond : second.Closed ["xs", "x", "y", "x"] := List.all_eq_true.1 rfl
  have hsame := render_congr hcompile {} hagree hfirst hsecond 0 0 true none "y[]"
  have hwritten : (render ⟨search.toList, none, nodes⟩ {} (.dict 0 first) true none).1 =
      .ok "y[]" := by cbv
  exact ⟨_, hcompile, rfl, hagree, hfirst, hsecond, hwritten, hsame.1 hwritten⟩

end Template

end Galley
