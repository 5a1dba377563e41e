/-!
# Finding a text in a text

* `take_length_takeWhile`, `drop_length_takeWhile`, `of_mem_takeWhile`: the longest beginning of a
  class of characters.
* `find?`: the offset of the first occurrence.
* `find?_add_length_le`: an occurrence lies inside the text searched.
* `find?_spec`, `not_infix_take_of_find?`: it is an occurrence, and none comes before it.
* `find?_drop`: it is found from any place before it.
-/

namespace Galley.Text

theorem take_length_takeWhile (p : Char → Bool) (text : List Char) :
    text.take (text.takeWhile p).length = text.takeWhile p :=
  (List.prefix_iff_eq_take.1 (List.takeWhile_prefix p)).symm

theorem drop_length_takeWhile (p : Char → Bool) (text : List Char) :
    text.drop (text.takeWhile p).length = text.dropWhile p := by
  have h : (text.takeWhile p ++ text.dropWhile p).drop (text.takeWhile p).length =
      text.dropWhile p := List.drop_left
  rwa [List.takeWhile_append_dropWhile] at h

theorem of_mem_takeWhile {p : Char → Bool} {text : List Char} {c : Char}
    (h : c ∈ text.takeWhile p) : p c :=
  List.all_eq_true.1 List.all_takeWhile c h

/-- The offset of the first place where `text` goes on with `pattern`. -/
def find? (pattern : List Char) : List Char → Option Nat
  | [] => if pattern.isEmpty then some 0 else none
  | c :: rest =>
    if pattern.isPrefixOf (c :: rest) then some 0 else (find? pattern rest).map (· + 1)

/-- The number of characters before the first `c`; all of them if there is none. -/
def lengthBefore (c : Char) (text : List Char) : Nat := (text.takeWhile (· != c)).length

theorem lengthBefore_le (c : Char) (text : List Char) : lengthBefore c text ≤ text.length :=
  (List.takeWhile_sublist _).length_le

theorem lengthBefore_lt_iff (c : Char) (text : List Char) :
    lengthBefore c text < text.length ↔ c ∈ text := by
  unfold lengthBefore
  induction text with
  | nil => simp
  | cons d rest ih =>
    by_cases h : d = c
    · simp [h]
    · rw [List.takeWhile_cons_of_pos (by simpa using h)]
      simp [ih, Ne.symm h]

/-- No `c` stands before the first one. -/
theorem ne_of_mem_take {c d : Char} {text : List Char} {n : Nat} (h : n ≤ lengthBefore c text)
    (hd : d ∈ text.take n) : d ≠ c := by
  have hmem : d ∈ text.takeWhile (· != c) := by
    rw [← take_length_takeWhile]
    exact (List.take_sublist_take_left h).subset hd
  simpa using of_mem_takeWhile hmem

/-- The first `c` stands behind what comes before it. -/
theorem eq_append_cons_of_lengthBefore {c : Char} {text : List Char}
    (h : lengthBefore c text < text.length) :
    text = text.take (lengthBefore c text) ++ c :: text.drop (lengthBefore c text + 1) := by
  induction text with
  | nil => cases h
  | cons d rest ih =>
    by_cases hd : d = c
    · subst hd
      simp [lengthBefore]
    · have hlength : lengthBefore c (d :: rest) = lengthBefore c rest + 1 := by
        simp [lengthBefore, hd]
      rw [hlength, List.length_cons] at h
      rw [hlength, List.take_succ_cons, List.drop_succ_cons, List.cons_append,
        ← ih (by omega)]

/-- **An occurrence fits.** The pattern found ends inside the text. -/
theorem find?_add_length_le {pattern text : List Char} {n : Nat} (h : find? pattern text = some n) :
    n + pattern.length ≤ text.length := by
  induction text generalizing n with
  | nil =>
    unfold find? at h
    split at h
    · next he =>
      simp only [Option.some.injEq] at h
      simp_all [← h]
    · simp at h
  | cons c rest ih =>
    unfold find? at h
    split at h
    · next hp =>
      simp only [Option.some.injEq] at h
      subst h
      have := (List.isPrefixOf_iff_prefix.1 hp).length_le
      omega
    · obtain ⟨m, hm, rfl⟩ := Option.map_eq_some_iff.1 h
      have := ih hm
      simp only [List.length_cons]
      omega

/-- **The first occurrence.** The text goes on with the pattern where it was found and nowhere
before. -/
theorem find?_spec {pattern text : List Char} {n : Nat} (h : find? pattern text = some n) :
    pattern <+: text.drop n ∧ ∀ m < n, ¬ pattern <+: text.drop m := by
  induction text generalizing n with
  | nil =>
    unfold find? at h
    split at h
    · next he =>
      cases h
      rw [List.isEmpty_iff.1 he]
      exact ⟨List.nil_prefix, fun m hm => absurd hm (Nat.not_lt_zero m)⟩
    · cases h
  | cons c rest ih =>
    unfold find? at h
    split at h
    · next hp =>
      cases h
      exact ⟨List.isPrefixOf_iff_prefix.1 hp, fun m hm => absurd hm (Nat.not_lt_zero m)⟩
    · next hp =>
      obtain ⟨k, hk, rfl⟩ := Option.map_eq_some_iff.1 h
      obtain ⟨hpre, hnone⟩ := ih hk
      refine ⟨by simpa using hpre, fun m hm => ?_⟩
      cases m with
      | zero => exact fun hc => hp (List.isPrefixOf_iff_prefix.2 hc)
      | succ m => simpa using hnone m (by omega)

/-- The first occurrence is the first one from any place before it. -/
theorem find?_drop {pattern text : List Char} {n k : Nat} (h : find? pattern text = some n)
    (hk : k ≤ n) : find? pattern (text.drop k) = some (n - k) := by
  induction k generalizing text n with
  | zero => simpa using h
  | succ k ih =>
    obtain ⟨m, rfl⟩ : ∃ m, n = m + 1 := ⟨n - 1, by omega⟩
    cases text with
    | nil =>
      unfold find? at h
      split at h <;> cases h
    | cons c rest =>
      unfold find? at h
      split at h
      · cases h
      · obtain ⟨m', hm, heq⟩ := Option.map_eq_some_iff.1 h
        obtain rfl : m' = m := by omega
        rw [List.drop_succ_cons, ih hm (by omega), Nat.add_sub_add_right]

/-- What stands before the first occurrence does not hold the pattern. -/
theorem not_infix_take_of_find? {pattern text : List Char} {n : Nat} (hne : pattern ≠ [])
    (h : find? pattern text = some n) : ¬ pattern <:+: text.take n := by
  rintro ⟨before, behind, heq⟩
  have hlen := congrArg List.length heq
  have hpos := List.length_pos_iff.2 hne
  simp only [List.length_append, List.length_take] at hlen
  refine (find?_spec h).2 before.length (by omega) ⟨behind ++ text.drop n, ?_⟩
  calc pattern ++ (behind ++ text.drop n)
      = (before ++ pattern ++ behind ++ text.drop n).drop before.length := by
        simp only [List.append_assoc, List.drop_left]
    _ = text.drop before.length := by rw [heq, List.take_append_drop]

/-- Cuts a text at every occurrence of a character, like the fields of a line. -/
def splitOn (c : Char) (text : List Char) : List (List Char) :=
  match text with
  | [] => [[]]
  | x :: rest =>
    if x = c then [] :: splitOn c rest
    else
      match splitOn c rest with
      | [] => [[x]]
      | first :: others => (x :: first) :: others

end Galley.Text
