/-!
# Decoding UTF-8

Bytes are decoded character by character. What cannot be decoded is reported by the bytes that were
read in vain and the reason.

* `decodeUtf8`: the text of bytes.
-/

namespace Galley.Text

/-- Why bytes are no text. -/
structure DecodingError where
  start : Nat
  /-- The number of bytes that were read in vain. -/
  length : Nat
  /-- The first of them. -/
  byte : UInt8
  reason : String

namespace DecodingError

/-- The error in words. -/
def message (e : DecodingError) : String :=
  let hex (n : Nat) := Nat.digitChar n
  let place :=
    if e.length ≤ 1 then
      "byte 0x" ++ String.ofList [hex (e.byte.toNat / 16), hex (e.byte.toNat % 16)] ++
        " in position " ++ toString e.start
    else "bytes in position " ++ toString e.start ++ "-" ++ toString (e.start + e.length - 1)
  "'utf-8' codec can't decode " ++ place ++ ": " ++ e.reason

end DecodingError

/-- The number of continuation bytes after a first byte, and the bounds of the first of them: they
exclude overlong forms, surrogates and what lies beyond the last character. -/
def leading? (b : UInt8) : Option (Nat × Nat × Nat) :=
  let n := b.toNat
  if n < 0x80 then some (0, 0x80, 0xC0)
  else if 0xC2 ≤ n && n < 0xE0 then some (1, 0x80, 0xC0)
  else if n = 0xE0 then some (2, 0xA0, 0xC0)
  else if n = 0xED then some (2, 0x80, 0xA0)
  else if 0xE1 ≤ n && n < 0xF0 then some (2, 0x80, 0xC0)
  else if n = 0xF0 then some (3, 0x90, 0xC0)
  else if 0xF1 ≤ n && n < 0xF4 then some (3, 0x80, 0xC0)
  else if n = 0xF4 then some (3, 0x80, 0x90)
  else none

/-- The number of good continuation bytes, of which `count` are wanted, the first between `low` and
`high`. -/
def continued (count low high : Nat) : List UInt8 → Nat
  | [] => 0
  | b :: rest =>
    match count with
    | 0 => 0
    | more + 1 =>
      if low ≤ b.toNat && b.toNat < high then continued more 0x80 0xC0 rest + 1 else 0

/-- The code point of a character's bytes. -/
def codePoint (count : Nat) (first : UInt8) (others : List UInt8) : Nat :=
  let top := if count = 0 then first.toNat else first.toNat % Nat.pow 2 (6 - count)
  others.foldl (fun n b => n * 64 + b.toNat % 64) top

/-- The text of the bytes from offset `start` on. -/
def decodeFrom (start : Nat) (data : List UInt8) : Except DecodingError (List Char) :=
  match data with
  | [] => .ok []
  | b :: rest =>
    match leading? b with
    | none => .error ⟨start, 1, b, "invalid start byte"⟩
    | some (count, low, high) =>
      let good := continued count low high rest
      if good = count then
        (decodeFrom (start + count + 1) (rest.drop count)).map
          (Char.ofNat (codePoint count b (rest.take count)) :: ·)
      else if good = rest.length then .error ⟨start, good + 1, b, "unexpected end of data"⟩
      else .error ⟨start, good + 1, b, "invalid continuation byte"⟩
termination_by data.length
decreasing_by
  simp only [List.length_cons, List.length_drop]
  omega

/-- **The text of bytes.** -/
def decodeUtf8 (data : List UInt8) : Except DecodingError String :=
  (decodeFrom 0 data).map String.ofList

end Galley.Text
