import NextepAgent.Python
import Mathlib.Data.List.DropRight

/-!
# Two lenient readings

`int(s)` takes blanks around a number, a sign, and single underscores between digits. And
`bytes.decode("utf-8", "replace")` takes anything: what cannot be decoded is replaced by `U+FFFD`,
one for each maximal prefix of a well-formed sequence.

## Header strings

The value of an HTTP header is decoded as Latin-1, so that a character is a byte. Of the Unicode
blanks that `int` knows, eight are below 256, and of the decimal digits only the ASCII ones are.

## Main definitions

* `Latin1`, `Latin1.chars`
* `Latin1.int` — `int(s)`
* `decodeReplace`

## Main results

* `decodeReplace_toByteArray` — what is UTF-8 is decoded as UTF-8
-/

namespace NextepAgent

/-! ### Integers -/

/-- A string of characters below 256. -/
abbrev Latin1 : Type := List UInt8

namespace Latin1

/-- The characters. -/
def chars (s : Latin1) : List Char := s.map fun b => Char.ofNat b.toNat

/-- What `int` strips. -/
def isBlank (b : UInt8) : Bool := (9 ≤ b && b ≤ 13) || b == 32 || b == 0x85 || b == 0xa0

/-- A decimal digit. -/
def digit? (b : UInt8) : Option ℕ := if 48 ≤ b && b ≤ 57 then some (b.toNat - 48) else none

/-- Digits, with single underscores between them. There is at least one. -/
def digits? : Latin1 → Option (List ℕ)
  | [] => none
  | [b] => (digit? b).map ([·])
  | b :: c :: rest => do
    let d ← digit? b
    let ds ← if c == 95 then digits? rest else digits? (c :: rest)
    return d :: ds

/-- The sign, and what follows it. -/
def signed : Latin1 → ℤ × Latin1
  | 43 :: rest => (1, rest)
  | 45 :: rest => (-1, rest)
  | s => (1, s)

/-- `int(s)`. There is a limit to the number of digits. -/
def int (s : Latin1) : Except Exc ℤ :=
  let (sign, unsigned) := ((s.dropWhile isBlank).rdropWhile isBlank |> signed)
  match digits? unsigned with
  | none => .error ⟨.valueError, "invalid literal for int() with base 10"⟩
  | some ds =>
    if 4300 < ds.length then
      .error ⟨.valueError, "Exceeds the limit (4300 digits) for integer string conversion"⟩
    else .ok (sign * (ds.foldl (fun n d => 10 * n + d) 0 : ℕ))

end Latin1

/-! ### Bytes -/

/-- A continuation byte. -/
def isContinuation (b : UInt8) : Bool := 0x80 ≤ b && b ≤ 0xbf

/-- Whether a sequence of three bytes or four may begin with these two. -/
def beginsLong (b c : UInt8) : Bool :=
  if b == 0xe0 then 0xa0 ≤ c && c ≤ 0xbf
  else if b == 0xed then 0x80 ≤ c && c ≤ 0x9f
  else if b == 0xf0 then 0x90 ≤ c && c ≤ 0xbf
  else if b == 0xf4 then 0x80 ≤ c && c ≤ 0x8f
  else 0xe1 ≤ b && b ≤ 0xf3 && isContinuation c

/-- How much of what cannot be decoded is replaced at once. -/
def malformed : List UInt8 → ℕ
  | b :: c :: rest =>
    if beginsLong b c then
      match rest with
      | d :: _ => if 0xf0 ≤ b && isContinuation d then 3 else 2
      | [] => 2
    else 1
  | _ => 1

/-- One character after another. The first argument bounds their number. -/
def replaceFrom : ℕ → List UInt8 → List Char
  | 0, _ => []
  | _, [] => []
  | n + 1, b :: bs =>
    match ByteArray.utf8DecodeChar? ⟨(b :: bs).toArray⟩ 0 with
    | some c => c :: replaceFrom n ((b :: bs).drop c.utf8Size)
    | none => Char.ofNat 0xfffd :: replaceFrom n ((b :: bs).drop (malformed (b :: bs)))

/-- `b.decode("utf-8", "replace")`. -/
def decodeReplace (b : Bytes) : List Char := replaceFrom b.size b.data.toList

/-! ### What is UTF-8 -/

theorem length_le_flatMap (cs : List Char) :
    cs.length ≤ (cs.flatMap String.utf8EncodeChar).length := by
  induction cs with
  | nil => exact Nat.le_refl 0
  | cons c cs ih =>
    have hpos := c.utf8Size_pos
    rw [List.flatMap_cons, List.length_append, String.length_utf8EncodeChar, List.length_cons]
    omega

/-- The induction is on the text, of which each step reads one character and drops its bytes. -/
theorem replaceFrom_flatMap (cs : List Char) {n : ℕ} (hn : cs.length ≤ n) :
    replaceFrom n (cs.flatMap String.utf8EncodeChar) = cs := by
  induction cs generalizing n with
  | nil => cases n <;> rfl
  | cons c cs ih =>
    obtain ⟨n, rfl⟩ : ∃ m, n = m + 1 := ⟨n - 1, by rw [List.length_cons] at hn; omega⟩
    have hread : ByteArray.utf8DecodeChar?
        ⟨((c :: cs).flatMap String.utf8EncodeChar).toArray⟩ 0 = some c := by
      rw [← List.data_toByteArray]
      exact List.utf8DecodeChar?_utf8Encode_cons
    have hdrop : ((c :: cs).flatMap String.utf8EncodeChar).drop c.utf8Size =
        cs.flatMap String.utf8EncodeChar := by
      rw [List.flatMap_cons, ← String.length_utf8EncodeChar, List.drop_left]
    cases hbytes : (c :: cs).flatMap String.utf8EncodeChar with
    | nil =>
      rw [hbytes] at hread
      cases hread
    | cons b bs =>
      rw [hbytes] at hread hdrop
      rw [replaceFrom, hread]
      dsimp only
      rw [hdrop, ih (by rw [List.length_cons] at hn; omega)]

/-- **What is UTF-8 is decoded as UTF-8.** -/
theorem decodeReplace_toByteArray (s : String) : decodeReplace s.toByteArray = s.toList := by
  have hdata : s.toByteArray.data.toList = s.toList.flatMap String.utf8EncodeChar := by
    rw [← String.utf8Encode_toList, List.utf8Encode, List.toList_data_toByteArray]
  have hsize : s.toList.length ≤ s.toByteArray.size := by
    rw [← ByteArray.size_data, ← Array.length_toList, hdata]
    exact length_le_flatMap s.toList
  rw [decodeReplace, hdata, replaceFrom_flatMap _ hsize]

end NextepAgent
