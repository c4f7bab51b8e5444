/-
TripleLogic.Text.Utf8 — texts as bytes.

A character has one to four bytes. Bytes that are no character are read as
the replacement character: one for each longest run that begins a character
and is not ended.
-/
import TripleLogic.Text.CodePoints

namespace TripleLogic.Text

/-- The bytes of a text. -/
def toBytes (cs : List Char) : List Nat :=
  cs.flatMap fun c => (String.utf8EncodeChar c).map UInt8.toNat

/-- What the first byte of a longer character says: the bits that it gives,
how many bytes follow, and the least and the greatest value of the next. -/
def leadByte? (b : Nat) : Option (Nat × Nat × Nat × Nat) :=
  if 0xC2 ≤ b && b ≤ 0xDF then some (b - 0xC0, 1, 0x80, 0xBF)
  else if b == 0xE0 then some (0, 2, 0xA0, 0xBF)
  else if b == 0xED then some (0xD, 2, 0x80, 0x9F)
  else if 0xE0 ≤ b && b ≤ 0xEF then some (b - 0xE0, 2, 0x80, 0xBF)
  else if b == 0xF0 then some (0, 3, 0x90, 0xBF)
  else if 0xF1 ≤ b && b ≤ 0xF3 then some (b - 0xF0, 3, 0x80, 0xBF)
  else if b == 0xF4 then some (4, 3, 0x80, 0x8F)
  else none

/-- The bytes that go on with a character, at most `count` of them. -/
def tailBytes (least greatest : Nat) : (count : Nat) → List Nat → List Nat
  | 0, _ => []
  | _ + 1, [] => []
  | n + 1, b :: bs =>
      if least ≤ b && b ≤ greatest then b :: tailBytes 0x80 0xBF n bs else []

/-- The text of bytes. -/
def ofBytes : List Nat → List Char
  | [] => []
  | b :: bs =>
      match leadByte? b with
      | none => (if b < 0x80 then Char.ofNat b else replacement) :: ofBytes bs
      | some (bits, count, least, greatest) =>
          let tail := tailBytes least greatest count bs
          let c :=
            if tail.length == count then Char.ofNat (tail.foldl (fun n b => 64 * n + b % 64) bits)
            else replacement
          c :: ofBytes (bs.drop tail.length)
  termination_by bytes => bytes.length
  decreasing_by all_goals simp only [List.length_cons, List.length_drop]; omega

end TripleLogic.Text
