/-
TripleLogic.Text.CodePoints — characters from code points that were written
as numbers.

A high surrogate and a low one after it stand for one character. A surrogate
that stands alone is half of a pair, and stands for none.
-/
namespace TripleLogic.Text

/-- The character that takes the place of bytes that are no character. -/
def replacement : Char := Char.ofNat 0xFFFD

/-- Whether a code point is a high surrogate. -/
def isHighSurrogate (n : Nat) : Bool := 0xD800 ≤ n && n < 0xDC00

/-- Whether a code point is a low surrogate. -/
def isLowSurrogate (n : Nat) : Bool := 0xDC00 ≤ n && n < 0xE000

/-- The character of a code point that is no part of a pair. -/
def ofCodePoint? (n : Nat) : Option Char :=
  if isHighSurrogate n || isLowSurrogate n then none else some (Char.ofNat n)

/-- The characters of a list of code points; pairs of surrogates are joined.
There are none when half of a pair is left. -/
def ofCodePoints? : List Nat → Option (List Char)
  | [] => some []
  | h :: l :: rest =>
      if isHighSurrogate h && isLowSurrogate l then
        (ofCodePoints? rest).map
          (Char.ofNat (0x10000 + (h - 0xD800) * 0x400 + (l - 0xDC00)) :: ·)
      else do return (← ofCodePoint? h) :: (← ofCodePoints? (l :: rest))
  | [h] => (ofCodePoint? h).map ([·])

end TripleLogic.Text
