/-
TripleLogic.Text.Blank — the characters that count as white space, and
the text left when they are taken off both ends.

The small class, from tab to carriage return and the space, is part of the
large class.
-/
namespace TripleLogic.Text

/-- White space of the small class: tab, line feed, vertical tab, form
feed, carriage return and the space. -/
def isPlainBlank (c : Char) : Bool :=
  (9 ≤ c.toNat && c.toNat ≤ 13) || c.toNat == 32

/-- White space of the large class: the small class, the four information
separators, the next-line control, and every space, line or paragraph
separator of the Unicode character database. The zero-width space and the
byte-order mark are not blank. -/
def isBlank (c : Char) : Bool :=
  let n := c.toNat
  isPlainBlank c || (0x1C ≤ n && n ≤ 0x1F) || n == 0x85 || n == 0xA0 || n == 0x1680
    || (0x2000 ≤ n && n ≤ 0x200A) || n == 0x2028 || n == 0x2029 || n == 0x202F
    || n == 0x205F || n == 0x3000

/-- Drop the characters of a class from both ends. -/
def trimWith (blank : Char → Bool) (cs : List Char) : List Char :=
  ((cs.dropWhile blank).reverse.dropWhile blank).reverse

/-- Drop white space of the large class from both ends. -/
def trim (cs : List Char) : List Char :=
  trimWith isBlank cs

@[simp] theorem trimWith_nil (blank : Char → Bool) : trimWith blank [] = [] := rfl

end TripleLogic.Text
