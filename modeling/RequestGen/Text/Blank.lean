import RequestGen.Text.Ranges

/-! # Blanks

A blank is a space, tab or line end, one of the four information separators U+001C to U+001F, or a
space or line end beyond ASCII. Zero-width characters are no blanks. -/

namespace RequestGen.Text

/-- Blanks beyond ASCII. -/
def blankRanges : List (Nat × Nat) :=
  [(133, 133), (160, 160), (5760, 5760), (8192, 8202), (8232, 8233), (8239, 8239), (8287, 8287),
   (12288, 12288)]

/-- A space, tab, line end or separator. -/
def isBlank (c : Char) : Bool :=
  if c.toNat < 128 then
    c == ' ' || (9 ≤ c.toNat && c.toNat ≤ 13) || (28 ≤ c.toNat && c.toNat ≤ 31)
  else inRanges blankRanges c.toNat

/-- The text without the characters of a class at its ends. -/
def trim (isOuter : Char → Bool) (s : List Char) : List Char :=
  ((s.dropWhile isOuter).reverse.dropWhile isOuter).reverse

/-- The text without the blanks at its ends. -/
def strip (s : List Char) : List Char := trim isBlank s

end RequestGen.Text
