/-! # Halves of surrogate pairs

An escape may name one half of a surrogate pair, and no character stands for that. A text that is
read keeps the half `0xd800 + n` as the private character `0x10f800 + n`. It has no UTF-8 form then,
and `encodingFault?` words why. -/

namespace RequestGen.Text

/-- The least character that stands for a half. -/
def firstHalf : Nat := 0x10f800

/-- The character that stands for the half with a code. -/
def half (code : Nat) : Char := Char.ofNat (firstHalf + (code - 0xd800))

def isHalf (c : Char) : Bool := firstHalf ≤ c.toNat

/-- The code of the half that a character stands for. -/
def halfCode (c : Char) : Nat := c.toNat - firstHalf + 0xd800

/-- Why a text has no UTF-8 form, told of the first halves in it. -/
def encodingFault? (s : String) : Option String :=
  let before := s.toList.takeWhile fun c => !isHalf c
  let first := before.length
  match (s.toList.drop first).takeWhile isHalf with
  | [] => none
  | [c] =>
    let digits := String.ofList (Nat.toDigits 16 (halfCode c))
    some (s!"'utf-8' codec can't encode character '\\u{digits}' in position {first}: " ++
      "surrogates not allowed")
  | halves =>
    let last := first + halves.length - 1
    some (s!"'utf-8' codec can't encode characters in position {first}-{last}: " ++
      "surrogates not allowed")

end RequestGen.Text
