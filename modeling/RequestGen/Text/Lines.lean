import RequestGen.Text.Pieces

/-! # Lines of a snippet

A line ends at a line feed, a carriage return, both together, a vertical tab, a form feed, one of
the separators U+001C to U+001E, or a line end beyond ASCII. `indent` sets a snippet into a block:
its first line is always moved, the others unless they are empty. -/

namespace RequestGen.Text

/-- A character that ends a line. -/
def isLineEnd (c : Char) : Bool :=
  (10 ≤ c.toNat && c.toNat ≤ 13) || (28 ≤ c.toNat && c.toNat ≤ 30) || c == '\x85' ||
    c == '\u2028' || c == '\u2029'

/-- The lines of a text. What follows the last line end is a line only if it is not empty. -/
def splitLines : List Char → List (List Char)
  | [] => []
  | '\r' :: '\n' :: s => [] :: splitLines s
  | c :: s =>
    if isLineEnd c then [] :: splitLines s
    else
      match splitLines s with
      | [] => [[c]]
      | line :: rest => (c :: line) :: rest

/-- The text with each carriage return, and the line feed after it, as one line feed. -/
def lineFeeds : List Char → List Char
  | [] => []
  | '\r' :: '\n' :: s => '\n' :: lineFeeds s
  | c :: s => (if c = '\r' then '\n' else c) :: lineFeeds s

/-- A line moved to the right, unless it is empty. -/
def indentLine (margin line : List Char) : List Char :=
  if line.isEmpty then [] else margin ++ line

/-- A snippet as lines of a block. -/
def indent (margin s : List Char) : List Char :=
  match splitLines (s ++ ['\n']) with
  | [] => margin
  | first :: rest => join ['\n'] ((margin ++ first) :: rest.map (indentLine margin))

end RequestGen.Text
