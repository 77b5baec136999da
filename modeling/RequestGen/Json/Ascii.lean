import RequestGen.Json.Basic
import RequestGen.Text.Pieces
import RequestGen.Number.Shortest

/-! # Document values as ASCII text

`Json.ascii` writes a value as JSON in ASCII alone: `", "` between items, `": "` after a key, and
every other character as a `\u` escape of its UTF-16 units. -/

namespace RequestGen

namespace Json

/-- A hexadecimal digit, in lower case. -/
def hexDigit (n : Nat) : Char :=
  if n < 10 then Char.ofNat (48 + n) else Char.ofNat (87 + n)

/-- The last `width` hexadecimal digits of `n`. -/
def hex (width n : Nat) : List Char :=
  match width with
  | 0 => []
  | width + 1 => hex width (n / 16) ++ [hexDigit (n % 16)]

/-- The escape of one UTF-16 unit. -/
def unitEscape (unit : Nat) : List Char :=
  '\\' :: 'u' :: hex 4 unit

/-- A character inside a quoted text. -/
def asciiChar (c : Char) : List Char :=
  if c = '"' then ['\\', '"']
  else if c = '\\' then ['\\', '\\']
  else if c = '\n' then ['\\', 'n']
  else if c = '\r' then ['\\', 'r']
  else if c = '\t' then ['\\', 't']
  else if c = '\x08' then ['\\', 'b']
  else if c = '\x0c' then ['\\', 'f']
  else if 32 ≤ c.toNat ∧ c.toNat < 127 then [c]
  else if c.toNat < 0x10000 then unitEscape c.toNat
  else
    let n := c.toNat - 0x10000
    unitEscape (0xd800 + n / 1024) ++ unitEscape (0xdc00 + n % 1024)

/-- A quoted text. -/
def asciiText (s : String) : String :=
  String.ofList ('"' :: s.toList.flatMap asciiChar ++ ['"'])

mutual

/-- The value as JSON text. -/
def ascii : Json → String
  | null => "null"
  | bool true => "true"
  | bool false => "false"
  | int i => toString i
  | float x => x.text "Infinity" "NaN"
  | str s => asciiText s
  | arr items => s!"[{Text.commaList (asciiItems items)}]"
  | obj fields => "\x7b" ++ Text.commaList (asciiFields fields) ++ "\x7d"

/-- The texts of the items. -/
def asciiItems : List Json → List String
  | [] => []
  | item :: items => ascii item :: asciiItems items

/-- The texts of the fields. -/
def asciiFields : List (String × Json) → List String
  | [] => []
  | (key, value) :: fields => s!"{asciiText key}: {ascii value}" :: asciiFields fields

end

end Json

end RequestGen
