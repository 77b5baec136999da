import RequestGen.Json.Basic
import RequestGen.Number.Shortest
import RequestGen.Json.Ascii
import RequestGen.Text.Printable

/-! # Document values in diagnostics

`Json.inspect` shows a value so that its kind can be told: a text in quotes with what cannot be
printed escaped, `None` for null, `True` and `False`. `Json.display` shows a text as it is, and
everything else as `inspect` does. -/

namespace RequestGen

namespace Json

/-- A character inside an inspected text that is quoted by `quote`. -/
def inspectChar (quote c : Char) : List Char :=
  if c = quote ∨ c = '\\' then ['\\', c]
  else if c = '\n' then ['\\', 'n']
  else if c = '\r' then ['\\', 'r']
  else if c = '\t' then ['\\', 't']
  else if Text.isPrintable c then [c]
  else if c.toNat < 0x100 then '\\' :: 'x' :: hex 2 c.toNat
  else if c.toNat < 0x10000 then '\\' :: 'u' :: hex 4 c.toNat
  else '\\' :: 'U' :: hex 8 c.toNat

/-- The single quote, unless the text holds it and no double quote. -/
def inspectQuote (s : List Char) : Char :=
  if s.contains '\'' && !s.contains '"' then '"' else '\''

/-- A text in quotes. -/
def inspectText (s : String) : String :=
  let quote := inspectQuote s.toList
  String.ofList (quote :: s.toList.flatMap (inspectChar quote) ++ [quote])

mutual

/-- The value as a diagnostic shows it. -/
def inspect : Json → String
  | null => "None"
  | bool true => "True"
  | bool false => "False"
  | int i => toString i
  | float x => x.text "inf" "nan"
  | str s => inspectText s
  | arr items => s!"[{Text.commaList (inspectItems items)}]"
  | obj fields => "\x7b" ++ Text.commaList (inspectFields fields) ++ "\x7d"

/-- The items as a diagnostic shows them. -/
def inspectItems : List Json → List String
  | [] => []
  | item :: items => inspect item :: inspectItems items

/-- The fields as a diagnostic shows them. -/
def inspectFields : List (String × Json) → List String
  | [] => []
  | (key, value) :: fields => s!"{inspectText key}: {inspect value}" :: inspectFields fields

end

/-- The fields of a record as a diagnostic shows them, its names without quotes. -/
def inspectRecord (fields : Fields) : List String :=
  fields.map fun (name, value) => s!"{name}={value.inspect}"

/-- A text as it is, any other value as a diagnostic shows it. -/
def display : Json → String
  | str s => s
  | v => inspect v

/-- The values that count as present, as a comma list. -/
def presentList (values : List Json) : String :=
  Text.commaList ((values.filter truthy).map display)

end Json

end RequestGen
