import RequestGen.Json.Basic
import RequestGen.Text.Pieces
import RequestGen.Yaml.Lexer

/-! # YAML documents

A plain scalar stands for null, a flag or a number where it is spelled like one. `Yaml.parse` reads
a text that holds one document. Of two fields with one key the later value counts. A text that makes
use of what is not read here is refused, and never read as something else. -/

namespace RequestGen.Yaml

/-! ### Plain scalars as values -/

def nullTexts : List String := ["", "~", "null", "Null", "NULL"]

def trueTexts : List String :=
  ["yes", "Yes", "YES", "true", "True", "TRUE", "on", "On", "ON"]

def falseTexts : List String :=
  ["no", "No", "NO", "false", "False", "FALSE", "off", "Off", "OFF"]

/-- The sign of a number and the rest of its text. -/
def splitSign : List Char → Bool × List Char
  | '-' :: s => (true, s)
  | '+' :: s => (false, s)
  | s => (false, s)

/-- The value of a digit in any base up to 16. -/
def digitValue (c : Char) : Nat := (hexValue? c).getD 0

/-- The number of the digits in a base; underscores between them do not count. -/
def number (base : Nat) (digits : List Char) : Nat :=
  (digits.filter (· ≠ '_')).foldl (fun n c => base * n + digitValue c) 0

/-- Digits of a kind, or underscores. -/
def areDigits (isDigit : Char → Bool) (s : List Char) : Bool :=
  s.all fun c => isDigit c || c == '_'

/-- A whole number: binary after `0b`, hexadecimal after `0x`, octal after `0`, else decimal. -/
def wholeNumber? (s : List Char) : Option Nat :=
  match s with
  | [] => none
  | ['0'] => some 0
  | '0' :: 'b' :: digits =>
    if !digits.isEmpty && areDigits (fun c => c == '0' || c == '1') digits then
      some (number 2 digits)
    else none
  | '0' :: 'x' :: digits =>
    if !digits.isEmpty && areDigits (fun c => (hexValue? c).isSome) digits then
      some (number 16 digits)
    else none
  | '0' :: digits =>
    if areDigits (fun c => '0' ≤ c && c ≤ '7') digits then some (number 8 digits) else none
  | c :: digits =>
    if c.isDigit && areDigits Char.isDigit digits then some (number 10 s) else none

/-- The exponent at the end of a number: `e` with a sign and digits. -/
def exponent? : List Char → Option Int
  | [] => some 0
  | e :: sign :: digits =>
    if (e == 'e' || e == 'E') && (sign == '+' || sign == '-') && !digits.isEmpty &&
        digits.all Char.isDigit then
      let n : Int := number 10 digits
      some (if sign == '-' then -n else n)
    else none
  | _ => none

/-- A decimal number with a point, without its sign. -/
def decimalNumber? (negative : Bool) (s : List Char) : Option Binary64 :=
  let isPart (c : Char) : Bool := c.isDigit || c == '_'
  let whole := s.takeWhile isPart
  match s.dropWhile isPart with
  | '.' :: s =>
    let fraction := s.takeWhile isPart
    let starts := match whole, fraction with
      | c :: _, _ => c.isDigit
      | [], c :: _ => c.isDigit
      | [], [] => false
    if starts then
      (exponent? (s.dropWhile isPart)).map fun exponent =>
        Binary64.ofDecimal negative (number 10 (whole ++ fraction))
          (exponent - (fraction.filter (· ≠ '_')).length)
    else none
  | _ => none

/-- A number with a point. One without digits before the point takes no sign. -/
def pointNumber? (s : List Char) : Option Binary64 :=
  let (negative, t) := splitSign s
  if t.head? = some '.' ∧ t.length ≠ s.length then none else decimalNumber? negative t

/-- Infinity and the values that are no numbers. -/
def specialNumber? (s : String) : Option Binary64 :=
  if s ∈ [".inf", ".Inf", ".INF", "+.inf", "+.Inf", "+.INF"] then
    some (Binary64.ofMagnitude false Binary64.infinite)
  else if s ∈ ["-.inf", "-.Inf", "-.INF"] then some (Binary64.ofMagnitude true Binary64.infinite)
  else if s ∈ [".nan", ".NaN", ".NAN"] then some ⟨UInt64.ofNat (Binary64.infinite + Nat.pow 2 51)⟩
  else none

/-- A number in sixties: groups of digits with colons between them, and perhaps a fraction. -/
def isInSixties (s : List Char) : Bool :=
  let isPart (c : Char) : Bool := c.isDigit || c == '_'
  match Text.splitOn ':' (s.takeWhile (· ≠ '.')) with
  | first :: group :: groups =>
    (first.head?.map Char.isDigit).getD false && first.all isPart &&
      (group :: groups).all (fun digits => digits.length ∈ [1, 2] && digits.all Char.isDigit) &&
      ((s.dropWhile (· ≠ '.')).drop 1).all isPart
  | _ => false

/-- A year, a month and a day, and perhaps a time after a blank or a `T`. -/
def isDated (s : List Char) : Bool :=
  let isTimeMark (c : Char) : Bool := c ∈ ['T', 't', ' ', '\t']
  match Text.splitOn '-' (s.takeWhile fun c => !isTimeMark c) with
  | [year, month, day] =>
    year.length = 4 && month.length ∈ [1, 2] && day.length ∈ [1, 2] &&
      (year ++ month ++ day).all Char.isDigit
  | _ => false

/-- The mark of a base with no digits after it. -/
def lacksDigits : List Char → Bool
  | '0' :: base :: digits => base ∈ ['b', 'x'] && !digits.isEmpty && digits.all (· = '_')
  | _ => false

/-- Whether a plain scalar may stand for something that is not read. -/
def isUnsupported (text : String) : Bool :=
  let (_, s) := splitSign text.toList
  text ∈ ["<<", "="] || isInSixties s || lacksDigits s || isDated text.toList

/-- The value that a plain scalar stands for. -/
def plainValue (text : String) : Except YamlError Json :=
  if text ∈ nullTexts then .ok .null
  else if text ∈ trueTexts then .ok (.bool true)
  else if text ∈ falseTexts then .ok (.bool false)
  else if isUnsupported text then .error (.unsupportedPlain text)
  else
    let (negative, s) := splitSign text.toList
    match wholeNumber? s with
    | some n => .ok (.int (if negative then -(n : Int) else n))
    | none =>
      match (pointNumber? text.toList).or (specialNumber? text) with
      | some x => .ok (.float x)
      | none => .ok (.str text)

/-- The text of a key. -/
def keyText : Json → Except YamlError String
  | .str s => .ok s
  | .arr _ => .error .keyNotScalar
  | .obj _ => .error .keyNotScalar
  | _ => .error .keyNotText

/-! ### Documents -/

/-- Whether the tokens go on with one of these. -/
def startsWith (marks : List Token) : List Token → Bool
  | [] => false
  | t :: _ => t ∈ marks

mutual

/-- The value at the head of the tokens, and the tokens after it. `indentless` allows a sequence
whose entries stand at the column of the key before it. -/
def node (indentless : Bool) : Nat → List Token → Except YamlError (Json × List Token)
  | 0, _ => .error .unexpectedToken
  | fuel + 1, tokens =>
    match tokens with
    | .blockEntry :: _ =>
      if indentless then indentlessEntries fuel [] tokens else .error .unexpectedToken
    | .scalar true text :: tokens => (plainValue text).map (·, tokens)
    | .scalar false text :: tokens => .ok (.str text, tokens)
    | .flowSequenceStart :: tokens => flowItems fuel [] true tokens
    | .flowMappingStart :: tokens => flowFields fuel [] true tokens
    | .blockSequenceStart :: tokens => blockEntries fuel [] tokens
    | .blockMappingStart :: tokens => blockFields fuel [] tokens
    | _ => .error .unexpectedToken

/-- The value, or null before one of the marks. -/
def nodeUnless (marks : List Token) (indentless : Bool) :
    Nat → List Token → Except YamlError (Json × List Token)
  | 0, _ => .error .unexpectedToken
  | fuel + 1, tokens =>
    if startsWith marks tokens then .ok (.null, tokens) else node indentless fuel tokens

/-- The rest of a block sequence; `items` are those so far, last first. -/
def blockEntries : Nat → List Json → List Token → Except YamlError (Json × List Token)
  | 0, _, _ => .error .unexpectedToken
  | fuel + 1, items, tokens =>
    match tokens with
    | .blockEntry :: tokens =>
      match nodeUnless [.blockEntry, .blockEnd] false fuel tokens with
      | .error e => .error e
      | .ok (item, tokens) => blockEntries fuel (item :: items) tokens
    | .blockEnd :: tokens => .ok (.arr items.reverse, tokens)
    | _ => .error .unexpectedToken

/-- The rest of a sequence that opens no block. -/
def indentlessEntries : Nat → List Json → List Token → Except YamlError (Json × List Token)
  | 0, _, _ => .error .unexpectedToken
  | fuel + 1, items, tokens =>
    match tokens with
    | .blockEntry :: tokens =>
      match nodeUnless [.blockEntry, .key, .value, .blockEnd] false fuel tokens with
      | .error e => .error e
      | .ok (item, tokens) => indentlessEntries fuel (item :: items) tokens
    | _ => .ok (.arr items.reverse, tokens)

/-- The rest of a block mapping. -/
def blockFields : Nat → Json.Fields → List Token → Except YamlError (Json × List Token)
  | 0, _, _ => .error .unexpectedToken
  | fuel + 1, fields, tokens =>
    match tokens with
    | .key :: tokens =>
      match nodeUnless [.key, .value, .blockEnd] true fuel tokens with
      | .error e => .error e
      | .ok (key, tokens) =>
        match fieldValue [.key, .value, .blockEnd] true fuel tokens with
        | .error e => .error e
        | .ok (value, tokens) =>
          match keyText key with
          | .error e => .error e
          | .ok key => blockFields fuel (Json.Fields.set fields key value) tokens
    | .blockEnd :: tokens => .ok (.obj fields, tokens)
    | _ => .error .unexpectedToken

/-- The value after a key, null if there is no colon or nothing after it. -/
def fieldValue (marks : List Token) (indentless : Bool) :
    Nat → List Token → Except YamlError (Json × List Token)
  | 0, _ => .error .unexpectedToken
  | fuel + 1, tokens =>
    match tokens with
    | .value :: tokens => nodeUnless marks indentless fuel tokens
    | _ => .ok (.null, tokens)

/-- The rest of a sequence in brackets; `first` says that no item has come yet. An item may be a
single field without braces. -/
def flowItems : Nat → List Json → Bool → List Token → Except YamlError (Json × List Token)
  | 0, _, _, _ => .error .unexpectedToken
  | fuel + 1, items, first, tokens =>
    match tokens with
    | .flowSequenceEnd :: tokens => .ok (.arr items.reverse, tokens)
    | _ =>
      match flowSeparated first tokens with
      | .error e => .error e
      | .ok tokens =>
        match tokens with
        | .flowSequenceEnd :: tokens => .ok (.arr items.reverse, tokens)
        | .key :: tokens =>
          match flowField [.flowEntry, .flowSequenceEnd] fuel tokens with
          | .error e => .error e
          | .ok ((key, value), tokens) => flowItems fuel (.obj [(key, value)] :: items) false tokens
        | _ =>
          match node false fuel tokens with
          | .error e => .error e
          | .ok (item, tokens) => flowItems fuel (item :: items) false tokens

/-- The rest of a mapping in braces. A field without a colon holds null. -/
def flowFields : Nat → Json.Fields → Bool → List Token → Except YamlError (Json × List Token)
  | 0, _, _, _ => .error .unexpectedToken
  | fuel + 1, fields, first, tokens =>
    match tokens with
    | .flowMappingEnd :: tokens => .ok (.obj fields, tokens)
    | _ =>
      match flowSeparated first tokens with
      | .error e => .error e
      | .ok tokens =>
        match tokens with
        | .flowMappingEnd :: tokens => .ok (.obj fields, tokens)
        | .key :: tokens =>
          match flowField [.flowEntry, .flowMappingEnd] fuel tokens with
          | .error e => .error e
          | .ok ((key, value), tokens) =>
            flowFields fuel (Json.Fields.set fields key value) false tokens
        | _ =>
          match node false fuel tokens with
          | .error e => .error e
          | .ok (key, tokens) =>
            match keyText key with
            | .error e => .error e
            | .ok key => flowFields fuel (Json.Fields.set fields key .null) false tokens

/-- A field in brackets or braces, after its key mark. -/
def flowField (marks : List Token) :
    Nat → List Token → Except YamlError ((String × Json) × List Token)
  | 0, _ => .error .unexpectedToken
  | fuel + 1, tokens =>
    match nodeUnless (.value :: marks) false fuel tokens with
    | .error e => .error e
    | .ok (key, tokens) =>
      match fieldValue marks false fuel tokens with
      | .error e => .error e
      | .ok (value, tokens) => (keyText key).map fun key => ((key, value), tokens)

/-- The tokens after the comma that every item but the first needs. -/
def flowSeparated (first : Bool) (tokens : List Token) : Except YamlError (List Token) :=
  if first then .ok tokens
  else
    match tokens with
    | .flowEntry :: tokens => .ok tokens
    | _ => .error .unexpectedToken

end

/-- The value of a document's content. -/
def content (tokens : List Token) : Except YamlError (Json × List Token) :=
  match tokens with
  | [] => .ok (.null, [])
  | .documentStart :: _ => .ok (.null, tokens)
  | .documentEnd :: _ => .ok (.null, tokens)
  | _ => node false (3 * tokens.length + 3) tokens

/-- The value of the only document of a text, null if there is none. -/
def parse (text : String) : Except YamlError Json := do
  let tokens ← Token.ofText text.toList
  let (value, rest) ← match tokens with
    | .documentStart :: tokens => content tokens
    | .documentEnd :: _ => throw .unexpectedToken
    | tokens => content tokens
  match rest.dropWhile (· = .documentEnd) with
  | [] => return value
  | .documentStart :: _ => throw .severalDocuments
  | _ => throw .unexpectedToken

end RequestGen.Yaml
