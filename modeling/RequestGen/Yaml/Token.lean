import RequestGen.Text.Half

/-! # YAML text and tokens

A text is laid out first: every character with its line and column, and an end mark after the last.
Tokens then carry no positions. Blocks are set off by tokens of their own for where the indentation
starts and ends one. -/

namespace RequestGen.Yaml

/-- Why a text is no YAML document that this reader takes. -/
inductive YamlError where
  | unprintable (c : Char)
  /-- No token starts with this character. -/
  | noToken (c : Char)
  | missingColon
  | misplacedEntry
  | misplacedKey
  | misplacedValue
  | unclosedQuote
  | separatorInQuote
  | badEscape (c : Char)
  /-- An escape with a code that is no character's. -/
  | noCharacter (code : Nat)
  | badBlockHeader
  | unmatchedBracket
  | unexpectedToken
  | keyNotScalar
  /-- A key that stands for null, a flag or a number is not read. -/
  | keyNotText
  | severalDocuments
  /-- Anchors, aliases, tags, folded scalars and directives are not read. -/
  | unsupported (c : Char)
  /-- A plain scalar that stands for a time, a merge or a number in sixties is not read. -/
  | unsupportedPlain (text : String)
deriving DecidableEq

namespace YamlError

def message : YamlError → String
  | unprintable _ => "special characters are not allowed"
  | noToken _ => "found a character that cannot start any token"
  | missingColon => "could not find the colon after a key"
  | misplacedEntry => "sequence entries are not allowed here"
  | misplacedKey => "mapping keys are not allowed here"
  | misplacedValue => "mapping values are not allowed here"
  | unclosedQuote => "found the end inside a quoted text"
  | separatorInQuote => "found a document separator inside a quoted text"
  | badEscape _ => "found an unknown escape"
  | noCharacter _ => "found an escape for no character"
  | badBlockHeader => "expected indicators, a comment or a line end after the block mark"
  | unmatchedBracket => "found a closing bracket that nothing opens"
  | unexpectedToken => "found something else than expected"
  | keyNotScalar => "found a key that is a collection"
  | keyNotText => "found a key that is no text"
  | severalDocuments => "expected a single document"
  | unsupported _ => "found a feature that is not supported"
  | unsupportedPlain _ => "found a plain text that is not supported"

end YamlError

/-- A token. -/
inductive Token where
  | documentStart
  | documentEnd
  | blockSequenceStart
  | blockMappingStart
  | blockEnd
  | flowSequenceStart
  | flowSequenceEnd
  | flowMappingStart
  | flowMappingEnd
  | blockEntry
  | flowEntry
  | key
  | value
  /-- A text; a plain one may stand for a number, a flag or null. -/
  | scalar (plain : Bool) (text : String)
deriving DecidableEq

/-- A character in its place. -/
structure Spot where
  char : Char
  line : Nat
  column : Nat
  index : Nat

/-- What stands after the last character. -/
def endMark : Char := '\x00'

/-- A line end. -/
def isBreak (c : Char) : Bool :=
  c == '\n' || c == '\r' || c == '\x85' || c == '\u2028' || c == '\u2029'

/-- A line end or the end of the text. -/
def isBreakOrEnd (c : Char) : Bool := isBreak c || c == endMark

/-- A blank, a line end or the end of the text. -/
def isGap (c : Char) : Bool := isBreakOrEnd c || c == ' ' || c == '\t'

/-- The characters of a text in their places. A byte order mark takes no column. -/
def layoutFrom (line column index : Nat) : List Char → List Spot
  | [] => [⟨endMark, line, column, index⟩]
  | c :: s =>
    ⟨c, line, column, index⟩ ::
      if isBreak c then layoutFrom (line + 1) 0 (index + 1) s
      else layoutFrom line (if c = '\ufeff' then column else column + 1) (index + 1) s

/-- The whole text in its places. -/
def layout (s : List Char) : List Spot := layoutFrom 0 0 0 s

/-- The character at the head of the rest. -/
def here : List Spot → Char
  | [] => endMark
  | p :: _ => p.char

/-- The character after the head. -/
def next (s : List Spot) : Char := here (s.drop 1)

/-- The column at the head of the rest. -/
def column : List Spot → Nat
  | [] => 0
  | p :: _ => p.column

/-- The characters of some spots. -/
def chars (s : List Spot) : List Char := s.map (·.char)

/-- Whether the rest starts with three marks `c` that stand alone. -/
def isSeparator (c : Char) : List Spot → Bool
  | p :: q :: r :: s => p.char == c && q.char == c && r.char == c && isGap (here s)
  | _ => false

/-- Whether a document starts or ends at the head of the rest. -/
def atSeparator (s : List Spot) : Bool := isSeparator '-' s || isSeparator '.' s

/-- What a line end is read as. -/
def breakText (c : Char) : Char :=
  if c == '\u2028' || c == '\u2029' then c else '\n'

/-- Whether a text may hold the character. The characters that stand for halves are kept apart. -/
def isYamlChar (c : Char) : Bool :=
  let n := c.toNat
  c == '\t' || c == '\n' || c == '\r' || (32 ≤ n && n < 127) || c == '\x85' ||
    (0xa0 ≤ n && n < 0xd800) || (0xe000 ≤ n && n < 0xfffe) || (0x10000 ≤ n && !Text.isHalf c)

end RequestGen.Yaml
