import RequestGen.Yaml.Scalar

/-! # From YAML text to tokens

Outside brackets, blocks are told by columns: a line that starts further right than the innermost
block opens one, and a line further left closes blocks. A key is only known as one when its colon is
reached, so where a key may start its place among the tokens is kept, and the colon puts the key's
token there. A key must lie on one line and be at most 1024 characters long. -/

namespace RequestGen.Yaml

/-- Where a key may have started. -/
structure PossibleKey where
  /-- How many tokens come before it. -/
  position : Nat
  /-- Whether the block can only go on with a key here. -/
  required : Bool
  spot : Spot

/-- The state between two tokens. -/
structure Lexer where
  rest : List Spot
  /-- The tokens so far, last first. -/
  tokens : List Token := []
  count : Nat := 0
  /-- The column of the innermost block; -1 outside any. -/
  indent : Int := -1
  /-- The columns of the blocks around it. -/
  outer : List Int := []
  /-- The depth of brackets. -/
  flow : Nat := 0
  /-- Whether a key may start here. -/
  allowKey : Bool := true
  /-- Where a key may have started, by depth of brackets. -/
  keys : List (Nat × PossibleKey) := []

namespace Lexer

variable (l : Lexer)

def inFlow : Bool := l.flow != 0

def column : Nat := Yaml.column l.rest

def push (t : Token) : Lexer := { l with tokens := t :: l.tokens, count := l.count + 1 }

/-- The tokens with more put in after the first `position`. -/
def insertAt (position : Nat) (more : List Token) : Lexer :=
  let later := l.count - position
  { l with
    tokens := l.tokens.take later ++ more.reverse ++ l.tokens.drop later
    count := l.count + more.length }

def skip (n : Nat) : Lexer := { l with rest := l.rest.drop n }

/-- Without the place where a key may have started at this depth. A required key has to have had
its colon by now. -/
def dropKey : Except YamlError Lexer :=
  match l.keys.lookup l.flow with
  | none => .ok l
  | some key =>
    if key.required then .error .missingColon
    else .ok { l with keys := l.keys.filter (·.1 != l.flow) }

/-- Remembers that a key may start here. -/
def saveKey : Except YamlError Lexer :=
  if l.allowKey then do
    let l ← l.dropKey
    let spot := (l.rest.head?).getD ⟨endMark, 0, 0, 0⟩
    let key : PossibleKey := {
      position := l.count
      required := !l.inFlow && l.indent == spot.column
      spot }
    return { l with keys := (l.flow, key) :: l.keys }
  else .ok l

/-- Whether a place is too far back for a key that ends at the head of the rest. -/
def isStale (key : PossibleKey) : Bool :=
  match l.rest with
  | [] => true
  | p :: _ => key.spot.line != p.line || key.spot.index + 1024 < p.index

/-- Without the places that are too far back. -/
def dropStaleKeys : Except YamlError Lexer :=
  if l.keys.any fun (_, key) => l.isStale key && key.required then .error .missingColon
  else .ok { l with keys := l.keys.filter fun (_, key) => !l.isStale key }

/-- Closes the blocks that are further right than the column. -/
def closeBlocks (column : Int) : List Int → Lexer → Lexer
  | [], l => l
  | outer :: rest, l =>
    if column < l.indent then
      closeBlocks column rest (({ l with indent := outer, outer := rest }).push .blockEnd)
    else l

/-- Closes the blocks that end before the column. Brackets keep their blocks open. -/
def unwind (column : Int) : Lexer :=
  if l.inFlow then l else closeBlocks column l.outer l

/-- Whether the column opens a block, and the state with it open. -/
def openBlock (column : Nat) : Bool × Lexer :=
  if l.indent < column then
    (true, { l with indent := column, outer := l.indent :: l.outer })
  else (false, l)

/-- Skips blanks, comments and line ends. A new line allows a key. -/
def skipGaps : Nat → Lexer → Lexer
  | 0, l => l
  | fuel + 1, l =>
    let rest := l.rest.dropWhile (·.char == ' ')
    let rest := if here rest == '#' then rest.dropWhile fun p => !isBreakOrEnd p.char else rest
    if isBreak (here rest) then
      skipGaps fuel { l with rest := rest.drop 1, allowKey := l.allowKey || !l.inFlow }
    else { l with rest }

def documentMark (t : Token) : Except YamlError Lexer := do
  let l ← (l.unwind (-1)).dropKey
  return (({ l with allowKey := false }).push t).skip 3

def openFlow (t : Token) : Except YamlError Lexer := do
  let l ← l.saveKey
  return (({ l with flow := l.flow + 1, allowKey := true }).push t).skip 1

def closeFlow (t : Token) : Except YamlError Lexer := do
  if l.flow = 0 then throw .unmatchedBracket
  let l ← l.dropKey
  return (({ l with flow := l.flow - 1, allowKey := false }).push t).skip 1

def flowEntry : Except YamlError Lexer := do
  let l ← l.dropKey
  return (({ l with allowKey := true }).push .flowEntry).skip 1

/-- Opens a block of that kind here, unless one is open at this column. `misplaced` is raised where
no block may start. -/
def startBlock (t : Token) (misplaced : YamlError) : Except YamlError Lexer :=
  if l.inFlow then .ok l
  else if !l.allowKey then .error misplaced
  else
    match l.openBlock l.column with
    | (true, l) => .ok (l.push t)
    | (false, l) => .ok l

def blockEntry : Except YamlError Lexer := do
  let l ← l.startBlock .blockSequenceStart .misplacedEntry
  let l ← l.dropKey
  return (({ l with allowKey := true }).push .blockEntry).skip 1

def explicitKey : Except YamlError Lexer := do
  let l ← l.startBlock .blockMappingStart .misplacedKey
  let l ← l.dropKey
  return (({ l with allowKey := !l.inFlow }).push .key).skip 1

/-- A colon: the key before it becomes one, or else the value has none. -/
def value : Except YamlError Lexer :=
  match l.keys.lookup l.flow with
  | some key =>
    let l := { l with keys := l.keys.filter (·.1 != l.flow) }
    let l :=
      if l.inFlow then l.insertAt key.position [.key]
      else
        match l.openBlock key.spot.column with
        | (true, l) => l.insertAt key.position [.blockMappingStart, .key]
        | (false, l) => l.insertAt key.position [.key]
    .ok ((({ l with allowKey := false }).push .value).skip 1)
  | none => do
    let l ← l.startBlock .blockMappingStart .misplacedValue
    let l := { l with allowKey := !l.inFlow }
    let l ← l.dropKey
    return (l.push .value).skip 1

def quotedScalar (double : Bool) : Except YamlError Lexer := do
  let l ← l.saveKey
  let (text, rest) ← quoted double l.rest
  return ({ l with allowKey := false, rest }).push (.scalar false text)

def plainScalar : Except YamlError Lexer := do
  let l ← l.saveKey
  let (text, crossed, rest) := plain l.inFlow (l.indent + 1) l.rest
  return ({ l with allowKey := crossed, rest }).push (.scalar true text)

def blockScalar : Except YamlError Lexer := do
  let l ← ({ l with allowKey := true }).dropKey
  let (text, rest) ← block l.indent l.rest
  return ({ l with rest }).push (.scalar false text)

/-- Whether a plain scalar may start with the character `c` before `n`. -/
def startsPlain (c n : Char) : Bool :=
  let marks := ['-', '?', ':', ',', '[', ']', '\x7b', '\x7d', '#', '&', '*', '!', '|', '>', '\'',
    '"', '%', '@', Char.ofNat 96]
  (!isGap c && c ∉ marks) || (!isGap n && (c == '-' || (!l.inFlow && (c == '?' || c == ':'))))

/-- The next token, with the blocks that it closes or opens; none at the end of the text. -/
def step : Except YamlError (Option Lexer) := do
  let l := skipGaps (l.rest.length + 1) l
  let l ← l.dropStaleKeys
  let l := l.unwind l.column
  let c := here l.rest
  let n := next l.rest
  if c == endMark then return none
  else if c == '%' && l.column == 0 then throw (.unsupported c)
  else if l.column == 0 && isSeparator '-' l.rest then l.documentMark .documentStart
  else if l.column == 0 && isSeparator '.' l.rest then l.documentMark .documentEnd
  else if c == '[' then l.openFlow .flowSequenceStart
  else if c == '\x7b' then l.openFlow .flowMappingStart
  else if c == ']' then l.closeFlow .flowSequenceEnd
  else if c == '\x7d' then l.closeFlow .flowMappingEnd
  else if c == ',' then l.flowEntry
  else if c == '-' && isGap n then l.blockEntry
  else if c == '?' && (l.inFlow || isGap n) then l.explicitKey
  else if c == ':' && (l.inFlow || isGap n) then l.value
  else if c == '*' || c == '&' || c == '!' then throw (.unsupported c)
  else if c == '|' && !l.inFlow then l.blockScalar
  else if c == '>' && !l.inFlow then throw (.unsupported c)
  else if c == '\'' then l.quotedScalar false
  else if c == '"' then l.quotedScalar true
  else if l.startsPlain c n then l.plainScalar
  else throw (.noToken c)

/-- The tokens up to the end of the text, in at most `fuel` steps. -/
def run : Nat → Lexer → Except YamlError (List Token)
  | 0, l => .ok l.tokens.reverse
  | fuel + 1, l =>
    match l.step with
    | .error e => .error e
    | .ok (some l) => run fuel l
    | .ok none => do
      let l := skipGaps (l.rest.length + 1) l
      let l ← l.dropStaleKeys
      let l ← (l.unwind (-1)).dropKey
      return l.tokens.reverse

end Lexer

/-- The tokens of a text. A byte order mark at its start is skipped. -/
def Token.ofText (text : List Char) : Except YamlError (List Token) :=
  match text.find? fun c => !isYamlChar c with
  | some c => .error (.unprintable c)
  | none =>
    let spots := layout text
    let spots := if here spots == '\ufeff' then spots.drop 1 else spots
    Lexer.run (text.length + 1) { rest := spots }

end RequestGen.Yaml
