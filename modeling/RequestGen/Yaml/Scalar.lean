import RequestGen.Yaml.Token

/-! # YAML scalars

The scanners of the three kinds of scalars: plain, quoted and block. Each gives the text that the
scalar stands for and the rest of the layout. Inside plain and quoted scalars a single line end is
read as a blank, and more of them as one less. -/

namespace RequestGen.Yaml

/-! ### Plain scalars -/

/-- Whether a plain scalar ends before the head of the rest. -/
def plainStops (inFlow : Bool) (s : List Spot) : Bool :=
  let c := here s
  isGap c ||
    (c == ':' && (isGap (next s) || (inFlow && (next s) ∈ [',', '[', ']', '\x7b', '\x7d']))) ||
    (inFlow && c ∈ [',', '?', '[', ']', '\x7b', '\x7d'])

/-- The part of a plain scalar up to the next blank. -/
def plainWord (inFlow : Bool) : List Spot → List Char × List Spot
  | [] => ([], [])
  | p :: s =>
    if plainStops inFlow (p :: s) then ([], p :: s)
    else
      let (word, rest) := plainWord inFlow s
      (p.char :: word, rest)

/-- The line ends here, blanks between them skipped, and the rest; none before a separator of
documents. -/
def plainBreaks : List Spot → Option (List Char × List Spot)
  | [] => some ([], [])
  | p :: s =>
    if p.char == ' ' then plainBreaks s
    else if isBreak p.char then
      if atSeparator s then none
      else (plainBreaks s).map fun (breaks, rest) => (breakText p.char :: breaks, rest)
    else some ([], p :: s)

/-- A line end and those after it, as text. -/
def foldBreaks (first : Char) (breaks : List Char) : List Char :=
  if breakText first != '\n' then breakText first :: breaks
  else if breaks.isEmpty then [' ']
  else breaks

/-- The gap between two words of a plain scalar: its text, whether it crosses a line end, and the
rest. -/
def plainGap (s : List Spot) : List Char × Bool × List Spot :=
  let blanks := s.takeWhile (·.char == ' ')
  let rest := s.dropWhile (·.char == ' ')
  match rest with
  | [] => (chars blanks, false, [])
  | p :: after =>
    if isBreak p.char then
      if atSeparator after then ([], true, after)
      else
        match plainBreaks after with
        | none => ([], true, after.dropWhile fun q => q.char == ' ' || isBreak q.char)
        | some (breaks, rest) => (foldBreaks p.char breaks, true, rest)
    else (chars blanks, false, rest)

/-- A plain scalar whose continuation lines start at column `indent` or later: its text, whether it
crosses a line end, and the rest. `gap` is the gap before this word. -/
def plainFrom (inFlow : Bool) (indent : Int) :
    Nat → List Char → Bool → List Spot → List Char × Bool × List Spot
  | 0, _, crossed, s => ([], crossed, s)
  | fuel + 1, gap, crossed, s =>
    if here s == '#' then ([], crossed, s)
    else
      match plainWord inFlow s with
      | ([], _) => ([], crossed, s)
      | (word, rest) =>
        let (nextGap, breaks, rest) := plainGap rest
        if nextGap.isEmpty || here rest == '#' || (!inFlow && (column rest : Int) < indent) then
          (gap ++ word, breaks, rest)
        else
          let (more, crossed, rest) := plainFrom inFlow indent fuel nextGap breaks rest
          (gap ++ word ++ more, crossed, rest)

/-- A plain scalar at the head of the rest. -/
def plain (inFlow : Bool) (indent : Int) (s : List Spot) : String × Bool × List Spot :=
  let (text, crossed, rest) := plainFrom inFlow indent s.length [] false s
  (String.ofList text, crossed, rest)

/-! ### Quoted scalars -/

/-- The character of a one-letter escape. -/
def escapeChar : Char → Option Char
  | '0' => some '\x00'
  | 'a' => some '\x07'
  | 'b' => some '\x08'
  | 't' => some '\t'
  | '\t' => some '\t'
  | 'n' => some '\n'
  | 'v' => some '\x0b'
  | 'f' => some '\x0c'
  | 'r' => some '\r'
  | 'e' => some '\x1b'
  | ' ' => some ' '
  | '"' => some '"'
  | '\\' => some '\\'
  | '/' => some '/'
  | 'N' => some '\x85'
  | '_' => some '\xa0'
  | 'L' => some '\u2028'
  | 'P' => some '\u2029'
  | _ => none

/-- How many hexadecimal digits an escape by code has. -/
def escapeWidth : Char → Option Nat
  | 'x' => some 2
  | 'u' => some 4
  | 'U' => some 8
  | _ => none

def hexValue? (c : Char) : Option Nat :=
  if c.isDigit then some (c.toNat - 48)
  else if 'a' ≤ c ∧ c ≤ 'f' then some (c.toNat - 87)
  else if 'A' ≤ c ∧ c ≤ 'F' then some (c.toNat - 55)
  else none

/-- The number of `width` hexadecimal digits at the head of the rest. -/
def hexNumber? (width : Nat) (s : List Spot) : Option Nat :=
  if s.length < width then none
  else (s.take width).foldlM (fun n p => (hexValue? p.char).map (16 * n + ·)) 0

/-- The character of a code by itself. -/
def charOf (code : Nat) : Char :=
  if 0xd800 ≤ code ∧ code < 0xe000 then Text.half code else Char.ofNat code

/-- The character of a code, and the rest. The two halves of a pair are taken together. -/
def codeChar (code : Nat) (rest : List Spot) : Char × List Spot :=
  match rest with
  | p :: q :: after =>
    if 0xd800 ≤ code ∧ code < 0xdc00 ∧ p.char = '\\' ∧ q.char = 'u' then
      match hexNumber? 4 after with
      | some low =>
        if 0xdc00 ≤ low ∧ low < 0xe000 then
          (Char.ofNat (0x10000 + (code - 0xd800) * 1024 + (low - 0xdc00)), after.drop 4)
        else (charOf code, rest)
      | none => (charOf code, rest)
    else (charOf code, rest)
  | _ => (charOf code, rest)

/-- The line ends here inside quotes, blanks around them skipped. -/
def quotedBreaks : Nat → List Spot → Except YamlError (List Char × List Spot)
  | 0, s => .ok ([], s)
  | fuel + 1, s =>
    if atSeparator s then .error .separatorInQuote
    else
      match s.dropWhile fun p => p.char == ' ' || p.char == '\t' with
      | [] => .ok ([], [])
      | p :: rest =>
        if isBreak p.char then
          (quotedBreaks fuel rest).map fun (breaks, rest) => (breakText p.char :: breaks, rest)
        else .ok ([], p :: rest)

/-- One step inside quotes: the text of what stands here, and the rest; none at the closing
quote. -/
def quotedStep (double : Bool) (s : List Spot) :
    Except YamlError (Option (List Char × List Spot)) :=
  let quote := if double then '"' else '\''
  match s with
  | [] => .error .unclosedQuote
  | p :: rest =>
    if p.char == endMark then .error .unclosedQuote
    else if p.char == quote then
      if !double && here rest == '\'' then .ok (some (['\''], rest.drop 1)) else .ok none
    else if double && p.char == '\\' then
      match rest with
      | [] => .error .unclosedQuote
      | e :: after =>
        match escapeChar e.char, escapeWidth e.char with
        | some c, _ => .ok (some ([c], after))
        | none, some width =>
          match hexNumber? width after with
          | none => .error (.badEscape e.char)
          | some code =>
            if 0x110000 ≤ code then .error (.noCharacter code)
            else if Text.firstHalf ≤ code then .error (.unsupported e.char)
            else
              let (c, after) := codeChar code (after.drop width)
              .ok (some ([c], after))
        | none, none =>
          if isBreak e.char then (quotedBreaks after.length after).map some
          else .error (.badEscape e.char)
    else if p.char == ' ' || p.char == '\t' then
      let blanks := (p :: rest).takeWhile fun q => q.char == ' ' || q.char == '\t'
      match (p :: rest).dropWhile fun q => q.char == ' ' || q.char == '\t' with
      | [] => .error .unclosedQuote
      | q :: after =>
        if q.char == endMark then .error .unclosedQuote
        else if isBreak q.char then
          (quotedBreaks (after.length + 1) after).map fun (breaks, rest) =>
            some (foldBreaks q.char breaks, rest)
        else .ok (some (chars blanks, q :: after))
    else if isBreak p.char then
      (quotedBreaks (rest.length + 1) rest).map fun (breaks, rest) =>
        some (foldBreaks p.char breaks, rest)
    else .ok (some ([p.char], rest))

/-- The inside of a quoted scalar, up to its closing quote, and the rest after that. -/
def quotedFrom (double : Bool) : Nat → List Spot → Except YamlError (List Char × List Spot)
  | 0, _ => .error .unclosedQuote
  | fuel + 1, s =>
    match quotedStep double s with
    | .error e => .error e
    | .ok none => .ok ([], s.drop 1)
    | .ok (some (text, rest)) =>
      match quotedFrom double fuel rest with
      | .error e => .error e
      | .ok (more, rest) => .ok (text ++ more, rest)

/-- A quoted scalar whose opening quote is the head of the rest. -/
def quoted (double : Bool) (s : List Spot) : Except YamlError (String × List Spot) :=
  (quotedFrom double s.length (s.drop 1)).map fun (text, rest) => (String.ofList text, rest)

/-! ### Block scalars -/

/-- What becomes of the line ends at the end of a block scalar. -/
inductive Chomping where
  | strip
  | clip
  | keep
deriving DecidableEq

/-- The indicators after the mark of a block scalar: chomping, the indentation if it is given, and
the rest. -/
def blockIndicators (s : List Spot) : Except YamlError (Chomping × Option Nat × List Spot) :=
  let chomp (s : List Spot) : Chomping × List Spot :=
    if here s == '+' then (.keep, s.drop 1)
    else if here s == '-' then (.strip, s.drop 1)
    else (.clip, s)
  let number (s : List Spot) : Option Nat × List Spot :=
    if (here s).isDigit then (some ((here s).toNat - 48), s.drop 1) else (none, s)
  let (chomping, s₁) := chomp s
  let (increment, s₂) := number s₁
  let (chomping, s₃) := if chomping = .clip && increment.isSome then chomp s₂ else (chomping, s₂)
  if increment = some 0 then .error .badBlockHeader
  else if here s₃ == ' ' || isBreakOrEnd (here s₃) then .ok (chomping, increment, s₃)
  else .error .badBlockHeader

/-- The rest after the line of the block mark, which holds nothing more than a comment. -/
def blockHeaderEnd (s : List Spot) : Except YamlError (List Spot) :=
  let s := s.dropWhile (·.char == ' ')
  let s := if here s == '#' then s.dropWhile fun p => !isBreakOrEnd p.char else s
  if isBreak (here s) then .ok (s.drop 1)
  else if here s == endMark then .ok s
  else .error .badBlockHeader

/-- The empty lines before the first line of a block scalar, and how far any of them, or the first
line, is indented. -/
def blockLead (deepest : Nat) : List Spot → List Char × Nat × List Spot
  | [] => ([], deepest, [])
  | p :: s =>
    if p.char == ' ' then blockLead (max deepest (p.column + 1)) s
    else if isBreak p.char then
      let (breaks, deepest, rest) := blockLead deepest s
      (breakText p.char :: breaks, deepest, rest)
    else ([], deepest, p :: s)

/-- The empty lines before the next line of a block scalar; blanks only up to its indentation are
skipped. -/
def blockBreaks (indent : Nat) : List Spot → List Char × List Spot
  | [] => ([], [])
  | p :: s =>
    if p.char == ' ' && p.column < indent then blockBreaks indent s
    else if isBreak p.char then
      let (breaks, rest) := blockBreaks indent s
      (breakText p.char :: breaks, rest)
    else ([], p :: s)

/-- The lines of a block scalar from here, where `lead` are the empty lines before this one: the
text without the last line end, that line end, the empty lines after it, and the rest. -/
def blockLines (indent : Nat) :
    Nat → List Char → List Spot → List Char × List Char × List Char × List Spot
  | 0, lead, s => ([], [], lead, s)
  | fuel + 1, lead, s =>
    if column s != indent || here s == endMark then ([], [], lead, s)
    else
      let line := chars (s.takeWhile fun p => !isBreakOrEnd p.char)
      let rest := s.dropWhile fun p => !isBreakOrEnd p.char
      let (lineEnd, rest) :=
        if isBreak (here rest) then ([breakText (here rest)], rest.drop 1) else ([], rest)
      let (breaks, rest) := blockBreaks indent rest
      if column rest == indent && here rest != endMark then
        let (more, lastEnd, trail, rest) := blockLines indent fuel breaks rest
        (lead ++ line ++ lineEnd ++ more, lastEnd, trail, rest)
      else (lead ++ line, lineEnd, breaks, rest)

/-- A literal block scalar whose mark is the head of the rest, inside a block at column
`parent`. -/
def block (parent : Int) (s : List Spot) : Except YamlError (String × List Spot) := do
  let (chomping, increment, s) ← blockIndicators (s.drop 1)
  let s ← blockHeaderEnd s
  let least := (max 1 (parent + 1)).toNat
  let (lead, indent, s) := match increment with
    | some n =>
      let indent := least + n - 1
      let (breaks, s) := blockBreaks indent s
      (breaks, indent, s)
    | none =>
      let (breaks, deepest, s) := blockLead 0 s
      (breaks, max least deepest, s)
  let (text, lineEnd, trail, rest) := blockLines indent s.length lead s
  let ending := match chomping with
    | .strip => []
    | .clip => lineEnd
    | .keep => lineEnd ++ trail
  return (String.ofList (text ++ ending), rest)

end RequestGen.Yaml
