import RequestGen.Number.Limit
import RequestGen.Text.Blank
import RequestGen.Text.Digit
import RequestGen.Text.Name

/-! # Replacement templates

The text that replaces a match may hold escapes: a backslash with `a`, `b`, `f`, `n`, `r`, `t`, `v`
or a backslash stands for that character, one with octal digits for that code, and `\g<0>` for the
matched text itself. A match has no parts, so a reference to any other group is refused, and so is
a backslash before any other letter or at the end. A group reference with nothing but a backslash
after it is refused for the backslash. -/

namespace RequestGen.Naming

/-- Why a replacement template is refused. -/
inductive ReplacementError where
  /-- An unknown escape, an unfinished one or a number of a group that does not exist. -/
  | badEscape
  /-- The name of a group that does not exist. -/
  | unknownGroup (name : String)
deriving DecidableEq

/-- A part of a replacement. -/
inductive ReplacementPart where
  | char (c : Char)
  | matched
deriving DecidableEq

namespace Replacement

def isOctal (c : Char) : Bool := '0' ≤ c && c ≤ '7'

/-- The number of octal digits. -/
def octalValue (digits : List Char) : Nat :=
  digits.foldl (fun n c => 8 * n + (c.toNat - 48)) 0

/-- The control character of a letter escape. -/
def controlOf : Char → Option Char
  | 'a' => some '\x07'
  | 'b' => some '\x08'
  | 'f' => some '\x0c'
  | 'n' => some '\n'
  | 'r' => some '\r'
  | 't' => some '\t'
  | 'v' => some '\x0b'
  | '\\' => some '\\'
  | _ => none

/-- Zeros, single underscores between them allowed. -/
def areZeros : List Char → Bool
  | [] => false
  | [c] => Text.isZero c
  | c :: '_' :: s => Text.isZero c && areZeros s
  | c :: s => Text.isZero c && areZeros s

/-- A blank next to a number. The four information separators are none here. -/
def isNumberBlank (c : Char) : Bool :=
  Text.isBlank c && !(28 ≤ c.toNat && c.toNat ≤ 31)

/-- The text without its sign. -/
def unsigned : List Char → List Char
  | '+' :: s => s
  | '-' :: s => s
  | s => s

/-- A spelling of the number zero: blanks around it, a sign before it, digits of any script. -/
def isZeroNumber (name : List Char) : Bool :=
  let digits := unsigned (Text.trim isNumberBlank name)
  areZeros digits && digits.countP (· ≠ '_') ≤ maxDigits

/-- The part that a group reference stands for. -/
def group (name : List Char) : Except ReplacementError ReplacementPart :=
  if Text.isName name then .error (.unknownGroup (String.ofList name))
  else if isZeroNumber name then .ok .matched
  else .error .badEscape

/-- What follows the backslash: the part and the rest of the template. -/
def escape : List Char → Except ReplacementError (List ReplacementPart × List Char)
  | [] => .error .badEscape
  | 'g' :: '<' :: s =>
    match s.dropWhile (· ≠ '>') with
    | [] => .error .badEscape
    | _ :: rest =>
      if rest = ['\\'] then .error .badEscape
      else (group (s.takeWhile (· ≠ '>'))).map fun part => ([part], rest)
  | '0' :: s =>
    let digits := (s.take 2).takeWhile isOctal
    .ok ([.char (Char.ofNat (octalValue digits))], s.drop digits.length)
  | c :: s =>
    if c.isDigit then
      match s with
      | d :: e :: rest =>
        if isOctal c && isOctal d && isOctal e && octalValue [c, d, e] < 256 then
          .ok ([.char (Char.ofNat (octalValue [c, d, e]))], rest)
        else .error .badEscape
      | _ => .error .badEscape
    else
      match controlOf c with
      | some control => .ok ([.char control], s)
      | none => if c.isAlpha then .error .badEscape else .ok ([.char '\\', .char c], s)

/-- The parts of a template, read with `fuel` steps at most. -/
def parseFuel : Nat → List Char → Except ReplacementError (List ReplacementPart)
  | 0, _ => .ok []
  | _, [] => .ok []
  | fuel + 1, '\\' :: s =>
    match escape s with
    | .error e => .error e
    | .ok (parts, rest) => (parseFuel fuel rest).map (parts ++ ·)
  | fuel + 1, c :: s => (parseFuel fuel s).map (.char c :: ·)

/-- The parts of a template. -/
def parse (template : String) : Except ReplacementError (List ReplacementPart) :=
  parseFuel template.length template.toList

/-- The text that replaces `found`. -/
def expand (parts : List ReplacementPart) (found : List Char) : List Char :=
  parts.flatMap fun
    | .char c => [c]
    | .matched => found

end Replacement

end RequestGen.Naming
