import RequestGen.Naming.Replacement
import RequestGen.Text.Pieces

/-! # Cleaning names

`sanitize` drops the characters that no name keeps. Blanks, underscores, dashes and dots stay
unless a replacement is given for them; a dollar sign stays always. -/

namespace RequestGen.Naming

/-- What replaces the separators of a name. -/
structure Separators where
  /-- A replacement template for each run of blanks. -/
  blanks : Option String := none
  underscore : Option String := none
  dash : Option String := none
  dot : Option String := none

/-- Whether a clean name keeps the character. -/
def isKept (c : Char) : Bool :=
  Text.isNameChar c || Text.isBlank c || c == '.' || c == '-'

/-- The text with each run of blanks replaced; `run` is the run read so far, last blank first. -/
def replaceBlanks (parts : List ReplacementPart) (run : List Char) : List Char → List Char
  | [] => if run.isEmpty then [] else Replacement.expand parts run.reverse
  | c :: s =>
    if Text.isBlank c then replaceBlanks parts (c :: run) s
    else if run.isEmpty then c :: replaceBlanks parts [] s
    else Replacement.expand parts run.reverse ++ c :: replaceBlanks parts [] s

/-- The text with one separator replaced, if a replacement is given. -/
def replaceSeparator (separator : Char) (replacement : Option String) (s : List Char) :
    List Char :=
  match replacement with
  | none => s
  | some new => Text.replace [separator] new.toList s

/-- The name with its separators replaced and without characters that no name keeps. -/
def sanitize (name : String) (separators : Separators := {}) :
    Except ReplacementError String := do
  let s ← match separators.blanks with
    | none => pure name.toList
    | some template => (Replacement.parse template).map (replaceBlanks · [] name.toList)
  let s := replaceSeparator '_' separators.underscore s
  let s := replaceSeparator '-' separators.dash s
  let s := replaceSeparator '.' separators.dot s
  return String.ofList (s.filter isKept)

/-- The name without characters that no name keeps. -/
def clean (name : String) : String :=
  String.ofList (name.toList.filter isKept)

end RequestGen.Naming
