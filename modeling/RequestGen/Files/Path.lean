import RequestGen.Text.Pieces

/-! # Paths

A path is a list of steps from the root or, if it is relative, from the current directory. Steps
that stay in place are dropped when it is read; steps up are kept, because what they lead to depends
on the files there are. `Path.resolve` takes them back all the same, from left to right. -/

namespace RequestGen

/-- A path. -/
structure Path where
  /-- What stands before the first step: nothing for a relative path, else one slash or exactly
  two. -/
  root : String := ""
  steps : List String := []
deriving DecidableEq

namespace Path

/-- The step to the directory around. -/
def up : String := ".."

/-- The root of a path with that many slashes at its start. -/
def rootOf (slashes : Nat) : String :=
  if slashes = 0 then "" else if slashes = 2 then "//" else "/"

/-- The path that a text names. -/
def ofText (s : String) : Path where
  root := rootOf (s.toList.takeWhile (· = '/')).length
  steps := ((Text.splitOn '/' s.toList).map String.ofList).filter fun step =>
    step ≠ "" && step ≠ "."

variable (p : Path)

def isAbsolute : Bool := p.root ≠ ""

/-- The path as text; the current directory is a point. -/
def text : String :=
  if p.root = "" && p.steps.isEmpty then "." else p.root ++ String.intercalate "/" p.steps

/-- The path without its last step. -/
def parent : Path := { p with steps := p.steps.dropLast }

/-- The path of the first `n` steps. -/
def first (n : Nat) : Path := { p with steps := p.steps.take n }

/-- The path `q`, seen from the directory `p`. -/
def join (q : Path) : Path :=
  if q.isAbsolute then q else { p with steps := p.steps ++ q.steps }

/-- Whether a step holds a character that no file name holds. -/
def hasNull : Bool := p.steps.any fun step => step.toList.contains '\x00'

/-- The steps from the root, seen from a directory and without steps up. -/
def stepsFrom (directory : List String) : List String :=
  p.steps.foldl (fun steps step => if step = up then steps.dropLast else steps ++ [step])
    (if p.isAbsolute then [] else directory)

/-- The absolute path, seen from a directory and without steps up. -/
def resolve (directory : List String) : Path := ⟨"/", p.stepsFrom directory⟩

/-- The last step, empty for a path without steps. -/
def name : String := p.steps.getLast?.getD ""

/-- A name without its ending. A point at either end starts no ending. -/
def stemOf (name : List Char) : List Char :=
  let ending := name.reverse.takeWhile (· ≠ '.')
  let stem := (name.reverse.drop (ending.length + 1)).reverse
  if ending.isEmpty || stem.isEmpty then name else stem

/-- The last step without its ending. -/
def stem : String := String.ofList (stemOf p.name.toList)

theorem resolve_isAbsolute (directory : List String) : (p.resolve directory).isAbsolute = true := by
  simp [resolve, isAbsolute]

end Path

end RequestGen
