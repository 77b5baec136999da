import RequestGen.Text.Half
import RequestGen.Yaml.Read

/-! # Files

A `Workspace` holds texts and directories under their places, and which directory is current. A
path leads somewhere only if every step on its way is a directory, also where a step up takes it
back. Reading tells a path that leads nowhere from one that cannot be read; writing makes the
directories on the way. What else a program needs are the `Surroundings`: they read documents, and
they may keep only part of a text. -/

namespace RequestGen

/-- What a program meets besides its files. -/
structure Surroundings where
  /-- What the text of a file is read as. -/
  document : String → Reading
  /-- The part of a text that a file keeps, and why no more; none if it keeps the text. -/
  keeps : String → Option (String × ValueFault)
  /-- What keeps a text from being the name of a file at all. -/
  misnames : String → Option ValueFault
  /-- Why the standard output does not take a text. -/
  refuses : String → Option ValueFault

namespace Surroundings

variable (s : Surroundings) (text : String)

/-- What a file keeps of a text. -/
def part : String := ((s.keeps text).map Prod.fst).getD text

/-- Whether a file keeps a text. -/
def kept : Except WriteFault Unit :=
  match s.keeps text with
  | none => .ok ()
  | some (_, fault) => .error (.value fault)

/-- Why a text has no bytes. -/
def unencodable : Option ValueFault :=
  (Text.encodingFault? text).map .reported

/-- The surroundings of a workspace. A text without bytes is found out when its file is open. -/
def own : Surroundings where
  document := Yaml.read
  keeps text := (unencodable text).map ("", ·)
  misnames := unencodable
  refuses _ := none

end Surroundings

/-- What stands at a place. -/
inductive Workspace.Entry where
  | file (text : String)
  | directory
deriving DecidableEq

/-- A place: the steps to it from the root. -/
abbrev Place := List String

/-- Files and directories, and the current directory. -/
structure Workspace where
  current : Place
  entries : List (Place × Workspace.Entry) := []

namespace Workspace

variable (w : Workspace)

/-- What stands at a place. Around the current directory and around every entry are directories. -/
def entryAt (place : Place) : Option Entry :=
  match w.entries.lookup place with
  | some entry => some entry
  | none =>
    if place.isPrefixOf w.current || w.entries.any (fun (p, _) => place.isPrefixOf p) then
      some .directory
    else none

/-- Where a walk can end. -/
inductive Walk where
  | found (place : Place) (entry : Entry)
  /-- The directory is there, but nothing of that name in it. -/
  | absent (place : Place)
  /-- A directory on the way is missing. -/
  | missing
  /-- A file stands on the way. -/
  | blocked
  /-- The directory is there, but the name is too long for any directory. -/
  | tooLong

/-- The most bytes of a name. -/
def maxName : Nat := 255

/-- The most bytes of a path. -/
def maxPath : Nat := 4095

/-- One step from where a walk has come to. -/
def step (walk : Walk) (step : String) : Walk :=
  match walk with
  | .found place .directory =>
    if step = Path.up then .found place.dropLast .directory
    else if maxName < step.utf8ByteSize then .tooLong
    else
      match w.entryAt (place ++ [step]) with
      | some entry => .found (place ++ [step]) entry
      | none => .absent (place ++ [step])
  | .found _ (.file _) => .blocked
  | .absent _ => .missing
  | .missing => .missing
  | .blocked => .blocked
  | .tooLong => .tooLong

/-- Where a path leads. -/
def walk (path : Path) : Walk :=
  if maxPath < path.text.utf8ByteSize then .tooLong
  else path.steps.foldl w.step (.found (if path.isAbsolute then [] else w.current) .directory)

/-- The workspace with an entry at a place. -/
def put (place : Place) (entry : Entry) : Workspace :=
  { w with entries := (place, entry) :: w.entries.filter (·.1 ≠ place) }

/-- The text at the path, none if it leads nowhere. -/
def read (path : Path) : Except FileFault (Option String) :=
  if path.hasNull then .ok none
  else
    match w.walk path with
    | .found _ (.file text) => .ok (some text)
    | .found _ .directory => .error .isDirectory
    | .tooLong => .error .tooLong
    | _ => .ok none

/-- What changes a workspace. What it has changed before it fails stays changed. -/
abbrev Change := ExceptT FileFault (StateM Workspace)

/-- Makes a directory where a walk has ended, unless there is one. -/
def makeDirectory : Walk → Change Unit
  | .found _ .directory => return
  | .found _ (.file _) => throw .fileExists
  | .absent place => modify (·.put place .directory)
  | .missing => throw .notDirectory
  | .blocked => throw .notDirectory
  | .tooLong => throw .tooLong

/-- Makes a directory at the first `n` steps of a path. The directories before it are made only if
one is missing. -/
def makeDirectories (path : Path) : Nat → Change Unit
  | 0 => do makeDirectory ((← get).walk (path.first 0))
  | n + 1 => do
    match (← get).walk (path.first (n + 1)) with
    | .missing =>
      makeDirectories path n
      makeDirectory ((← get).walk (path.first (n + 1)))
    | walk => makeDirectory walk

/-- Puts a text at a path, in directories made for it. -/
def write (path : Path) (text : String) : Change Unit := do
  let around := path.parent
  if around.hasNull then throw .nullCharacter
  makeDirectories around around.steps.length
  if path.hasNull then throw .nullCharacter
  match (← get).walk path with
  | .found _ .directory => throw .isDirectory
  | .found place (.file _) => modify (·.put place (.file text))
  | .absent place => modify (·.put place (.file text))
  | .missing => throw .notDirectory
  | .blocked => throw .notDirectory
  | .tooLong => throw .tooLong

/-- The files under the current directory, by their paths from there. -/
def files : List (String × String) :=
  w.entries.filterMap fun (place, entry) =>
    match entry with
    | .directory => none
    | .file text =>
      if w.current.isPrefixOf place then
        some (String.intercalate "/" (place.drop w.current.length), text)
      else none

/-- The files that `w` has and `before` has not, or with another text. -/
def changesSince (before : Workspace) : List (String × String) :=
  w.files.filter fun file => file ∉ before.files

/-- Puts into a file what it keeps of a text. -/
def store (s : Surroundings) (path : Path) (text : String) :
    StateM Workspace (Except WriteFault Unit) := do
  match ← (write path (s.part text)).run with
  | .error fault => return .error (.file fault)
  | .ok () => return s.kept text

/-- The files of a workspace, to a program in some surroundings. -/
def accessIn (s : Surroundings) : FileAccess (StateM Workspace) where
  directory := do return (← get).current
  read path := do return (← get).read path
  write := store s
  document := s.document
  misnames := s.misnames
  accepts text := return match s.refuses text with
    | none => .ok ()
    | some fault => .error fault

/-- The files of a workspace, to a program. -/
def access : FileAccess (StateM Workspace) := accessIn .own

end Workspace

end RequestGen
