import RequestGen.Command.Run
import Std.Time

/-! # The program

Runs the command on the files of the disk and under the environment of the process. -/

namespace RequestGen.Disk

/-- The environment of the process, as far as it can be read. -/
def environment : IO Variables := do
  try
    let text ← IO.FS.readFile "/proc/self/environ"
    return (Text.splitOn '\x00' text.toList).map fun assignment =>
      (String.ofList (assignment.takeWhile (· ≠ '=')),
        some (String.ofList ((assignment.dropWhile (· ≠ '=')).drop 1)))
  catch _ => return []

/-- The text of a file of the disk. -/
def read (path : Path) : IO (Except FileFault (Option String)) := do
  if path.hasNull then return .ok none
  try return .ok (some (← IO.FS.readFile path.text))
  catch
    | .noFileOrDirectory .. => return .ok none
    | .inappropriateType .. => return .error .isDirectory
    | .invalidArgument .. => return .error .tooLong
    | error => throw error

/-- Puts bytes into a file of the disk. -/
def put (path : Path) (text : String) : IO (Except FileFault Unit) := do
  if path.hasNull then return .error .nullCharacter
  try IO.FS.createDirAll path.parent.text
  catch
    | .alreadyExists .. => return .error .fileExists
    | .inappropriateType .. => return .error .notDirectory
    | .invalidArgument .. => return .error .tooLong
    | error => throw error
  try
    IO.FS.writeFile path.text text
    return .ok ()
  catch
    | .inappropriateType .. => return .error .isDirectory
    | .invalidArgument .. => return .error .tooLong
    | error => throw error

/-- Puts into a file of the disk what it keeps of a text. -/
def write (path : Path) (text : String) : IO (Except WriteFault Unit) := do
  match ← put path (Surroundings.own.part text) with
  | .error fault => return .error (.file fault)
  | .ok () => return Surroundings.own.kept text

/-- The files of the disk. -/
def files : FileAccess IO where
  directory := do return (Path.ofText (← IO.currentDir).toString).steps
  read := read
  write := write
  document := Surroundings.own.document
  misnames := Surroundings.own.misnames
  accepts text := return match Surroundings.unencodable text with
    | none => .ok ()
    | some fault => .error fault

/-- Runs a command line and writes what it comes to. -/
def run (words : List String) : IO UInt32 := do
  let outcome ← Command.run files (← environment) words
  let time := (← Std.Time.PlainDateTime.now).format "uuuu-MM-dd HH:mm:ss,SSS"
  for report in outcome.reports do
    IO.eprint (report.text time)
  IO.print outcome.output
  match outcome.exit with
  | .ok code => return code.toUInt32
  | .error fault =>
    IO.eprintln (fault.message.getD "The run is broken off.")
    return 1

end RequestGen.Disk

def main (words : List String) : IO UInt32 := RequestGen.Disk.run words
