import RequestGen.Files.Path
import RequestGen.Json.Basic
import RequestGen.Number.Limit
import RequestGen.Text.Lines

/-! # What a program sees of its surroundings

A program reads and writes files, has documents read, and shows text on the standard output. It does
so through `FileAccess` alone, so the same program runs on a disk and on a `Workspace`, with any
reader of documents. Each of these may fail: with a `FileFault` where a path does not lead to a
file, with a `ValueFault` where nothing can hold a value. -/

namespace RequestGen

/-- Why a file cannot be read or written. -/
inductive FileFault where
  | isDirectory
  /-- A directory is needed where a file stands. -/
  | fileExists
  /-- A file stands on the way. -/
  | notDirectory
  /-- The path holds a null character. -/
  | nullCharacter
  /-- The path or a name in it is too long. -/
  | tooLong
deriving DecidableEq

/-- The words for a fault with a path; what a directory or file in the way means is plain from its
kind. -/
def FileFault.message : FileFault → Option String
  | nullCharacter => some "embedded null byte"
  | _ => none

/-- A value that is spelled in a file or wanted in one, but that there is not. -/
inductive ValueFault where
  | longInteger (digits : Nat)
  /-- An escape with a code that is no character's. -/
  | noCharacter
  /-- An escape with a code of 32 bits. -/
  | longCode
  /-- Only the words for it are known. -/
  | reported (words : String)
deriving DecidableEq

namespace ValueFault

def message : ValueFault → Option String
  | longInteger digits =>
    some (s!"Exceeds the limit ({maxDigits} digits) for integer string conversion: value has " ++
      s!"{digits} digits; use sys.set_int_max_str_digits() to increase the limit")
  | noCharacter => some "chr() arg not in range(0x110000)"
  | longCode => none
  | reported words => some words

/-- What is wrong with an escape by its code. -/
def ofCode (code : Nat) : ValueFault :=
  if code < Nat.pow 2 31 then noCharacter else longCode

end ValueFault

/-- What a text is read as: a value, or no document with words for why, or it spells a value that
nothing can hold. -/
inductive Reading where
  | value (v : Json)
  | invalid (words : String)
  | breaks (fault : ValueFault)

/-- Why a text is not written, or not all of it. -/
inductive WriteFault where
  | file (fault : FileFault)
  | value (fault : ValueFault)
deriving DecidableEq

/-- What a program may do with its surroundings. -/
structure FileAccess (m : Type → Type) where
  /-- The steps from the root to the current directory. -/
  directory : m (List String)
  /-- The text of a file, none if there is nothing at the path. -/
  read : Path → m (Except FileFault (Option String))
  /-- Puts a text into a file and makes the directories that it needs. -/
  write : Path → String → m (Except WriteFault Unit)
  /-- What the text of a file is read as. -/
  document : String → Reading
  /-- What keeps a text from being the name of a file at all. -/
  misnames : String → Option ValueFault
  /-- Whether the standard output takes a text. -/
  accepts : String → m (Except ValueFault Unit)

/-- The text of a file with every line end read as a line feed. -/
def FileAccess.readText {m : Type → Type} [Monad m] (files : FileAccess m) (path : Path) :
    m (Except FileFault (Option String)) := do
  return (← files.read path).map (·.map fun text => String.ofList (Text.lineFeeds text.toList))

end RequestGen
