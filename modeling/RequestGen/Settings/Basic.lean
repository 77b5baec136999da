import RequestGen.Files.Access
import RequestGen.Output.Basic
import RequestGen.Record.Shape
import RequestGen.Settings.EnvFile

/-! # Settings

What a user sets once for all runs: how much is logged, where the templates are and the style of
jobs that choose none. A setting comes from a variable, in whatever case its name is written, of the
environment or else of the file `.env`. -/

namespace RequestGen

/-- The settings of a user. -/
structure Settings where
  logLevel : String := "WARNING"
  /-- The directory of the user's own templates. -/
  templates : Option Path := none
  style : Style := .functions

namespace Settings

/-- The file that may hold variables. -/
def file : Path := .ofText ".env"

/-- What all variables of settings begin with. -/
def family : String := "clientgen_"

/-- The last value that a variable has under any spelling of its name. -/
def held? (vars : Variables) (name : String) : Option String :=
  ((vars.reverse.find? fun (n, _) => n.map Char.toLower = family ++ name).map (·.2)).join

/-- A setting's value: in the environment, else in the file. -/
def value? (environment file : Variables) (name : String) : Option String :=
  (held? environment name).or (held? file name)

/-- The style of that name. -/
def styleOf (name : String) : Checked Style :=
  match Style.ofName? name with
  | some style => .ok style
  | none => .error [⟨["default_client"], .notOneOf (Style.all.map (·.name))⟩]

/-- The settings that variables make. -/
def ofVariables (environment file : Variables) : Checked Settings := do
  let style ← match value? environment file "default_client" with
    | none => pure .functions
    | some name => styleOf name
  return {
    logLevel := (value? environment file "log_level").getD "WARNING"
    templates := (value? environment file "templates_dir").map .ofText
    style }

/-- The file with variables. One that cannot be read is empty. -/
def loadFile {m : Type → Type} [Monad m] (files : FileAccess m) : m EnvFile := do
  match ← files.readText file with
  | .ok (some text) => return EnvFile.parse text
  | _ => return {}

/-- The settings under an environment with a file. -/
def ofFile (environment : Variables) (f : EnvFile) : Checked Settings :=
  ofVariables environment (EnvFile.resolve environment f.assignments)

end Settings

end RequestGen
