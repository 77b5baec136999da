import RequestGen.Files.Access
import RequestGen.Json.Integers
import RequestGen.Yaml.Document

/-! # Reading YAML

The reader of documents that the program comes with. -/

namespace RequestGen.Yaml

/-- What a text is read as. -/
def read (text : String) : Reading :=
  match parse text with
  | .error (.noCharacter code) => .breaks (.ofCode code)
  | .error error => .invalid error.message
  | .ok value =>
    match value.longInteger? with
    | some digits => .breaks (.longInteger digits)
    | none => .value value

end RequestGen.Yaml
