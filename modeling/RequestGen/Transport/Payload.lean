import RequestGen.Operation.Basic
import RequestGen.Text.Pieces

/-! # Payloads

A body is sent as it is, or encoded as form data or as a url-encoded form. Form data wins where
both are described and enabled. The statements that encode it come with the body, where they speak
of it by its own identifier, or from a function of the user. -/

namespace RequestGen

/-- Which form encodings are enabled. -/
structure FormSupport where
  formData : Bool := true
  formUrlEncoded : Bool := true
deriving DecidableEq

/-- How a body is encoded for sending. -/
inductive FormEncoding where
  | formData
  | formUrlEncoded
deriving DecidableEq

/-- The identifier that the encoding statements declare. -/
def FormEncoding.identifier : FormEncoding → String
  | formData => "formData"
  | formUrlEncoded => "formUrlEncoded"

namespace Body

/-- The statements of the body for an encoding, empty if there are none. -/
def snippet (b : Body) : FormEncoding → String
  | .formData => b.formData.getD ""
  | .formUrlEncoded => b.formUrlEncoded.getD ""

/-- The encoding that a body is sent in, if any. -/
def encoding? (b : Body) (forms : FormSupport) : Option FormEncoding :=
  if forms.formData && b.snippet .formData ≠ "" then some .formData
  else if forms.formUrlEncoded && b.snippet .formUrlEncoded ≠ "" then some .formUrlEncoded
  else none

/-- What a transport call sends: the encoded payload or the body itself. -/
def payload (b : Body) (forms : FormSupport) : String :=
  match b.encoding? forms with
  | some encoding => encoding.identifier
  | none => b.implementation

/-- A snippet with the body's own identifier replaced. -/
def rename (snippet own identifier : String) : String :=
  if own = "" ∨ own = identifier then snippet
  else Text.replaceText own identifier snippet

/-- The statements that encode the body, empty if it is sent as it is. With `identifier` the body
is reached under that name. -/
def encode (b : Body) (forms : FormSupport) (formData formUrlEncoded : Option Mutator)
    (identifier : Option String) : String :=
  let name := match identifier with
    | none => b.implementation
    | some identifier => if identifier = "" then b.implementation else identifier
  match b.encoding? forms with
  | none => ""
  | some encoding =>
    let builder := match encoding with
      | .formData => formData
      | .formUrlEncoded => formUrlEncoded
    match builder with
    | some builder => s!"const {encoding.identifier} = {builder.name}({name});"
    | none => rename (b.snippet encoding) b.implementation name

end Body

/-- The verbs whose calls carry a body. -/
def carriesBody (method : String) : Bool :=
  method ∈ ["post", "put", "patch", "delete"]

end RequestGen
