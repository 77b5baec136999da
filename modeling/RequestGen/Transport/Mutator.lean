import RequestGen.Text.UpperCase
import RequestGen.Transport.Axios

/-! # Arguments of a mutator call

A mutator takes one config object with everything that the request needs, and a second argument for
the request options if it has one. -/

namespace RequestGen

open Code (Expr Entry)

/-- What the config of a mutator call depends on. -/
structure MutatorInput where
  route : String
  method : String
  body : Body
  response : Response
  headers : Option Aggregate := none
  queryParams : Option Aggregate := none
  forms : FormSupport := {}
  hasSignal : Bool := false
  exactOptional : Bool := false

/-- Query parameters and the decoding of a blob. -/
def queryEntries (response : Response) (queryParams : Option Aggregate) : List Entry :=
  entryIf queryParams.isSome (.shorthand "params") ++
    entryIf response.isBlob (.property "responseType" (.quoted "blob"))

namespace MutatorInput

variable (m : MutatorInput)

/-- The headers: the body's content type, with the header parameters merged over it. Form data sets
its own content type. -/
def headerEntries : List Entry :=
  if m.body.contentType ≠ "" ∧ m.body.contentType ≠ "multipart/form-data" then
    [.property "headers" (.object .tight
      (.property "Content-Type" (.quoted m.body.contentType) ::
        entryIf m.headers.isSome (.spread (.name "headers"))))]
  else entryIf m.headers.isSome (.shorthand "headers")

/-- The body, where the method carries one. -/
def dataEntries : List Entry :=
  if carriesBody m.method && m.body.payload m.forms ≠ "" then
    [.property "data" (.name (m.body.payload m.forms))]
  else []

/-- The config object. -/
def config : Expr :=
  .object .tight <|
    [.property "url" (.template m.route),
      .property "method" (.quoted (Text.upperCase m.method))] ++
    m.headerEntries ++ m.dataEntries ++ queryEntries m.response m.queryParams ++
    entryIf m.hasSignal (signalEntry m.exactOptional)

end MutatorInput

/-- The second argument of a mutator call. Literal options are written also for a mutator without a
second argument. -/
def mutatorOptions (options : RequestOptions) (hasSecondArg : Bool) : Option Expr :=
  match options with
  | .literal fields =>
    some (.object .tight
      (Entry.literals fields ++ entryIf hasSecondArg (.spread (.name "options"))))
  | _ => if hasSecondArg then some (.name "options") else none

end RequestGen
