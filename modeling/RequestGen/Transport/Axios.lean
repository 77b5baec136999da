import RequestGen.Code.Expr
import RequestGen.Transport.Payload

/-! # Arguments of an axios call

The last argument of an axios call is its config. Where nothing has to be added the caller's options
are passed on as they are; else the config is an object of the literal options, the caller's options
spread after them, and what the query parameters, the headers and the kind of the response need. A
call of `delete` carries its body inside the config. -/

namespace RequestGen

open Code (Expr Entry)

/-- What the config of a call depends on. -/
structure ConfigInput where
  response : Response
  queryParams : Option Aggregate := none
  headers : Option Aggregate := none
  requestOptions : RequestOptions := .forward
  /-- Whether the caller holds a signal to abort the request. -/
  hasSignal : Bool := false
  exactOptional : Bool := false
  serializer : Option Mutator := none
  serializerOptions : Option SerializerOptions := none

/-- The config argument. -/
inductive AxiosConfig where
  | absent
  /-- The caller's options as they are. -/
  | forwarded
  | object (entries : List Entry)

/-- The signal as an entry. Where optional properties may not hold `undefined` it is only there if
it is set. -/
def signalEntry (exactOptional : Bool) : Entry :=
  if exactOptional then .spread (.whenSet "signal") else .shorthand "signal"

/-- The entry if the condition holds. -/
def entryIf (condition : Bool) (entry : Entry) : List Entry :=
  if condition then [entry] else []

namespace ConfigInput

variable (c : ConfigInput)

/-- Whether the caller's options do not suffice. -/
def needsConfig : Bool :=
  c.queryParams.isSome || c.headers.isSome || c.response.isBlob || c.response.success = "string"

/-- Query parameters, headers and signal, where no options bring them along. -/
def ownEntries : List Entry :=
  if c.requestOptions.isTaken then []
  else
    entryIf c.queryParams.isSome (.shorthand "params") ++
      entryIf c.headers.isSome (.shorthand "headers") ++
      entryIf c.hasSignal (signalEntry c.exactOptional)

/-- How the response is decoded, unless the literal options say so. -/
def responseTypeEntries : List Entry :=
  if Json.Fields.has c.requestOptions.fields "responseType" then []
  else if c.response.isBlob then [.property "responseType" (.quoted "blob")]
  else if c.response.contentTypes.head? = some "text/plain" then
    [.property "responseType" (.quoted "text")]
  else []

/-- `name: {...name, ...options?.name}` -/
def merged (name : String) : Entry :=
  .property name
    (.object .tight [.spread (.name name), .spread (.optionalMember "options" name)])

/-- The caller's options, and what is merged with them. -/
def callerEntries : List Entry :=
  if c.requestOptions.isTaken then
    .spread (.name "options") :: entryIf c.queryParams.isSome (merged "params") ++
      entryIf c.headers.isSome (merged "headers")
  else []

/-- How query parameters are written. -/
def serializerEntries : List Entry :=
  if c.queryParams.isSome then
    match c.serializer with
    | some serializer => [.property "paramsSerializer" (.name serializer.name)]
    | none =>
      match c.serializerOptions with
      | some options =>
        if options.isSet then
          [.property "paramsSerializer" (.queryWriter (options.qs.getD []))]
        else []
      | none => []
  else []

/-- All entries of the config, in order. -/
def entries : List Entry :=
  c.ownEntries ++ c.responseTypeEntries ++ Entry.literals c.requestOptions.fields ++
    c.callerEntries ++ c.serializerEntries

/-- The config argument of a call. -/
def config : AxiosConfig :=
  if c.needsConfig then
    match c.entries with
    | [] => .absent
    | entries => .object entries
  else if c.requestOptions.isTaken then .forwarded
  else if c.hasSignal then .object [signalEntry c.exactOptional]
  else .absent

end ConfigInput

namespace AxiosConfig

/-- The config as an argument. -/
def args : AxiosConfig → List Expr
  | absent => []
  | forwarded => [.name "options"]
  | object entries => [.object .tight entries]

/-- The entries of an object that holds the config. -/
def spreadEntries : AxiosConfig → List Entry
  | absent => []
  | forwarded => [.spread (.name "options")]
  | object entries => entries

def render (config : AxiosConfig) : String := Code.renderArgs config.args

end AxiosConfig

/-- The arguments of an axios call of a method. -/
def axiosArgs (route method : String) (body : Body) (forms : FormSupport) (input : ConfigInput) :
    List Expr :=
  let payload := if carriesBody method then body.payload forms else ""
  let config := input.config
  if method = "delete" then
    if payload = "" then .template route :: config.args
    else
      [.template route,
        .object .tight (.property "data" (.name payload) :: config.spreadEntries)]
  else if carriesBody method then
    .template route :: .name (if payload = "" then "undefined" else payload) :: config.args
  else .template route :: config.args

end RequestGen
