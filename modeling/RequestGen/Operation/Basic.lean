import RequestGen.Json.Basic

/-! # Operations

An `Operation` is everything known about one HTTP operation: its verb, the arguments of the
function that will request it, the types of its body and responses, and the overrides that shape
the generated code. An `Endpoint` is an operation with its route, in the two spellings that the
code and the document use. -/

namespace RequestGen

/-- A symbol that generated code imports. -/
structure Import where
  name : String
  schemaName : Option String := none
  localAlias : Option String := none
  isDefault : Bool := false
  isValue : Bool := false
  /-- Whether the package is a default import only where the compiler makes one up. -/
  isSynthetic : Bool := false
deriving DecidableEq

/-- The name under which code refers to the symbol: the alias, unless there is none or it is
empty. -/
def Import.localName (i : Import) : String :=
  match i.localAlias with
  | none => i.name
  | some a => if a = "" then i.name else a

/-- A named model type with the text of its declaration. -/
structure ModelType where
  name : String
  model : String := ""
  imports : List Import := []

/-- What an argument of the request function carries. -/
inductive ArgumentKind where
  | pathParam
  | namedPathParams
  | body
  | queryParam
  | header
deriving DecidableEq

/-- One argument of the request function, in declaration order. -/
structure Argument where
  name : String
  /-- The argument with its type, such as `petId: string`. -/
  definition : String
  /-- The argument as the parameter list writes it, such as `params?: ListPetsParams`. -/
  implementation : String
  initial : Json := .null
  required : Bool := true
  kind : ArgumentKind := .pathParam
  /-- For named path parameters, the list of names to take out, such as `{ petId, ownerId }`. -/
  destructured : String := ""
  schema : Option ModelType := none

/-- A resolved path parameter. -/
structure PathParam where
  name : String
  definition : String
  implementation : String
  initial : Json := .null
  required : Bool := true
  imports : List Import := []

/-- The one type that gathers the query (or header) parameters of an operation. -/
structure Aggregate where
  schema : ModelType
  deps : List ModelType := []
  isOptional : Bool := false

/-- A request body. The two form fields hold statements that encode the payload. -/
structure Body where
  /-- The name of the body's type. -/
  definition : String := ""
  /-- The identifier that holds the body. -/
  implementation : String := ""
  imports : List Import := []
  formData : Option String := none
  formUrlEncoded : Option String := none
  contentType : String := ""

/-- The type of the responses of one status: a code, a range such as `4XX`, or `default`. -/
structure StatusType where
  key : String
  value : String
  contentType : String := "application/json"

/-- The responses of an operation. -/
structure Response where
  imports : List Import := []
  success : String := ""
  errors : String := ""
  successTypes : List StatusType := []
  errorTypes : List StatusType := []
  contentTypes : List String := []
  isBlob : Bool := false

/-- The text, or `unknown` if it is empty. -/
def orUnknown (type : String) : String :=
  if type = "" then "unknown" else type

/-- The type that a successful request resolves to. -/
def Response.successType (r : Response) : String := orUnknown r.success

/-- The type of a failed request. -/
def Response.errorType (r : Response) : String := orUnknown r.errors

/-- A function of the user that replaces a part of the transport. -/
structure Mutator where
  name : String
  path : String := ""
  isDefault : Bool := false
  hasErrorType : Bool := false
  errorTypeName : String := ""
  hasSecondArg : Bool := false
  hasThirdArg : Bool := false
  isHook : Bool := false
  bodyTypeName : Option String := none

/-- Settings of the query-string serializer. -/
structure SerializerOptions where
  qs : Option Json.Fields := none

/-- Whether the serializer is given any setting. -/
def SerializerOptions.isSet (s : SerializerOptions) : Bool :=
  match s.qs with
  | none => false
  | some fields => !fields.isEmpty

/-- What happens to request options: the caller's are forwarded, there are none, or the caller's
are forwarded on top of literal ones. -/
inductive RequestOptions where
  | forward
  | drop
  | literal (fields : Json.Fields)

namespace RequestOptions

/-- Whether the caller may pass options. -/
def isTaken : RequestOptions → Bool
  | drop => false
  | _ => true

/-- The literal options. -/
def fields : RequestOptions → Json.Fields
  | literal fields => fields
  | _ => []

end RequestOptions

/-- Overrides of how one operation is generated. -/
structure Overrides where
  requestOptions : RequestOptions := .forward
  formDataDisabled : Bool := false
  formUrlEncoded : Bool := true
  /-- Whether all parameters are taken as one object. -/
  singleRequest : Bool := false
  serializerOptions : Option SerializerOptions := none

/-- An HTTP verb. -/
inductive Verb where
  | get
  | post
  | put
  | patch
  | delete
  | head
  | options
deriving DecidableEq

namespace Verb

/-- The verb as the transport's method of that name. -/
def name : Verb → String
  | get => "get"
  | post => "post"
  | put => "put"
  | patch => "patch"
  | delete => "delete"
  | head => "head"
  | options => "options"

def all : List Verb := [get, post, put, patch, delete, head, options]

/-- The verb of that name. -/
def ofName? (s : String) : Option Verb :=
  all.find? (·.name = s)

theorem ofName?_name (v : Verb) : ofName? v.name = some v := by
  cases v <;> decide

end Verb

/-- Everything known about one operation. -/
structure Operation where
  verb : Verb
  operationId : String := ""
  operationName : String
  summary : String := ""
  tags : List String := []
  response : Response := {}
  body : Body := {}
  headers : Option Aggregate := none
  queryParams : Option Aggregate := none
  params : List PathParam := []
  arguments : List Argument := []
  mutator : Option Mutator := none
  /-- Builds the form payload instead of the body's own statements. -/
  formData : Option Mutator := none
  /-- Builds the url-encoded payload instead of the body's own statements. -/
  formUrlEncoded : Option Mutator := none
  serializer : Option Mutator := none
  overrides : Overrides := {}
  deprecated : Bool := false

namespace Operation

/-- The arguments of the given kinds, in declaration order. -/
def argumentsOf (op : Operation) (kinds : List ArgumentKind) : List Argument :=
  op.arguments.filter (·.kind ∈ kinds)

/-- The argument that gathers the path parameters, if there is one. -/
def namedPathParams (op : Operation) : Option Argument :=
  op.arguments.find? (·.kind = .namedPathParams)

/-- The functions of the user that the operation names. -/
def mutators (op : Operation) : List Mutator :=
  [op.mutator, op.formData, op.formUrlEncoded, op.serializer].filterMap id

end Operation

/-- An operation with its route. -/
structure Endpoint where
  operation : Operation
  /-- The route as a template literal, such as `/pets/${petId}`. -/
  route : String
  /-- The route as the document spells it, such as `/pets/{petId}`. -/
  pathRoute : String

end RequestGen
