import RequestGen.Request.Single
import RequestGen.Text.Word
import RequestGen.Transport.Mutator

/-! # Request functions over axios and over a mutator

Both transports take either the list of the operation's arguments or a single request, encode the
body first where a form is sent, and return the transport's call. An axios function may be generic
over what its promise resolves to; a function of a mutator leaves its result type to the mutator. -/

namespace RequestGen

open Code (Expr)

namespace Operation

/-- The options parameter of a function that hands over to a mutator. -/
def mutatorOptionsParam (op : Operation) (output : OutputConfig) : Option Param :=
  match op.mutator with
  | none => none
  | some mutator =>
    if op.overrides.requestOptions.isTaken && mutator.hasSecondArg then
      some (.options (!output.optionsParamRequired) s!"SecondParameter<typeof {mutator.name}>")
    else none

/-- The options parameter of a function that calls axios. -/
def axiosOptionsParam (op : Operation) : Option Param :=
  if op.overrides.requestOptions.isTaken then some (.options true "AxiosRequestConfig") else none

/-- The statement that encodes the body, if it is sent in an encoded form. -/
def encodeStatements (op : Operation) (single : Bool) : List Statement :=
  if op.bodyForm single = "" then [] else [.encode (op.bodyForm single)]

end Operation

/-- Whether the text goes on with the type `definition`, after at most one blank, and with no
further character of a name. The rest after it. -/
def typeAfter? (definition s : List Char) : Option (List Char) :=
  let exact (s : List Char) : Option (List Char) :=
    if definition.isPrefixOf s then
      let rest := s.drop definition.length
      if rest.head?.any Text.isNameChar then none else some rest
    else none
  match s with
  | [] => exact []
  | c :: s => if Text.isBlank c then (exact s).or (exact (c :: s)) else exact (c :: s)

/-- The parameter list with the first annotation of the type `definition` wrapped. -/
def wrapType (definition wrapper : List Char) : List Char → List Char
  | [] => []
  | c :: s =>
    match if c = ':' then typeAfter? definition s else none with
    | some rest => ':' :: ' ' :: wrapper ++ '<' :: definition ++ '>' :: rest
    | none => c :: wrapType definition wrapper s

/-- The parameter list with the type of the body in the wrapper that a mutator names. -/
def wrapBodyType (list : String) (body : Body) (wrapper : String) : String :=
  String.ofList (wrapType body.definition.toList wrapper.toList list.toList)

namespace Endpoint

variable (ctx : Context) (e : Endpoint)

/-- What the config of an axios call of the operation depends on. -/
def configInput : ConfigInput where
  response := e.operation.response
  queryParams := e.operation.queryParams
  headers := e.operation.headers
  requestOptions := e.operation.overrides.requestOptions
  exactOptional := ctx.output.exactOptional
  serializer := e.operation.serializer
  serializerOptions := e.operation.overrides.serializerOptions

/-- What the config of a mutator call of the operation depends on. -/
def mutatorInput : MutatorInput where
  route := e.route
  method := e.operation.verb.name
  body := e.operation.callBody
  response := e.operation.response
  headers := e.operation.headers
  queryParams := e.operation.queryParams
  forms := e.operation.forms
  exactOptional := ctx.output.exactOptional

/-- The config of a mutator call of the operation. -/
def mutatorConfig : Expr := (e.mutatorInput ctx).config

/-- The arguments of an axios call of the operation. -/
def axiosCallArgs : List Expr :=
  axiosArgs e.route e.operation.verb.name e.operation.callBody e.operation.forms
    (e.configInput ctx)

/-- The axios call of the operation. Where packages have no default import, axios is reached as a
member of its namespace. -/
def axiosCall : Expr :=
  let client := if ctx.output.allowsSyntheticDefault then "axios" else "axios.default"
  .call s!"{client}.{e.operation.verb.name}" (e.axiosCallArgs ctx)

/-- The type of an axios response of the operation. -/
def axiosResponseType : String := s!"AxiosResponse<{e.operation.response.successType}>"

/-- The parameter list of a function of a mutator, with the body's type wrapped if the mutator
names a wrapper. -/
def mutatorArgumentList (mutator : Mutator) : String :=
  let list := e.operation.argumentList
  match mutator.bodyTypeName with
  | none => list
  | some wrapper =>
    if wrapper ≠ "" ∧ e.operation.body.definition ≠ "" then
      wrapBodyType list e.operation.body wrapper
    else list

/-- The call of a mutator. -/
def mutatorCall (mutator : Mutator) (options : Option Expr) : Expr :=
  .call s!"{mutator.name}<{e.operation.response.successType}>"
    (e.mutatorConfig ctx :: options.toList)

/-- The second argument of a mutator's call with a list of arguments. -/
def mutatorSecondArgument (mutator : Mutator) : Option Expr :=
  if e.operation.overrides.requestOptions.isTaken then
    mutatorOptions e.operation.overrides.requestOptions mutator.hasSecondArg
  else none

/-- The function of a mutator that takes the list of arguments. -/
def mutatorFlat (mutator : Mutator) (exported : Bool) : RequestFunction where
  name := e.operation.operationName
  exported
  params :=
    .arguments (e.mutatorArgumentList mutator) ::
      (e.operation.mutatorOptionsParam ctx.output).toList
  statements := e.operation.encodeStatements false
  result := e.mutatorCall ctx mutator (e.mutatorSecondArgument mutator)

/-- The function of a mutator that takes a single request. -/
def mutatorSingle (mutator : Mutator) (exported : Bool) (request : SingleRequest) :
    RequestFunction where
  name := e.operation.operationName
  exported
  params := .request request.typeName :: (e.operation.mutatorOptionsParam ctx.output).toList
  statements := request.statements (e.operation.bodyForm true)
  result := e.mutatorCall ctx mutator
    ((e.operation.mutatorOptionsParam ctx.output).map fun _ => .name "options")
  declarations := request.declarations

/-- The function that hands the request over to the operation's mutator. -/
def mutatorRequest (exported : Bool) : Except Fault RequestFunction :=
  match e.operation.mutator with
  | none => .error (.noMutator e.operation.operationName)
  | some mutator =>
    if e.operation.overrides.singleRequest then
      (SingleRequest.ofEndpoint ctx e).map (e.mutatorSingle ctx mutator exported)
    else .ok (e.mutatorFlat ctx mutator exported)

/-- What all functions that call axios have in common. A generic one resolves to what its caller
asks for, which is the axios response unless said otherwise. -/
def axiosFrame (exported generic : Bool) : RequestFunction where
  name := e.operation.operationName
  exported
  generic := if generic then s!"<TData = {e.axiosResponseType}>" else ""
  params := e.operation.axiosOptionsParam.toList
  returnType := some (if generic then "Promise<TData>" else s!"Promise<{e.axiosResponseType}>")
  statements := e.operation.encodeStatements false
  result := e.axiosCall ctx

/-- The function over axios that takes the list of arguments. -/
def axiosFlat (exported generic : Bool) : RequestFunction :=
  let frame := e.axiosFrame ctx exported generic
  { frame with params := .arguments e.operation.argumentList :: frame.params }

/-- The function over axios that takes a single request, if the request has any member. -/
def axiosSingle (exported generic : Bool) (request : SingleRequest) : RequestFunction :=
  let frame := { e.axiosFrame ctx exported generic with declarations := request.declarations }
  if request.hasRequest then
    { frame with
      params := .request request.typeName :: frame.params
      statements := request.statements (e.operation.bodyForm true) }
  else frame

/-- The function that calls axios. -/
def axiosRequest (exported generic : Bool) : Except Fault RequestFunction :=
  if e.operation.overrides.singleRequest then
    (SingleRequest.ofEndpoint ctx e).map (e.axiosSingle ctx exported generic)
  else .ok (e.axiosFlat ctx exported generic)

end Endpoint

end RequestGen
