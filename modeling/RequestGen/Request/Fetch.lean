import RequestGen.Request.Build
import RequestGen.Request.ResponseTypes

/-! # Request functions over fetch

An operation gets a function that builds its URL, the types of its responses if they are wanted,
and a function that sends the request. Without a mutator that function calls `fetch` and decodes
the body; with one, URL and init object are handed to the mutator. -/

namespace RequestGen

open Code (Expr Entry)

namespace Operation

/-- The name of the type that a fetch function resolves to. -/
def fetchResponseType (includeHttpResponse : Bool) (success operationName : String) : String :=
  if includeHttpResponse then s!"{operationName}Response" else orUnknown success

/-- The name of the function that builds the URL. -/
def urlFunctionName (op : Operation) : String := s!"get{Naming.pascal op.operationName}Url"

/-- The arguments that the URL depends on. -/
def urlArguments (op : Operation) : List Argument :=
  op.argumentsOf [.pathParam, .namedPathParams, .queryParam]

end Operation

/-- The argument as it is passed to the URL function. -/
def Argument.passed (a : Argument) : String :=
  if a.kind = .namedPathParams ∧ a.destructured ≠ "" then a.destructured else a.name

namespace Endpoint

variable (e : Endpoint)

/-- The statements that write the query string. -/
def queryStatements : List Statement :=
  [.verbatim "const normalizedParams = new URLSearchParams();",
    .verbatim ("Object.entries(params || \x7b\x7d).forEach(([key, value]) => \x7b\n" ++
      "  if (value !== undefined) \x7b\n" ++
      "    normalizedParams.append(key, value === null ? 'null' : value.toString());\n" ++
      "  \x7d\n\x7d);"),
    .verbatim "const stringifiedParams = normalizedParams.toString();"]

/-- The function that builds the URL from path and query parameters. -/
def urlFunction : RequestFunction :=
  let op := e.operation
  let list := Text.commaListOfNonempty (op.urlArguments.map (·.implementation))
  let plain := Expr.template e.route
  let withQuery := Expr.template (e.route ++ "?$\x7bstringifiedParams\x7d")
  { name := op.urlFunctionName
    exported := true
    params := [.arguments list]
    statements := if op.queryParams.isSome then queryStatements else []
    result :=
      if op.queryParams.isSome then
        .name s!"stringifiedParams.length > 0 ? {withQuery.render} : {plain.render}"
      else plain }

/-- The call of the URL function. -/
def urlCall : Expr :=
  .call e.operation.urlFunctionName (e.operation.urlArguments.map fun a => .name a.passed)

/-- Whether the request carries a body. -/
def fetchCarriesBody : Bool :=
  carriesBody e.operation.verb.name && e.operation.body.definition ≠ ""

/-- Whether the body is sent as JSON. -/
def fetchSendsJson : Bool := e.fetchCarriesBody && !e.operation.usesForm

/-- The headers: the content type, the header parameters over it, and the caller's over both. -/
def fetchHeaders (spreadOptions : Bool) : List Entry :=
  let own :=
    entryIf e.fetchSendsJson (.property "Content-Type" (.quoted "application/json")) ++
      entryIf e.operation.headers.isSome (.spread (.name "headers"))
  if own.isEmpty then []
  else own ++ entryIf spreadOptions (.spread (.optionalMember "options" "headers"))

/-- The init object of the request. -/
def fetchInit (spreadOptions : Bool) : Expr :=
  let op := e.operation
  let headers := e.fetchHeaders spreadOptions
  let payload := op.body.payload op.forms
  .object .spaced <|
    entryIf spreadOptions (.spread (.name "options")) ++
    [.property "method" (.quoted (Text.upperCase op.verb.name))] ++
    entryIf (!headers.isEmpty) (.property "headers" (.object .spaced headers)) ++
    entryIf e.fetchCarriesBody (.property "body"
      (if e.fetchSendsJson then .call "JSON.stringify" [.name payload] else .name payload))

variable (output : OutputConfig)

/-- The type that the operation's fetch function resolves to. -/
def fetchType : String :=
  Operation.fetchResponseType output.includeHttpResponse e.operation.response.success
    e.operation.operationName

/-- The function that hands URL and init object to a mutator. -/
def fetchMutatorFunction (mutator : Mutator) : RequestFunction :=
  let op := e.operation
  let optionsParam := op.mutatorOptionsParam output
  { name := op.operationName
    exported := true
    params := .arguments op.argumentList :: optionsParam.toList
    statements := op.encodeStatements false
    result := .call s!"{mutator.name}<{e.fetchType output}>"
      [e.urlCall, e.fetchInit optionsParam.isSome] }

/-- The function that calls `fetch`. A status that never carries a body is not read. -/
def fetchFunction : RequestFunction :=
  let op := e.operation
  let type := e.fetchType output
  let taken := op.overrides.requestOptions.isTaken
  let dataType := if output.includeHttpResponse then s!"{type}['data']" else type
  { name := op.operationName
    exported := true
    isAsync := true
    params := .arguments op.argumentList :: if taken then [.options true "RequestInit"] else []
    returnType := some s!"Promise<{type}>"
    statements := op.encodeStatements false ++
      [.fetch e.urlCall (e.fetchInit taken),
        .verbatim ("const body = [204, 205, 304].includes(res.status) ? null : " ++
          "await res.text();"),
        .verbatim (s!"const data: {dataType} = body ? JSON.parse(body) : " ++ "\x7b\x7d;")]
    result :=
      if output.includeHttpResponse then
        .name ("\x7b data, status: res.status, headers: res.headers \x7d as " ++ type)
      else .name "data" }

/-- The function that sends the request. -/
def fetchSender : RequestFunction :=
  match e.operation.mutator with
  | some mutator => e.fetchMutatorFunction output mutator
  | none => e.fetchFunction output

/-- The code around the function that sends the request: the URL function and the response types
before it. -/
def fetchCode (sender : RequestFunction) : String :=
  let types :=
    if output.includeHttpResponse then
      [String.intercalate "\n\n" e.operation.responseDeclarations ++ "\n"]
    else []
  Text.lines (e.urlFunction.render :: types ++ [sender.render])

/-- All code of the operation. -/
def fetchRequest : String := e.fetchCode output (e.fetchSender output)

end Endpoint

end RequestGen
