import RequestGen.Naming.Words
import RequestGen.Request.Function
import RequestGen.Request.ParameterNames
import RequestGen.Transport.Payload

/-! # The single request argument

In place of a list of arguments a function may take one `request` object. Its type is the
intersection of the types of body, query, headers and path parameters. The statements take the
parameters out of it by name, leave the body's fields in `data`, and gather the query and header
parameters again for the transport. -/

namespace RequestGen

namespace Operation

/-- Which form encodings the overrides leave enabled. -/
def forms (op : Operation) : FormSupport where
  formData := !op.overrides.formDataDisabled
  formUrlEncoded := op.overrides.formUrlEncoded

/-- Whether the body is sent in an encoded form. -/
def usesForm (op : Operation) : Bool :=
  (op.body.encoding? op.forms).isSome

/-- The statements that encode the body, empty if it is sent as it is. With a single request the
body is reached under the name of that argument. -/
def bodyForm (op : Operation) (single : Bool) : String :=
  op.body.encode op.forms op.formData op.formUrlEncoded
    (if single && op.body.definition ≠ "" then some "request" else none)

/-- The body as the transport call sees it. With a single request its fields are in `data`. -/
def callBody (op : Operation) : Body :=
  if op.overrides.singleRequest && op.body.definition ≠ "" then
    { op.body with implementation := "data" }
  else op.body

/-- The own parameters of the operation, as a parameter list writes them. -/
def argumentList (op : Operation) : String :=
  Text.commaListOfNonempty (op.arguments.map (·.implementation))

end Operation

/-- The collapsed `request` argument. -/
structure SingleRequest where
  typeName : String
  /-- The types that the request is made of. -/
  intersection : List String
  /-- The declaration of the type of the path parameters, empty if none is needed. -/
  pathParamsType : String
  destructureNames : List String
  /-- Whether the remaining fields are the body. -/
  hasDataSpread : Bool
  queryNames : Option (List String)
  headerNames : Option (List String)

namespace SingleRequest

/-- Whether the request type has any member. -/
def hasRequest (r : SingleRequest) : Bool := !r.intersection.isEmpty

/-- The declaration of the request type; a request without members is an empty record. -/
def typeDefinition (r : SingleRequest) : String :=
  let joined := String.intercalate " & " r.intersection
  let members := if joined = "" then "Record<string, never>" else joined
  s!"export type {r.typeName} = {members};"

/-- The type declarations after the function. -/
def declarations (r : SingleRequest) : List String :=
  [r.typeDefinition, r.pathParamsType].filter (· ≠ "")

/-- The statements before the transport call. -/
def statements (r : SingleRequest) (bodyForm : String) : List Statement :=
  (if r.destructureNames.isEmpty && !r.hasDataSpread then []
    else [.destructure r.destructureNames r.hasDataSpread]) ++
  (if bodyForm = "" then [] else [.encode bodyForm]) ++
  (r.queryNames.map (Statement.gather "params")).toList ++
  (r.headerNames.map (Statement.gather "headers")).toList

/-- The type of the path parameters, where no named type gathers them: its name and its
declaration. -/
def pathType? (op : Operation) (names : NameTexts) : Option (String × String) :=
  if names.path.isEmpty then none
  else
    let name := s!"{Naming.pascal op.operationName}PathParams"
    let members := (op.argumentsOf [.pathParam]).map fun a => s!"  {a.definition};"
    some (name, s!"export type {name} = \x7b\n{Text.lines members}\n\x7d;")

/-- The single request of an endpoint whose parameters have the given names. -/
def build (e : Endpoint) (names : NameTexts) : SingleRequest :=
  let op := e.operation
  let named := op.namedPathParams
  let namedType := (named.bind (·.schema)).map (·.name)
  let pathType := if namedType.isSome then none else pathType? op names
  { typeName := s!"{Naming.pascal op.operationName}Request"
    intersection :=
      (if op.body.definition = "" then [] else [op.body.definition]) ++
      (op.queryParams.map (·.schema.name)).toList ++ (op.headers.map (·.schema.name)).toList ++
      namedType.toList ++ (pathType.map (·.1)).toList
    pathParamsType := (pathType.map (·.2)).getD ""
    destructureNames :=
      ((names.path ++ routeParamNames e.pathRoute e.route ++ namedPathParamNames named ++
        names.query ++ names.header).filter Naming.isIdentifier).eraseDups
    hasDataSpread := op.body.definition ≠ "" && !op.usesForm
    queryNames := if op.queryParams.isSome then some names.query else none
    headerNames := if op.headers.isSome then some names.header else none }

/-- The single request of an endpoint, with the names that the document gives. -/
def ofEndpoint (ctx : Context) (e : Endpoint) : Except Fault SingleRequest :=
  (ParameterNames.read ctx e).map (build e)

end SingleRequest

end RequestGen
