import RequestGen.Naming.Placeholder
import RequestGen.Reference.Resolve

/-! # Parameter names

The names of query and header parameters are read from the current document: the parameters of the
operation under its path and verb, with references followed. Path parameters are those of the
operation's arguments. A document may be of any shape, so a name may be any value that counts as
present; `texts` refuses a name that is no text. -/

namespace RequestGen

/-- The names that a document gives, in its order. -/
structure ParameterNames where
  query : List Json
  header : List Json
  path : List Json

/-- Parameter names that are texts. -/
structure NameTexts where
  query : List String
  header : List String
  path : List String

namespace ParameterNames

/-- The field of a place that should be an object; null if it is absent. -/
def member (place : Json) (key : String) : Except Fault Json :=
  match place with
  | .obj fields => .ok ((Json.Fields.get? fields key).getD .null)
  | _ => .error .noMembers

/-- The value, or the empty object for a value that counts as absent. -/
def orEmpty (v : Json) : Json := if v.truthy then v else .obj []

/-- The path item of a route. -/
def pathItem (ctx : Context) (pathRoute : String) : Except Fault Json := do
  let document := (Json.Fields.get? ctx.specs ctx.specKey).getD (.obj [])
  let paths ← member document "paths"
  let item ← member (orEmpty paths) pathRoute
  return orEmpty item

/-- Whether `$ref` is in a path item: as a key of an object, as an item of a list or inside a
text. -/
def holdsRef : Json → Except Fault Bool
  | .obj fields => .ok (Json.Fields.has fields "$ref")
  | .arr items => .ok (items.any (·.isText "$ref"))
  | .str s => .ok (Text.occursIn ['$', 'r', 'e', 'f'] s.toList)
  | _ => .error .wrongKind

/-- The path item itself, or what it refers to. -/
def dereference (ctx : Context) (item : Json) : Except Fault Json := do
  if ← holdsRef item then
    let resolved ← resolve ctx item
    return .obj resolved.schema
  else return item

/-- The values that a place lists: the items of a list, the keys of an object, the characters of a
text. -/
def listed : Json → Except Fault (List Json)
  | .arr items => .ok items
  | .obj fields => .ok (fields.map fun (key, _) => .str key)
  | .str s => .ok (s.toList.map fun c => .str (String.singleton c))
  | _ => .error .wrongKind

/-- The parameters of an operation, references followed. -/
def parameters (ctx : Context) (pathRoute method : String) : Except Fault (List Json.Fields) := do
  let item ← dereference ctx (← pathItem ctx pathRoute)
  let operation ← member item method
  let parameters ← member (orEmpty operation) "parameters"
  let items ← if parameters.truthy then listed parameters else pure []
  items.mapM fun parameter => (resolve ctx parameter).map (·.schema)

/-- The name of a parameter of that location, if it counts as present. -/
def nameIn? (location : String) (parameter : Json.Fields) : Option Json :=
  if ((Json.Fields.get? parameter "in").getD .null).isText location then
    (Json.Fields.get? parameter "name").filter (·.truthy)
  else none

/-- The names of an endpoint's parameters. -/
def collect (ctx : Context) (e : Endpoint) : Except Fault ParameterNames := do
  let parameters ← parameters ctx e.pathRoute e.operation.verb.name
  return {
    query := parameters.filterMap (nameIn? "query")
    header := parameters.filterMap (nameIn? "header")
    path := (e.operation.argumentsOf [.pathParam]).map fun a => .str a.name }

/-- The name, which has to be a text. -/
def text : Json → Except Fault String
  | .str s => .ok s
  | _ => .error .wrongKind

/-- The names, all of which have to be texts. -/
def texts (names : ParameterNames) : Except Fault NameTexts := do
  let query ← names.query.mapM text
  let header ← names.header.mapM text
  let path ← names.path.mapM text
  return { query, header, path }

/-- The names of an endpoint's parameters as texts. -/
def read (ctx : Context) (e : Endpoint) : Except Fault NameTexts := do
  (← collect ctx e).texts

end ParameterNames

/-- The identifiers among the names in the placeholders of an endpoint's two routes, each once. -/
def routeParamNames (pathRoute route : String) : List String :=
  let names := Naming.placeholders ['\x7b'] pathRoute.toList ++
    Naming.placeholders ['$', '\x7b'] route.toList
  ((names.map String.ofList).eraseDups).filter Naming.isIdentifier

/-- The names in a list such as `{ petId, ownerId }`. -/
def destructuredNames (text : String) : List String :=
  let inside := text.toList.filter fun c => c ≠ '\x7b' ∧ c ≠ '\x7d'
  let names := (Text.splitOn ',' inside).map Text.strip
  (names.filter (!·.isEmpty)).map String.ofList

/-- The names bound by the argument that gathers the path parameters: those that it takes out, or
else the keys of its type. -/
def namedPathParamNames : Option Argument → List String
  | none => []
  | some argument =>
    match destructuredNames argument.destructured with
    | [] =>
      match argument.schema with
      | none => []
      | some schema => (Naming.memberKeys false schema.model.toList).map String.ofList
    | names => names

end RequestGen
