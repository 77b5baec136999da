import RequestGen.Client.Frame
import RequestGen.Client.Hooks
import RequestGen.Client.Imports

/-! # Client styles

For each style: which packages its code may import, how the function of an operation is generated,
and what is registered for its result type. The styles over axios register a result for every
operation before its function is generated; the hook style registers none. -/

namespace RequestGen

/-- A default export that some compilers have to make up. -/
def Import.syntheticDefault (name : String) : Import where
  name := name
  isDefault := true
  isValue := true
  isSynthetic := true

/-- A default export. -/
def Import.defaultValue (name : String) : Import where
  name := name
  isDefault := true
  isValue := true

/-- An exported type. -/
def Import.type (name : String) : Import where
  name := name

/-- Axios, with the types that generated code refers to. -/
def axiosDependency (types : List String) : Dependency where
  exports := .syntheticDefault "axios" :: types.map Import.type
  package := "axios"

/-- The query-string serializer. -/
def qsDependency : Dependency where
  exports := [.syntheticDefault "qs"]
  package := "qs"

/-- The packages of hooks. -/
def swrDependencies : List Dependency :=
  [{ exports := .defaultValue "useSwr" :: ["SWRConfiguration", "Key", "Arguments"].map Import.type
     package := "swr" },
    { exports := [.defaultValue "useSWRMutation", .type "SWRMutationConfiguration"]
      package := "swr/mutation" }]

/-- The generated code of one operation. -/
structure Generated where
  implementation : String
  imports : List Import

namespace Style

/-- The packages that the code of a group may import. With a global mutator axios is not among
them. -/
def dependencies (style : Style) (hasGlobalMutator hasSerializerOptions : Bool) :
    List Dependency :=
  let axios := match style with
    | swr => axiosDependency ["AxiosRequestConfig", "AxiosResponse", "AxiosError"]
    | _ => axiosDependency ["AxiosRequestConfig", "AxiosResponse"]
  (if hasGlobalMutator then [] else [axios]) ++
    (if hasSerializerOptions then [qsDependency] else []) ++
    (match style with
      | swr => swrDependencies
      | _ => [])

/-- The transport of an operation. Only the hook style offers another client than axios. -/
def transport (style : Style) (ctx : Context) (op : Operation) : Transport :=
  match style with
  | swr => Transport.resolve ctx.output.httpClient op.mutator
  | _ => Transport.resolve .axios op.mutator

/-- Whether each function is exported on its own. -/
def exportsFunctions (style : Style) : Bool := style ≠ factory

/-- Whether an axios function is generic over its result. -/
def isGeneric (style : Style) : Bool := style ≠ swr

/-- The code of an operation. -/
def implementation (style : Style) (ctx : Context) (e : Endpoint) : Except Fault String :=
  match style.transport ctx e.operation with
  | .fetch => .ok (e.fetchRequest ctx.output)
  | .mutator => (e.mutatorRequest ctx style.exportsFunctions).map (·.render)
  | .axios => (e.axiosRequest ctx style.exportsFunctions style.isGeneric).map (·.render)

/-- The table with the operation's result. -/
def register (style : Style) (op : Operation) (t : ResultTable) : ResultTable :=
  match style with
  | swr => t
  | _ => t.register op.operationName (.ofOperation op)

/-- The code of an operation with its imports, and the table with its result. The result stays
registered also if the code cannot be generated. -/
def generate (style : Style) (ctx : Context) (e : Endpoint) (t : ResultTable) :
    ResultTable × Except Fault Generated :=
  (style.register e.operation t,
    (style.implementation ctx e).map fun code => ⟨code, e.operation.modelImports⟩)

/-- The style of that name. -/
def named (name : String) : Except Fault Style :=
  match ofName? name with
  | some style => .ok style
  | none => .error (.unknownClient name (all.map (·.name)))

/-- The style over axios of that name. -/
def axiosNamed (name : String) : Except Fault Style :=
  match ofName? name with
  | some swr => .error (.unknownAxiosStyle name)
  | some style => .ok style
  | none => .error (.unknownAxiosStyle name)

end Style

end RequestGen
