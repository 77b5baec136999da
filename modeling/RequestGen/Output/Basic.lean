import RequestGen.Operation.Basic

/-! # Output configuration

How the generated file is meant to be used: the client style, the HTTP client, the compiler options
of the project that receives it and the function that replaces the transport, if any. -/

namespace RequestGen

/-- How the functions of a group are offered. -/
inductive Style where
  /-- Inside a factory function. -/
  | factory
  /-- At top level. -/
  | functions
  /-- At top level, for hooks to call. -/
  | swr
deriving DecidableEq

namespace Style

def name : Style → String
  | factory => "axios"
  | functions => "axios-functions"
  | swr => "swr"

def all : List Style := [factory, functions, swr]

/-- The style of that name. -/
def ofName? (s : String) : Option Style :=
  all.find? (·.name = s)

theorem ofName?_name (s : Style) : ofName? s.name = some s := by
  cases s <;> decide

end Style

/-- The library that sends requests; hook helpers also serve one they do not know. -/
inductive HttpClient where
  | axios
  | fetch
  | other (name : String)
deriving DecidableEq

namespace HttpClient

def name : HttpClient → String
  | axios => "axios"
  | fetch => "fetch"
  | other name => name

def ofName (s : String) : HttpClient :=
  if s = "axios" then axios else if s = "fetch" then fetch else other s

end HttpClient

/-- The compiler options that generated code depends on. -/
structure CompilerOptions where
  exactOptionalPropertyTypes : Bool := false
  allowSyntheticDefaultImports : Option Bool := none
  esModuleInterop : Option Bool := none
  target : Option String := none

/-- The compiler configuration of the receiving project. -/
structure TsConfig where
  compilerOptions : Option CompilerOptions := none

/-- Whether a package without a default export can be imported by `import x from 'pkg'`. A project
without configuration is taken to allow it. -/
def TsConfig.allowsSyntheticDefault : Option TsConfig → Bool
  | none => true
  | some config =>
    match config.compilerOptions with
    | none => false
    | some options =>
      match options.allowSyntheticDefaultImports with
      | some allowed => allowed
      | none => options.esModuleInterop.getD false

/-- The output configuration of a run. -/
structure OutputConfig where
  style : Style := .functions
  httpClient : HttpClient := .axios
  target : Option String := none
  /-- The module that declares the model types. -/
  schemas : Option String := none
  tsconfig : Option TsConfig := none
  optionsParamRequired : Bool := false
  /-- Whether a fetch function resolves to status and headers besides the data. -/
  includeHttpResponse : Bool := true
  /-- Whether the language has the type `Awaited`. -/
  hasAwaitedType : Bool := true
  mutator : Option Mutator := none

namespace OutputConfig

/-- Whether optional properties may not hold `undefined`. -/
def exactOptional (o : OutputConfig) : Bool :=
  match o.tsconfig.bind (·.compilerOptions) with
  | none => false
  | some options => options.exactOptionalPropertyTypes

/-- Whether generated code may import axios and qs by a default import. -/
def allowsSyntheticDefault (o : OutputConfig) : Bool :=
  TsConfig.allowsSyntheticDefault o.tsconfig

end OutputConfig

/-- What all operations of a run share: the loaded documents, which of them is current, and the
output configuration. -/
structure Context where
  specKey : String := "default"
  specs : Json.Fields := []
  output : OutputConfig := {}

end RequestGen
