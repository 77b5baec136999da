import RequestGen.Code.Expr
import RequestGen.Code.Function
import RequestGen.Naming.Identifier
import RequestGen.Operation.Basic

/-! # Request functions

A request function takes the arguments of its operation, or one `request` object in their place,
and possibly the caller's options. Its statements prepare what the transport call needs, and it
returns the result of that call. `RequestFunction.render` writes it. -/

namespace RequestGen

open Code (Expr FunctionText)

/-- A parameter of a request function. -/
inductive Param where
  /-- The arguments of the operation, as a parameter list writes them. -/
  | arguments (list : String)
  /-- All arguments as one object. -/
  | request (type : String)
  /-- The caller's options. -/
  | options (isOptional : Bool) (type : String)
deriving DecidableEq

namespace Param

def render : Param → String
  | arguments list => list
  | request type => s!"request: {type}"
  | options true type => s!"options?: {type}"
  | options false type => s!"options: {type}"

end Param

/-- The entries of an object that reads each name from `source`: by shorthand where the name is an
identifier, and by its quoted name elsewhere. -/
def objectEntry (source name : String) : String :=
  if Naming.isIdentifier name then name else s!"'{name}': {source}['{name}']"

/-- The inside of an object that reads the names from `source`. -/
def objectEntries (names : List String) (source : String := "request") : String :=
  Text.commaList (names.map (objectEntry source))

/-- A statement before the returned call. -/
inductive Statement where
  /-- Takes names out of `request`, and the other fields as `data`. -/
  | destructure (names : List String) (rest : Bool)
  /-- Encodes the body. -/
  | encode (code : String)
  /-- Gathers names of `request` in an object. -/
  | gather (constant : String) (names : List String)
  /-- Awaits the response of a URL. -/
  | fetch (url init : Expr)
  /-- Any other statement. -/
  | verbatim (text : String)

namespace Statement

def render : Statement → String
  | destructure names rest =>
    let names := names ++ if rest then ["...data"] else []
    s!"const \x7b {Text.commaList names} \x7d = request;"
  | encode code => code
  | gather constant names => s!"const {constant} = \x7b {objectEntries names} \x7d;"
  | fetch url init => s!"const res = await fetch({url.render}, {init.render});"
  | verbatim text => text

end Statement

/-- A request function with the type declarations that go with it. -/
structure RequestFunction where
  name : String
  exported : Bool := false
  isAsync : Bool := false
  /-- The type parameters with their brackets. -/
  generic : String := ""
  params : List Param
  returnType : Option String := none
  statements : List Statement := []
  result : Expr
  declarations : List String := []

namespace RequestFunction

/-- The pieces of the function as texts. -/
def toText (f : RequestFunction) : FunctionText where
  name := f.name
  params := f.params.map Param.render
  call := f.result.render
  statements := f.statements.map Statement.render
  exported := f.exported
  generic := f.generic
  returnType := f.returnType
  declarations := f.declarations
  isAsync := f.isAsync

def render (f : RequestFunction) : String := f.toText.render

end RequestFunction

end RequestGen
