import RequestGen.Text.Lines

/-! # Functions of generated code

`FunctionText` holds the pieces of a function declaration as texts, and `render` sets them: one
line for the head, the statements indented, the returned call, and the type declarations that go
with the function after it. Empty pieces leave nothing behind. -/

namespace RequestGen.Code

/-- The pieces of a function declaration. -/
structure FunctionText where
  name : String
  params : List String
  /-- What the function returns. -/
  call : String
  statements : List String := []
  exported : Bool := false
  /-- The type parameters with their brackets. -/
  generic : String := ""
  returnType : Option String := none
  /-- Type declarations after the function. -/
  declarations : List String := []
  isAsync : Bool := false

namespace FunctionText

/-- A statement as lines of the function's block. -/
def statementLines (statement : String) : String :=
  String.ofList (Text.indent [' ', ' '] statement.toList)

/-- The first line. -/
def head (f : FunctionText) : String :=
  (if f.exported then "export " else "") ++ s!"const {f.name} = " ++
    (if f.isAsync then "async " else "") ++ f.generic ++
    s!"({Text.commaListOfNonempty f.params})" ++
    (match f.returnType with
      | none => ""
      | some type => if type = "" then "" else s!": {type}") ++
    " => \x7b\n"

def render (f : FunctionText) : String :=
  f.head ++
    String.join ((f.statements.filter (· ≠ "")).map fun s => s!"{statementLines s}\n") ++
    (if f.call = "" then "" else s!"  return {f.call};\n") ++ "\x7d\n" ++
    String.join (f.declarations.map fun d => s!"\n{d}\n")

end FunctionText

end RequestGen.Code
