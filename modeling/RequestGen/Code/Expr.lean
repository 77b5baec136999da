import RequestGen.Code.Literal

/-! # Expressions of generated code

Generated calls are kept as expressions until they are written, so that what an object holds and
what an argument refers to can be told without reading text. `Expr.render` writes them. Names come
from the operation as they are and may be any code. -/

namespace RequestGen.Code

/-- How the braces of an object literal are set. -/
inductive Layout where
  /-- `{a, b}` -/
  | tight
  /-- `{ a, b }` -/
  | spaced
deriving DecidableEq

mutual

/-- An expression. -/
inductive Expr where
  /-- A name, or other code, as it is. -/
  | name (code : String)
  /-- `value?.member` -/
  | optionalMember (value member : String)
  /-- A text in single quotes, without escapes. -/
  | quoted (text : String)
  /-- A template literal. -/
  | template (text : String)
  /-- A document value as a literal. -/
  | literal (value : Json)
  | object (layout : Layout) (entries : List Entry)
  /-- `(name ? { name } : {})` -/
  | whenSet (name : String)
  /-- The function that writes a query string with these settings. -/
  | queryWriter (settings : Json.Fields)
  | call (callee : String) (args : List Expr)

/-- An entry of an object literal. -/
inductive Entry where
  /-- A property of the name of the variable that it holds. -/
  | shorthand (name : String)
  | property (key : String) (value : Expr)
  | spread (value : Expr)

end

/-- A property that holds a document value. -/
def Entry.literal (key : String) (value : Json) : Entry := .property key (.literal value)

/-- Document values as properties. -/
def Entry.literals (fields : Json.Fields) : List Entry :=
  fields.map fun (key, value) => Entry.literal key value

/-- The entries between braces. -/
def braces (layout : Layout) (entries : List String) : String :=
  match layout with
  | .tight => "\x7b" ++ Text.commaList entries ++ "\x7d"
  | .spaced => "\x7b " ++ Text.commaList entries ++ " \x7d"

mutual

/-- The code of an expression. -/
def Expr.render : Expr → String
  | .name code => code
  | .optionalMember value member => s!"{value}?.{member}"
  | .quoted text => s!"'{text}'"
  | .template text => "`" ++ text ++ "`"
  | .literal value => Code.literal value
  | .object layout entries => braces layout (renderEntries entries)
  | .whenSet name => s!"({name} ? \x7b {name} \x7d : \x7b\x7d)"
  | .queryWriter settings => s!"(params) => qs.stringify(params, {Json.ascii (.obj settings)})"
  | .call callee args => s!"{callee}({Text.commaList (renderAll args)})"

/-- The code of an entry. -/
def Entry.render : Entry → String
  | .shorthand name => name
  | .property key value => s!"{literalKey key}: {value.render}"
  | .spread value => s!"...{value.render}"

/-- The code of each expression. -/
def renderAll : List Expr → List String
  | [] => []
  | e :: es => e.render :: renderAll es

/-- The code of each entry. -/
def renderEntries : List Entry → List String
  | [] => []
  | e :: es => e.render :: renderEntries es

end

theorem renderEntries_eq_map (entries : List Entry) :
    renderEntries entries = entries.map Entry.render := by
  induction entries with
  | nil => rfl
  | cons entry entries ih => rw [renderEntries, ih, List.map_cons]

/-- Arguments as a call writes them. -/
def renderArgs (args : List Expr) : String := Text.commaList (renderAll args)

end RequestGen.Code
