import RequestGen.Operation.Record
import RequestGen.Text.Word

/-! # Import statements

A generated file imports from packages what its code refers to, the functions of the user by their
paths, and the model types in one statement. A name is referred to where it stands between
characters that continue no name. -/

namespace RequestGen

/-- A package and the symbols that it may provide. -/
structure Dependency where
  exports : List Import := []
  package : String

namespace Dependency

def shape : Shape := .record "GeneratorDependency"
  [Field.list "exports" Import.shape, Field.mandatory "dependency" .text]

def ofJson (v : Json) : Dependency where
  exports := v.listAt Import.ofJson "exports"
  package := v.textAt "dependency"

def toJson (d : Dependency) : Json := .obj
  [("exports", .ofList Import.toJson d.exports), ("dependency", .str d.package)]

end Dependency

/-- The types that the generated code of an operation refers to. -/
def Operation.modelImports (op : Operation) : List Import :=
  (if op.response.isBlob then [] else op.response.imports) ++ op.body.imports ++
    ((op.namedPathParams.bind (·.schema)).map fun s => { name := s.name }).toList ++
    (op.queryParams.map fun q => { name := q.schema.name }).toList ++
    (op.headers.map fun h => { name := h.schema.name }).toList ++
    op.params.flatMap (·.imports)

namespace Import

/-- The import as a list of named imports writes it. -/
def specifier (i : Import) : String :=
  match i.localAlias with
  | none => i.name
  | some a => if a = "" then i.name else s!"{i.name} as {a}"

/-- The imports without repetitions of a name and alias. -/
def dedupe (imports : List Import) : List Import :=
  go [] imports
where
  go (seen : List (String × Option String)) : List Import → List Import
    | [] => []
    | i :: rest =>
      if (i.name, i.localAlias) ∈ seen then go seen rest
      else i :: go ((i.name, i.localAlias) :: seen) rest

end Import

/-- Whether the name occurs in the code; `inName` says that a character of a name comes before. -/
def refersFrom (name : List Char) (inName : Bool) : List Char → Bool
  | [] => !inName && name.isEmpty
  | c :: s =>
    (!inName && name.isPrefixOf (c :: s) &&
      !((c :: s).drop name.length).head?.any Text.isNameChar) ||
    refersFrom name (Text.isNameChar c) s

/-- Whether the name occurs in the code between characters that continue no name. -/
def refersTo (code name : String) : Bool :=
  refersFrom name.toList false code.toList

/-- What a statement imports from a module. -/
inductive ImportClause where
  | default (name : String)
  /-- The whole module under one name. -/
  | star (name : String)
  | values (items : List Import)
  | types (items : List Import)

/-- An import statement. -/
structure ImportStatement where
  clause : ImportClause
  module : String

namespace ImportStatement

/-- Named imports in braces. -/
def specifiers (items : List Import) : String :=
  "\x7b " ++ Text.commaList (items.map Import.specifier) ++ " \x7d"

def render (s : ImportStatement) : String :=
  match s.clause with
  | .default name => s!"import {name} from '" ++ s.module ++ "';"
  | .star name => s!"import * as {name} from '" ++ s.module ++ "';"
  | .values items => s!"import {specifiers items} from '" ++ s.module ++ "';"
  | .types items => s!"import type {specifiers items} from '" ++ s.module ++ "';"

end ImportStatement

namespace Dependency

/-- The exports that the code refers to. -/
def used (d : Dependency) (code : String) : List Import :=
  d.exports.filter fun i => refersTo code i.localName

/-- The statements for what the code uses of a package: its default export, then values, then
types. -/
def statements (d : Dependency) (code : String) (allowsSyntheticDefault : Bool) :
    List ImportStatement :=
  let used := d.used code
  let values := used.filter fun i => !i.isDefault && i.isValue
  let types := used.filter fun i => !i.isDefault && !i.isValue
  let defaults := (used.find? (·.isDefault)).map fun i =>
    if i.isSynthetic && !allowsSyntheticDefault then ImportClause.star i.name
    else ImportClause.default i.name
  let clauses := defaults.toList ++
    (if values.isEmpty then [] else [.values values]) ++
    (if types.isEmpty then [] else [.types types])
  clauses.map fun clause => ⟨clause, d.package⟩

end Dependency

/-- The statements for what the code uses of all packages. -/
def dependencyImports (dependencies : List Dependency) (code : String)
    (allowsSyntheticDefault : Bool) : List ImportStatement :=
  dependencies.flatMap fun d => d.statements code allowsSyntheticDefault

/-- The statement for the model types, if there are any. -/
def modelImports (imports : List Import) (schemas : String) : List ImportStatement :=
  match Import.dedupe imports with
  | [] => []
  | items => [⟨.types items, schemas⟩]

/-- A statement for each function of the user that has a path, the first of each name. -/
def mutatorImports (mutators : List Mutator) : List ImportStatement :=
  go [] mutators
where
  go (seen : List String) : List Mutator → List ImportStatement
    | [] => []
    | m :: rest =>
      if m.name ∈ seen ∨ m.path = "" then go seen rest
      else
        let clause := if m.isDefault then .default m.name else .values [{ name := m.name }]
        ⟨clause, m.path⟩ :: go (m.name :: seen) rest

end RequestGen
