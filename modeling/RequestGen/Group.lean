import RequestGen.Client.Style

/-! # Groups

A `Group` is the code of one generated file: the functions of its operations between a header and a
footer, and what they import. `Group.build` generates the operations in order and stops at the first
that cannot be generated. It clears the run's table of result types first, so nothing that an
earlier build registered gets into the group. -/

namespace RequestGen

/-- The code of a file and what it may import. -/
structure Group where
  title : String
  header : String
  implementations : List String
  footer : String
  imports : List Import := []
  dependencies : List Dependency := []
  mutators : List Mutator := []
  /-- The module that declares the model types. -/
  schemas : Option String := none
  allowsSyntheticDefault : Bool := true

namespace Group

variable (g : Group)

/-- The file without its comment and imports. -/
def code : String := Text.lines (g.header :: g.implementations ++ [g.footer])

/-- The import statements: of packages, of functions of the user, of model types. -/
def importStatements : List ImportStatement :=
  dependencyImports g.dependencies g.code g.allowsSyntheticDefault ++
    mutatorImports g.mutators ++
    (match g.schemas with
      | none => []
      | some schemas => if schemas = "" then [] else modelImports g.imports schemas)

def importLines : List String := g.importStatements.map (·.render)

/-- The text on a line of its own, if there is any. -/
def lineIfAny (text : String) : String := if text = "" then "" else s!"{text}\n"

/-- The text of the file. -/
def render : String :=
  s!"/**\n * Generated by clientgen. Do not edit manually.\n * {g.title}\n */\n" ++
    String.join (g.importLines.map fun line => s!"{line}\n") ++ "\n" ++
    lineIfAny g.header ++
    String.join (g.implementations.map fun implementation => s!"{implementation}\n") ++
    lineIfAny g.footer

/-- The code of each operation, in order, and the table with their results. -/
def generateAll (style : Style) (ctx : Context) :
    List Endpoint → ResultTable → ResultTable × Except Fault (List Generated)
  | [], t => (t, .ok [])
  | e :: es, t =>
    match style.generate ctx e t with
    | (t, .error fault) => (t, .error fault)
    | (t, .ok generated) =>
      match generateAll style ctx es t with
      | (t, .error fault) => (t, .error fault)
      | (t, .ok rest) => (t, .ok (generated :: rest))

/-- The group around generated code, and the table without the results that it declares. -/
def assemble (style : Style) (ctx : Context) (title : String) (operations : List Operation)
    (generated : List Generated) (t : ResultTable) : Group × ResultTable :=
  let implementations := generated.map (·.implementation)
  let hasMutator := operations.any (·.mutator.isSome)
  let hasSerializerOptions :=
    operations.any fun op => (op.overrides.serializerOptions.map (·.isSet)).getD false
  let header := style.header {
    title := factoryTitle title
    takesOptions := operations.any (·.overrides.requestOptions.isTaken)
    hasMutator
    output := ctx.output
    code := Text.lines implementations }
  let (footer, t) := style.footer {
    operationNames := operations.map (·.operationName)
    title := factoryTitle title
    hasMutator
    hasAwaitedType := ctx.output.hasAwaitedType } t
  ({ title
     header
     implementations
     footer
     imports := generated.flatMap (·.imports)
     dependencies := style.dependencies ctx.output.mutator.isSome hasSerializerOptions
     mutators := operations.flatMap (·.mutators)
     schemas := ctx.output.schemas
     allowsSyntheticDefault := ctx.output.allowsSyntheticDefault }, t)

/-- The group of the given operations, and the table that is left, in a run whose table holds `t`.
What earlier builds have left there is dropped first. -/
def rebuild (t : ResultTable) (style : Style) (ctx : Context) (title : String)
    (endpoints : List Endpoint) : ResultTable × Except Fault Group :=
  match generateAll style ctx endpoints t.clear with
  | (t, .error fault) => (t, .error fault)
  | (t, .ok generated) =>
    let (group, t) := assemble style ctx title (endpoints.map (·.operation)) generated t
    (t, .ok group)

/-- The group of the given operations, and the table that is left, in a new run. -/
def build : Style → Context → String → List Endpoint → ResultTable × Except Fault Group :=
  rebuild .empty

end Group

end RequestGen
