import RequestGen.Group
import RequestGen.Output.Record

/-! # Jobs

A job describes one generated file: its title, the document that its operations come from, the
output configuration and the operations with their routes. A checked job is all that a run needs
besides the loaded documents. -/

namespace RequestGen

/-- A generation job. -/
structure Job where
  title : String
  /-- The path of the document, relative to the job. -/
  openapi : Option String := none
  specKey : Option String := none
  output : OutputConfig := {}
  operations : List Endpoint := []
  /-- Whether the job itself chooses the style. -/
  choosesStyle : Bool := false

namespace Job

def shape : Shape := .record "ClientJob"
  [Field.mandatory "title" .text, Field.optional "openapi" .text, Field.optional "spec_key" .text,
    Field.defaulted "output" OutputConfig.shape, Field.list "operations" Endpoint.shape]

/-- The job of a normal form. `raw` is the value before it was checked. -/
def ofJson (raw v : Json) : Job where
  title := v.textAt "title"
  openapi := v.text?At "openapi"
  specKey := v.text?At "spec_key"
  output := OutputConfig.ofJson (v.field "output")
  operations := v.listAt Endpoint.ofJson "operations"
  choosesStyle := Json.Fields.has (((raw.field "output").toFields?).getD []) "client"

def toJson (j : Job) : Json := .obj
  [("title", .str j.title), ("openapi", .ofText? j.openapi), ("spec_key", .ofText? j.specKey),
    ("output", j.output.toJson), ("operations", .ofList Endpoint.toJson j.operations)]

/-- The job that a value describes. -/
def parse (raw : Json) : Checked Job := (shape.check raw).map (ofJson raw)

/-- The first text that is not empty. -/
def firstText (texts : List (Option String)) (fallback : String) : String :=
  ((texts.filterMap id).find? (· ≠ "")).getD fallback

/-- The context of a job's operations. The job's own key for the current document wins over the
given one. -/
def context (j : Job) (specs : Json.Fields) (specKey : Option String) : Context where
  specKey := firstText [j.specKey, specKey] "default"
  specs := specs
  output := j.output

/-- The style that a group is built in: the one asked for, or that of the output configuration. -/
def styleName (output : OutputConfig) (asked : Option String) : String :=
  firstText [asked] output.style.name

end Job

end RequestGen
