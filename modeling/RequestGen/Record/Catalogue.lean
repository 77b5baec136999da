import RequestGen.Job.Basic

/-! # All records

The records that a job is made of, by name. -/

namespace RequestGen

/-- Every record's shape. -/
def Shape.catalogue : List Shape :=
  [Import.shape, ModelType.shape, Argument.shape, PathParam.shape, Aggregate.shape, Body.shape,
    Response.definitionShape, StatusType.shape, Response.typesShape, Response.shape,
    Mutator.shape, Overrides.formDataShape, SerializerOptions.shape, Overrides.shape,
    Operation.shape, CompilerOptions.shape, TsConfig.shape, OutputConfig.shape,
    Dependency.shape, Endpoint.shape, Job.shape]

/-- The shape of the record of that name. -/
def Shape.ofName? (name : String) : Option Shape :=
  catalogue.find? (·.recordName = name)

end RequestGen
