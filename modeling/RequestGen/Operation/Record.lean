import RequestGen.Json.Inspect
import RequestGen.Operation.Basic
import RequestGen.Record.Read
import RequestGen.Record.Shape

/-! # Operations as records

The record of each type of an operation: its shape, `ofJson` on normal forms, and `toJson`, which
writes the normal form again. -/

namespace RequestGen

open RequestGen.Field (mandatory text flag optional list defaulted)

namespace Import

def shape : Shape := .record "GeneratorImport"
  [mandatory "name" .text, optional "schema_name" .text, optional "alias" .text,
    flag "default" false, flag "values" false, flag "synthetic_default_import" false]

def ofJson (v : Json) : Import where
  name := v.textAt "name"
  schemaName := v.text?At "schema_name"
  localAlias := v.text?At "alias"
  isDefault := v.flagAt "default"
  isValue := v.flagAt "values"
  isSynthetic := v.flagAt "synthetic_default_import"

def toFields (i : Import) : Json.Fields :=
  [("name", .str i.name), ("schema_name", .ofText? i.schemaName), ("alias", .ofText? i.localAlias),
    ("default", .bool i.isDefault), ("values", .bool i.isValue),
    ("synthetic_default_import", .bool i.isSynthetic)]

def toJson (i : Import) : Json := .obj i.toFields

/-- The import as a diagnostic shows it. -/
def inspect (i : Import) : String :=
  s!"GeneratorImport({Text.commaList (Json.inspectRecord i.toFields)})"

end Import

namespace ModelType

def shape : Shape := .record "GeneratorSchema"
  [mandatory "name" .text, text "model" "", list "imports" Import.shape]

def ofJson (v : Json) : ModelType where
  name := v.textAt "name"
  model := v.textAt "model"
  imports := v.listAt Import.ofJson "imports"

def toJson (m : ModelType) : Json := .obj
  [("name", .str m.name), ("model", .str m.model), ("imports", .ofList Import.toJson m.imports)]

/-- The model type as a diagnostic shows it. -/
def display (m : ModelType) : String :=
  String.intercalate " "
    (Json.inspectRecord [("name", .str m.name), ("model", .str m.model)] ++
      [s!"imports=[{Text.commaList (m.imports.map (·.inspect))}]"])

end ModelType

namespace ArgumentKind

def name : ArgumentKind → String
  | pathParam => "param"
  | namedPathParams => "named_path_params"
  | body => "body"
  | queryParam => "query_param"
  | header => "header"

def all : List ArgumentKind := [pathParam, namedPathParams, body, queryParam, header]

/-- The kind of that name. -/
def ofName? (s : String) : Option ArgumentKind :=
  all.find? (·.name = s)

theorem ofName?_name (k : ArgumentKind) : ofName? k.name = some k := by
  cases k <;> decide

end ArgumentKind

namespace Argument

def shape : Shape := .record "GetterProp"
  [mandatory "name" .text, mandatory "definition" .text, mandatory "implementation" .text,
    { key := "default", shape := .any, fallback := some .null }, flag "required" true,
    { key := "type", shape := .oneOf (ArgumentKind.all.map (·.name))
      fallback := some (.str ArgumentKind.pathParam.name) },
    text "destructured" "",
    { key := "schema", shape := .optional ModelType.shape, fallback := some .null
      otherKey := some "schema_ref" }]

def ofJson (v : Json) : Argument where
  name := v.textAt "name"
  definition := v.textAt "definition"
  implementation := v.textAt "implementation"
  initial := v.field "default"
  required := v.flagAt "required"
  kind := (ArgumentKind.ofName? (v.textAt "type")).getD .pathParam
  destructured := v.textAt "destructured"
  schema := v.optionAt ModelType.ofJson "schema"

def toJson (a : Argument) : Json := .obj
  [("name", .str a.name), ("definition", .str a.definition),
    ("implementation", .str a.implementation), ("default", a.initial),
    ("required", .bool a.required), ("type", .str a.kind.name),
    ("destructured", .str a.destructured), ("schema", .ofOption ModelType.toJson a.schema)]

/-- A member of an argument, by its name. The model type is given as a diagnostic shows it. -/
def member? (a : Argument) (name : String) : Option Json :=
  if name = "schema_ref" then some (.ofText? (a.schema.map (·.display)))
  else if name = "schema" then none
  else (Json.toFields? a.toJson).bind (·.lookup name)

end Argument

namespace PathParam

def shape : Shape := .record "GetterParam"
  [mandatory "name" .text, mandatory "definition" .text, mandatory "implementation" .text,
    { key := "default", shape := .any, fallback := some .null }, flag "required" true,
    list "imports" Import.shape]

def ofJson (v : Json) : PathParam where
  name := v.textAt "name"
  definition := v.textAt "definition"
  implementation := v.textAt "implementation"
  initial := v.field "default"
  required := v.flagAt "required"
  imports := v.listAt Import.ofJson "imports"

def toJson (p : PathParam) : Json := .obj
  [("name", .str p.name), ("definition", .str p.definition),
    ("implementation", .str p.implementation), ("default", p.initial),
    ("required", .bool p.required), ("imports", .ofList Import.toJson p.imports)]

end PathParam

namespace Aggregate

def shape : Shape := .record "GetterQueryParam"
  [{ key := "schema", shape := ModelType.shape, otherKey := some "schema_ref" },
    list "deps" ModelType.shape, flag "is_optional" false]

def ofJson (v : Json) : Aggregate where
  schema := ModelType.ofJson (v.field "schema")
  deps := v.listAt ModelType.ofJson "deps"
  isOptional := v.flagAt "is_optional"

def toJson (a : Aggregate) : Json := .obj
  [("schema", a.schema.toJson), ("deps", .ofList ModelType.toJson a.deps),
    ("is_optional", .bool a.isOptional)]

end Aggregate

namespace Body

def shape : Shape := .record "GetterBody"
  [text "definition" "", text "implementation" "", list "imports" Import.shape,
    optional "form_data" .text, optional "form_url_encoded" .text, text "content_type" ""]

def ofJson (v : Json) : Body where
  definition := v.textAt "definition"
  implementation := v.textAt "implementation"
  imports := v.listAt Import.ofJson "imports"
  formData := v.text?At "form_data"
  formUrlEncoded := v.text?At "form_url_encoded"
  contentType := v.textAt "content_type"

def toJson (b : Body) : Json := .obj
  [("definition", .str b.definition), ("implementation", .str b.implementation),
    ("imports", .ofList Import.toJson b.imports), ("form_data", .ofText? b.formData),
    ("form_url_encoded", .ofText? b.formUrlEncoded), ("content_type", .str b.contentType)]

end Body

namespace StatusType

def shape : Shape := .record "ResponseTypeValue"
  [mandatory "key" .text, mandatory "value" .text, text "content_type" "application/json"]

def ofJson (v : Json) : StatusType where
  key := v.textAt "key"
  value := v.textAt "value"
  contentType := v.textAt "content_type"

def toJson (s : StatusType) : Json := .obj
  [("key", .str s.key), ("value", .str s.value), ("content_type", .str s.contentType)]

end StatusType

namespace Response

def definitionShape : Shape := .record "ResponseDefinition" [text "success" "", text "errors" ""]

def typesShape : Shape := .record "ResponseTypes"
  [list "success" StatusType.shape, list "errors" StatusType.shape]

def shape : Shape := .record "GetterResponse"
  [list "imports" Import.shape, defaulted "definition" definitionShape,
    defaulted "types" typesShape, list "content_types" .text, flag "is_blob" false]

def ofJson (v : Json) : Response where
  imports := v.listAt Import.ofJson "imports"
  success := (v.field "definition").textAt "success"
  errors := (v.field "definition").textAt "errors"
  successTypes := (v.field "types").listAt StatusType.ofJson "success"
  errorTypes := (v.field "types").listAt StatusType.ofJson "errors"
  contentTypes := v.listAt Json.toText "content_types"
  isBlob := v.flagAt "is_blob"

def toJson (r : Response) : Json := .obj
  [("imports", .ofList Import.toJson r.imports),
    ("definition", .obj [("success", .str r.success), ("errors", .str r.errors)]),
    ("types", .obj [("success", .ofList StatusType.toJson r.successTypes),
      ("errors", .ofList StatusType.toJson r.errorTypes)]),
    ("content_types", .ofList Json.str r.contentTypes), ("is_blob", .bool r.isBlob)]

end Response

namespace Mutator

def shape : Shape := .record "GeneratorMutator"
  [mandatory "name" .text, text "path" "", flag "default" false, flag "has_error_type" false,
    text "error_type_name" "", flag "has_second_arg" false, flag "has_third_arg" false,
    flag "is_hook" false, optional "body_type_name" .text]

def ofJson (v : Json) : Mutator where
  name := v.textAt "name"
  path := v.textAt "path"
  isDefault := v.flagAt "default"
  hasErrorType := v.flagAt "has_error_type"
  errorTypeName := v.textAt "error_type_name"
  hasSecondArg := v.flagAt "has_second_arg"
  hasThirdArg := v.flagAt "has_third_arg"
  isHook := v.flagAt "is_hook"
  bodyTypeName := v.text?At "body_type_name"

def toJson (m : Mutator) : Json := .obj
  [("name", .str m.name), ("path", .str m.path), ("default", .bool m.isDefault),
    ("has_error_type", .bool m.hasErrorType), ("error_type_name", .str m.errorTypeName),
    ("has_second_arg", .bool m.hasSecondArg), ("has_third_arg", .bool m.hasThirdArg),
    ("is_hook", .bool m.isHook), ("body_type_name", .ofText? m.bodyTypeName)]

end Mutator

namespace SerializerOptions

def shape : Shape := .record "ParamsSerializerOptions" [optional "qs" .mapping]

def ofJson (v : Json) : SerializerOptions where
  qs := (v.field "qs").toFields?

def toJson (s : SerializerOptions) : Json := .obj [("qs", .ofOption Json.obj s.qs)]

end SerializerOptions

namespace RequestOptions

/-- Only `false` drops the options, and only an object adds literal ones. -/
def ofJson : Json → RequestOptions
  | .bool false => drop
  | .obj fields => literal fields
  | _ => forward

def toJson : RequestOptions → Json
  | forward => .bool true
  | drop => .bool false
  | literal fields => .obj fields

end RequestOptions

namespace Overrides

def formDataShape : Shape := .record "FormDataOverride" [flag "disabled" false]

def shape : Shape := .record "OperationOverride"
  [{ key := "request_options", shape := .flagOrMapping, fallback := some (.bool true) },
    defaulted "form_data" formDataShape, flag "form_url_encoded" true,
    flag "use_single_request_argument" false,
    optional "params_serializer_options" SerializerOptions.shape]

def ofJson (v : Json) : Overrides where
  requestOptions := RequestOptions.ofJson (v.field "request_options")
  formDataDisabled := (v.field "form_data").flagAt "disabled"
  formUrlEncoded := v.flagAt "form_url_encoded"
  singleRequest := v.flagAt "use_single_request_argument"
  serializerOptions := v.optionAt SerializerOptions.ofJson "params_serializer_options"

def toJson (o : Overrides) : Json := .obj
  [("request_options", o.requestOptions.toJson),
    ("form_data", .obj [("disabled", .bool o.formDataDisabled)]),
    ("form_url_encoded", .bool o.formUrlEncoded),
    ("use_single_request_argument", .bool o.singleRequest),
    ("params_serializer_options", .ofOption SerializerOptions.toJson o.serializerOptions)]

end Overrides

namespace Operation

/-- The fields of an operation's record. -/
def recordFields : List (Field Shape) :=
  [mandatory "verb" (.oneOfAnyCase (Verb.all.map (·.name))), text "operation_id" "",
    mandatory "operation_name" .text, text "summary" "", list "tags" .text,
    defaulted "response" Response.shape, defaulted "body" Body.shape,
    optional "headers" Aggregate.shape, optional "query_params" Aggregate.shape,
    list "params" PathParam.shape, list "props" Argument.shape,
    optional "mutator" Mutator.shape, optional "form_data" Mutator.shape,
    optional "form_url_encoded" Mutator.shape, optional "params_serializer" Mutator.shape,
    defaulted "override" Overrides.shape, flag "deprecated" false]

def shape : Shape := .record "GeneratorVerbOptions" recordFields

def ofJson (v : Json) : Operation where
  verb := (Verb.ofName? (v.textAt "verb")).getD .get
  operationId := v.textAt "operation_id"
  operationName := v.textAt "operation_name"
  summary := v.textAt "summary"
  tags := v.listAt Json.toText "tags"
  response := Response.ofJson (v.field "response")
  body := Body.ofJson (v.field "body")
  headers := v.optionAt Aggregate.ofJson "headers"
  queryParams := v.optionAt Aggregate.ofJson "query_params"
  params := v.listAt PathParam.ofJson "params"
  arguments := v.listAt Argument.ofJson "props"
  mutator := v.optionAt Mutator.ofJson "mutator"
  formData := v.optionAt Mutator.ofJson "form_data"
  formUrlEncoded := v.optionAt Mutator.ofJson "form_url_encoded"
  serializer := v.optionAt Mutator.ofJson "params_serializer"
  overrides := Overrides.ofJson (v.field "override")
  deprecated := v.flagAt "deprecated"

/-- The fields of an operation's normal form. -/
def toFields (op : Operation) : Json.Fields :=
  [("verb", .str op.verb.name), ("operation_id", .str op.operationId),
    ("operation_name", .str op.operationName), ("summary", .str op.summary),
    ("tags", .ofList Json.str op.tags), ("response", op.response.toJson),
    ("body", op.body.toJson), ("headers", .ofOption Aggregate.toJson op.headers),
    ("query_params", .ofOption Aggregate.toJson op.queryParams),
    ("params", .ofList PathParam.toJson op.params),
    ("props", .ofList Argument.toJson op.arguments),
    ("mutator", .ofOption Mutator.toJson op.mutator),
    ("form_data", .ofOption Mutator.toJson op.formData),
    ("form_url_encoded", .ofOption Mutator.toJson op.formUrlEncoded),
    ("params_serializer", .ofOption Mutator.toJson op.serializer),
    ("override", op.overrides.toJson), ("deprecated", .bool op.deprecated)]

def toJson (op : Operation) : Json := .obj op.toFields

end Operation

namespace Endpoint

/-- The fields of an endpoint's record: those of the operation, then the routes. -/
def shape : Shape := .record "OperationEntry"
  (Operation.recordFields ++ [mandatory "route" .text, mandatory "path_route" .text])

def ofJson (v : Json) : Endpoint where
  operation := Operation.ofJson v
  route := v.textAt "route"
  pathRoute := v.textAt "path_route"

def toJson (e : Endpoint) : Json :=
  .obj (e.operation.toFields ++ [("route", .str e.route), ("path_route", .str e.pathRoute)])

end Endpoint

end RequestGen
