import RequestGen.Operation.Record
import RequestGen.Output.Basic

/-! # Output configuration as a record

Shapes, `ofJson` and `toJson` of the output configuration and its parts. -/

namespace RequestGen

open RequestGen.Field (mandatory text flag optional list defaulted)

namespace CompilerOptions

def shape : Shape := .record "CompilerOptions"
  [flag "exact_optional_property_types" false, optional "allow_synthetic_default_imports" .flag,
    optional "es_module_interop" .flag, optional "target" .text]

def ofJson (v : Json) : CompilerOptions where
  exactOptionalPropertyTypes := v.flagAt "exact_optional_property_types"
  allowSyntheticDefaultImports := v.flag?At "allow_synthetic_default_imports"
  esModuleInterop := v.flag?At "es_module_interop"
  target := v.text?At "target"

def toJson (o : CompilerOptions) : Json := .obj
  [("exact_optional_property_types", .bool o.exactOptionalPropertyTypes),
    ("allow_synthetic_default_imports", .ofFlag? o.allowSyntheticDefaultImports),
    ("es_module_interop", .ofFlag? o.esModuleInterop), ("target", .ofText? o.target)]

end CompilerOptions

namespace TsConfig

def shape : Shape := .record "TsConfig" [optional "compiler_options" CompilerOptions.shape]

def ofJson (v : Json) : TsConfig where
  compilerOptions := v.optionAt CompilerOptions.ofJson "compiler_options"

def toJson (t : TsConfig) : Json := .obj
  [("compiler_options", .ofOption CompilerOptions.toJson t.compilerOptions)]

end TsConfig

namespace OutputConfig

def shape : Shape := .record "OutputConfig"
  [{ key := "client", shape := .oneOf (Style.all.map (·.name))
     fallback := some (.str Style.functions.name) },
    { key := "http_client", shape := .oneOf [HttpClient.axios.name, HttpClient.fetch.name]
      fallback := some (.str HttpClient.axios.name) },
    optional "target" .text, optional "schemas" .text, optional "tsconfig" TsConfig.shape,
    flag "options_param_required" false, flag "include_http_response_return_type" true,
    flag "has_awaited_type" true, optional "mutator" Mutator.shape]

def ofJson (v : Json) : OutputConfig where
  style := (Style.ofName? (v.textAt "client")).getD .functions
  httpClient := HttpClient.ofName (v.textAt "http_client")
  target := v.text?At "target"
  schemas := v.text?At "schemas"
  tsconfig := v.optionAt TsConfig.ofJson "tsconfig"
  optionsParamRequired := v.flagAt "options_param_required"
  includeHttpResponse := v.flagAt "include_http_response_return_type"
  hasAwaitedType := v.flagAt "has_awaited_type"
  mutator := v.optionAt Mutator.ofJson "mutator"

def toJson (o : OutputConfig) : Json := .obj
  [("client", .str o.style.name), ("http_client", .str o.httpClient.name),
    ("target", .ofText? o.target), ("schemas", .ofText? o.schemas),
    ("tsconfig", .ofOption TsConfig.toJson o.tsconfig),
    ("options_param_required", .bool o.optionsParamRequired),
    ("include_http_response_return_type", .bool o.includeHttpResponse),
    ("has_awaited_type", .bool o.hasAwaitedType),
    ("mutator", .ofOption Mutator.toJson o.mutator)]

end OutputConfig

end RequestGen
