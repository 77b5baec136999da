import RequestGen.Proofs.Client.ImportLines
import RequestGen.Proofs.Group.FactoryExports
import RequestGen.Proofs.Request.AxiosReferences
import RequestGen.Proofs.Request.QueryWriter

/-! # The packages that a group imports

How a call reaches axios is decided operation by operation, which packages a group depends on by its
output configuration and all its operations, and what is imported of them by the names that stand in
the code. Without a global mutator the three agree: what the calls use is imported, in the form that
they are written for (`calls_bound`). With one axios is no package of the group, also for functions
that call it because their own operation has no mutator (`axios_imported_iff`). -/

namespace RequestGen

open Code (FunctionText)

/-! ### The packages of a style -/

namespace Style

variable {style : Style} {ctx : Context} {op : Operation}

theorem transport_eq (hclient : ctx.output.httpClient = .axios) :
    style.transport ctx op = if op.mutator.isSome then .mutator else .axios := by
  cases style <;> simp [transport, Transport.resolve, hclient]

/-- The types of axios that a style refers to. -/
def axiosTypes (style : Style) : List String :=
  ["AxiosRequestConfig", "AxiosResponse"] ++ if style = .swr then ["AxiosError"] else []

variable {hasGlobalMutator hasSerializerOptions : Bool} {d : Dependency}

theorem mem_dependencies_axios_iff (hd : d.package = "axios") :
    d ∈ style.dependencies hasGlobalMutator hasSerializerOptions ↔
      hasGlobalMutator = false ∧ d = axiosDependency style.axiosTypes := by
  have hqs : d ≠ qsDependency := by
    rintro rfl
    exact absurd hd (by decide)
  have hswr : d ∉ swrDependencies := by
    intro h
    simp only [swrDependencies, List.mem_cons, List.not_mem_nil, or_false] at h
    rcases h with rfl | rfl
    · exact absurd hd (by decide)
    · exact absurd hd (by decide)
  cases style <;> cases hasGlobalMutator <;> cases hasSerializerOptions <;>
    simp [dependencies, axiosTypes, hqs, hswr]

theorem mem_of_mem_dependencies (h : d ∈ style.dependencies true hasSerializerOptions) :
    d ∈ qsDependency :: swrDependencies := by
  cases style <;> cases hasSerializerOptions <;> simp_all [dependencies]

theorem qs_mem_dependencies : qsDependency ∈ style.dependencies hasGlobalMutator true := by
  cases style <;> simp [dependencies]

theorem isPlain_of_mem_dependencies
    (h : d ∈ style.dependencies hasGlobalMutator hasSerializerOptions) :
    (∀ i ∈ d.exports, i.IsPlain) ∧ '\'' ∉ d.package.toList := by
  have hall : ∀ d ∈ style.dependencies hasGlobalMutator hasSerializerOptions,
      (∀ i ∈ d.exports, IsPlainName i.name ∧ IsPlainName i.localName) ∧
        '\'' ∉ d.package.toList := by
    cases style <;> cases hasGlobalMutator <;> cases hasSerializerOptions <;> decide
  exact hall d h

end Style

/-! ### Groups -/

namespace Group

variable {style : Style} {ctx : Context} {t left : ResultTable} {title : String}
  {endpoints : List Endpoint} {g : Group}

/-- The text of the file is its comment, the lines, an empty line and some code. -/
def HasImportLines (g : Group) (lines : List String) : Prop :=
  ∃ code, g.render =
    "/**\n * Generated by clientgen. Do not edit manually.\n * " ++ g.title ++ "\n */\n" ++
      String.join (lines.map fun line => line ++ "\n") ++ "\n" ++ code

theorem hasImportLines_importLines (g : Group) : g.HasImportLines g.importLines := by
  refine ⟨lineIfAny g.header ++ String.join (g.implementations.map fun implementation =>
    s!"{implementation}\n") ++ lineIfAny g.footer, ?_⟩
  unfold render
  simp only [String.append_assoc, toString]

/-- The import lines of the file say what the statements say. -/
def Imports (g : Group) (statements : List ImportStatement) : Prop :=
  ∃ lines, List.Forall₂ ImportStatement.WrittenAs statements lines ∧ g.HasImportLines lines

theorem imports_importStatements (g : Group) : g.Imports g.importStatements :=
  ⟨g.importLines, ImportStatement.forall₂_writtenAs_render _, g.hasImportLines_importLines⟩

/-- The statements for packages. -/
def packageImports (g : Group) : List ImportStatement :=
  dependencyImports g.dependencies g.code g.allowsSyntheticDefault

/-- The lines that import from packages: the first import lines of the file. -/
def packageLines (g : Group) : List String := g.packageImports.map (·.render)

theorem hasImportLines_packageLines (g : Group) :
    ∃ others, g.HasImportLines (g.packageLines ++ others) := by
  have hlines : ∃ others, g.importLines = g.packageLines ++ others := by
    rw [importLines, importStatements, List.append_assoc, List.map_append]
    exact ⟨_, rfl⟩
  obtain ⟨others, hothers⟩ := hlines
  exact ⟨others, hothers ▸ g.hasImportLines_importLines⟩

theorem imports_of_rebuild (hg : rebuild t style ctx title endpoints = (left, .ok g)) :
    g.dependencies = style.dependencies ctx.output.mutator.isSome
        (endpoints.any fun e =>
          (e.operation.overrides.serializerOptions.map (·.isSet)).getD false) ∧
      g.allowsSyntheticDefault = ctx.output.allowsSyntheticDefault := by
  obtain ⟨generated, rest, -, rfl⟩ := exists_of_rebuild hg
  refine ⟨?_, rfl⟩
  show style.dependencies _ ((endpoints.map (·.operation)).any _) = _
  rw [List.any_map]
  rfl

theorem refersTo_code_of_mem {name implementation : String} (hn : IsPlainName name)
    (hmem : implementation ∈ g.implementations) (h : refersTo implementation name = true) :
    refersTo g.code name = true := by
  have hlines : refersTo g.code name =
      (g.header :: g.implementations ++ [g.footer]).any (refersTo · name) :=
    refersTo_intercalate hn (by decide) _
  rw [hlines, List.any_eq_true]
  exact ⟨implementation, List.mem_append_left _ (List.mem_cons_of_mem _ hmem), h⟩

theorem refersTo_code_of_mentions (hclient : ctx.output.httpClient = .axios)
    (hg : rebuild t style ctx title endpoints = (left, .ok g)) {e : Endpoint} {f : RequestFunction}
    (he : e ∈ endpoints) (hf : style.requestFunction ctx e = .ok f) {name : String}
    (hn : IsPlainName name) (hk : name ∉ FunctionText.keywords)
    (hm : f.toText.mentions name = true) : refersTo g.code name = true := by
  have hfetch : style.transport ctx e.operation ≠ .fetch := by
    rw [Style.transport_eq hclient]
    split <;> exact nofun
  obtain ⟨f', hf', hmem⟩ := exists_requestFunction hg he
  obtain rfl := Except.ok.inj (hf.symm.trans hf')
  rw [if_neg hfetch] at hmem
  exact refersTo_code_of_mem hn hmem ((RequestFunction.refersTo_render hn hk).trans hm)

/-- Axios is a package of the group unless there is a global mutator. -/
theorem mem_packageImports_axios_iff (hg : rebuild t style ctx title endpoints = (left, .ok g))
    {clause : ImportClause} :
    ⟨clause, "axios"⟩ ∈ g.packageImports ↔ ctx.output.mutator = none ∧
      ⟨clause, "axios"⟩ ∈ (axiosDependency style.axiosTypes).statements g.code
        ctx.output.allowsSyntheticDefault := by
  obtain ⟨hdeps, hallows⟩ := imports_of_rebuild hg
  rw [packageImports, dependencyImports, List.mem_flatMap, hdeps, hallows]
  constructor
  · rintro ⟨d, hd, hs⟩
    have hpackage : d.package = "axios" := (Dependency.module_of_mem_statements hs).symm
    obtain ⟨hglobal, rfl⟩ := (Style.mem_dependencies_axios_iff hpackage).mp hd
    exact ⟨by simpa using hglobal, hs⟩
  · rintro ⟨hglobal, hs⟩
    exact ⟨_, (Style.mem_dependencies_axios_iff rfl).mpr ⟨by rw [hglobal]; rfl, rfl⟩, hs⟩

theorem isPlain_of_mem_packageImports (hg : rebuild t style ctx title endpoints = (left, .ok g))
    {s : ImportStatement} (hs : s ∈ g.packageImports) : s.IsPlain := by
  obtain ⟨d, hd, hs⟩ := List.mem_flatMap.mp hs
  rw [(imports_of_rebuild hg).1] at hd
  obtain ⟨hexports, hpackage⟩ := Style.isPlain_of_mem_dependencies hd
  exact Dependency.isPlain_of_mem_statements hexports hpackage hs

/-- A default export or a whole package is imported exactly if the line that imports it is there. -/
theorem render_mem_packageLines_iff (hg : rebuild t style ctx title endpoints = (left, .ok g))
    {s : ImportStatement} (hs : s.IsPlain) {name : String}
    (hclause : s.clause = .default name ∨ s.clause = .star name) :
    s.render ∈ g.packageLines ↔ s ∈ g.packageImports := by
  rw [packageLines, List.mem_map]
  constructor
  · rintro ⟨other, hother, hrender⟩
    obtain ⟨hread, hmodule⟩ :=
      ImportStatement.asRead_eq_of_render_eq (isPlain_of_mem_packageImports hg hother) hs hrender
    have hsame : other = s := by
      obtain ⟨clause, module⟩ := other
      obtain ⟨clause', module'⟩ := s
      obtain rfl : module = module' := hmodule
      rcases hclause with rfl | rfl
      · cases clause <;> simp_all [ImportClause.asRead]
      · cases clause <;> simp_all [ImportClause.asRead]
    exact hsame ▸ hother
  · exact fun h => ⟨s, h, rfl⟩

/-- Without a global mutator the code of axios is imported by its default export or as a whole, as
the compiler options want it. -/
theorem axios_mem_packageLines_iff (hg : rebuild t style ctx title endpoints = (left, .ok g)) :
    ("import axios from 'axios';" ∈ g.packageLines ↔ ctx.output.mutator = none ∧
        refersTo g.code "axios" = true ∧ ctx.output.allowsSyntheticDefault = true) ∧
      ("import * as axios from 'axios';" ∈ g.packageLines ↔ ctx.output.mutator = none ∧
        refersTo g.code "axios" = true ∧ ctx.output.allowsSyntheticDefault = false) := by
  have hname : IsPlainName "axios" := by decide
  have hmodule : '\'' ∉ "axios".toList := by decide
  have hdefault := render_mem_packageLines_iff hg (s := ⟨.default "axios", "axios"⟩)
    ⟨hname, hmodule⟩ (.inl rfl)
  have hstar := render_mem_packageLines_iff hg (s := ⟨.star "axios", "axios"⟩)
    ⟨hname, hmodule⟩ (.inr rfl)
  rw [mem_packageImports_axios_iff hg, Dependency.default_mem_statements_iff rfl] at hdefault
  rw [mem_packageImports_axios_iff hg, Dependency.star_mem_statements_iff rfl] at hstar
  refine ⟨hdefault.trans ?_, hstar.trans ?_⟩
  · simp [axiosDependency]
  · simp [axiosDependency]

theorem exists_types_mem_packageImports (hg : rebuild t style ctx title endpoints = (left, .ok g))
    (hglobal : ctx.output.mutator = none) {type : String} (ht : type ∈ style.axiosTypes)
    (hr : refersTo g.code type = true) :
    ∃ items, ⟨.types items, "axios"⟩ ∈ g.packageImports ∧ type ∈ items.map Import.localName := by
  obtain ⟨items, hitems, hmem⟩ :=
    Dependency.exists_types_mem_statements (d := axiosDependency style.axiosTypes) rfl ht hr
  exact ⟨items, (mem_packageImports_axios_iff hg).mpr ⟨hglobal, hitems⟩, hmem⟩

/-- Whether a line for a package imports a type. -/
def ImportsType (g : Group) (type package : String) : Prop :=
  ∃ items, ∃ line ∈ g.packageLines, ImportStatement.WrittenAs ⟨.types items, package⟩ line ∧
    type ∈ items.map Import.localName

theorem importsType_axios (hg : rebuild t style ctx title endpoints = (left, .ok g))
    (hglobal : ctx.output.mutator = none) {type : String} (ht : type ∈ style.axiosTypes)
    (hr : refersTo g.code type = true) : g.ImportsType type "axios" := by
  obtain ⟨items, hitems, hmem⟩ := exists_types_mem_packageImports hg hglobal ht hr
  exact ⟨items, _, List.mem_map_of_mem hitems, ImportStatement.writtenAs_render _, hmem⟩

theorem qs_mem_packageLines (hg : rebuild t style ctx title endpoints = (left, .ok g))
    {e : Endpoint} (he : e ∈ endpoints) (hwrites : e.writesQuery = true)
    (hr : refersTo g.code "qs" = true) :
    if ctx.output.allowsSyntheticDefault then "import qs from 'qs';" ∈ g.packageLines
    else "import * as qs from 'qs';" ∈ g.packageLines := by
  obtain ⟨hdeps, hallows⟩ := imports_of_rebuild hg
  have hset : (endpoints.any fun e =>
      (e.operation.overrides.serializerOptions.map (·.isSet)).getD false) = true :=
    List.any_eq_true.mpr ⟨e, he, (Bool.and_eq_true_iff.mp hwrites).2⟩
  have hqs : qsDependency ∈ g.dependencies := by
    rw [hdeps, hset]
    exact Style.qs_mem_dependencies
  have hmem {clause : ImportClause}
      (h : ⟨clause, "qs"⟩ ∈ qsDependency.statements g.code g.allowsSyntheticDefault) :
      ImportStatement.render ⟨clause, "qs"⟩ ∈ g.packageLines :=
    List.mem_map_of_mem (List.mem_flatMap.mpr ⟨_, hqs, h⟩)
  have hexports : qsDependency.exports =
      .syntheticDefault "qs" :: ([] : List String).map Import.type := rfl
  rw [← hallows]
  split
  · next hallowed =>
    exact hmem ((Dependency.default_mem_statements_iff hexports).mpr ⟨rfl, rfl, hr, hallowed⟩)
  · next hallowed =>
    exact hmem ((Dependency.star_mem_statements_iff hexports).mpr
      ⟨rfl, rfl, hr, Bool.eq_false_iff.mpr hallowed⟩)

/-- In a group over axios without a global mutator, what the calls of its functions use of packages
is imported, and in the form that the calls are written for. -/
theorem calls_bound (hclient : ctx.output.httpClient = .axios) (hglobal : ctx.output.mutator = none)
    (hg : rebuild t style ctx title endpoints = (left, .ok g)) :
    (∃ others, g.HasImportLines (g.packageLines ++ others)) ∧
    (∀ e ∈ endpoints, e.operation.mutator = none →
      ∃ f client args, style.requestFunction ctx e = .ok f ∧
        f.result = .call (client ++ "." ++ e.operation.verb.name) args ∧
        (client = "axios" ∨ client = "axios.default") ∧
        (client = "axios" ↔ "import axios from 'axios';" ∈ g.packageLines) ∧
        (client = "axios.default" ↔ "import * as axios from 'axios';" ∈ g.packageLines) ∧
        g.ImportsType "AxiosResponse" "axios" ∧
        ((∃ isOptional type, .options isOptional type ∈ f.params) →
          g.ImportsType "AxiosRequestConfig" "axios")) ∧
    ∀ e ∈ endpoints, ∀ f, style.requestFunction ctx e = .ok f → f.result.writesQuery = true →
      if ctx.output.allowsSyntheticDefault then "import qs from 'qs';" ∈ g.packageLines
      else "import * as qs from 'qs';" ∈ g.packageLines := by
  refine ⟨g.hasImportLines_packageLines, fun e he hm => ?_, fun e he f hf hwrites => ?_⟩
  · -- the function of an operation without a mutator calls axios, and the code refers to it
    obtain ⟨f, hf, -⟩ := exists_requestFunction hg he
    have hvia : style.transport ctx e.operation = .axios := by
      rw [Style.transport_eq hclient, hm]
      rfl
    have hover : e.requestOver ctx style.exportsFunctions style.isGeneric .axios = .ok f :=
      hvia ▸ hf
    have hrefers {name : String} (hn : IsPlainName name) (hk : name ∉ FunctionText.keywords)
        (h : f.toText.mentions name = true) : refersTo g.code name = true :=
      refersTo_code_of_mentions hclient hg he hf hn hk h
    have hresult := Endpoint.result_of_requestOver_axios hover
    have hcalled : refersTo g.code "axios" = true := by
      refine hrefers (by decide) (by decide) (RequestFunction.CallsAxios.mentions ?_)
      exact ⟨_, by unfold OutputConfig.axiosClient; split <;> decide, _, _, hresult⟩
    obtain ⟨hdefault, hstar⟩ := axios_mem_packageLines_iff hg
    refine ⟨f, ctx.output.axiosClient, _, hf, hresult, ?_⟩
    rw [hdefault, hstar]
    refine ⟨?_, ?_, ?_, ?_, fun ⟨_, _, hp⟩ => ?_⟩
    · unfold OutputConfig.axiosClient
      split <;> simp
    · simp [OutputConfig.axiosClient, hglobal, hcalled]
    · simp [OutputConfig.axiosClient, hglobal, hcalled]
    · exact importsType_axios hg hglobal (by simp [Style.axiosTypes])
        (hrefers (by decide) (by decide) (Endpoint.mentions_axiosResponse hover))
    · exact importsType_axios hg hglobal (by simp [Style.axiosTypes])
        (hrefers (by decide) (by decide) (Endpoint.mentions_axiosRequestConfig hover hm hp))
  · -- a writer is only there with settings, and with them `qs` is a package of the group
    have hwriter : e.writesQuery = true := by
      rw [Endpoint.writesQuery_result hf] at hwrites
      exact (Bool.and_eq_true_iff.mp hwrites).2
    have hqs : f.result.mentions "qs" = true := Code.Expr.mentions_qs_of_writesQuery _ hwrites
    have hrefers : refersTo g.code "qs" = true :=
      refersTo_code_of_mentions hclient hg he hf (by decide) (by decide)
        (RequestFunction.mentions_of_result (by decide) hqs)
    exact qs_mem_packageLines hg he hwriter hrefers

/-- An operation with query parameters, for which the serializer has settings. -/
def listPetsSorted : Endpoint where
  operation := {
    verb := .get
    operationName := "listPets"
    queryParams := some { schema := { name := "ListPetsParams" } }
    overrides := { serializerOptions := some { qs := some [("indices", .bool false)] } } }
  route := "/pets"
  pathRoute := "/pets"

/-- A project whose compiler makes up no default exports. -/
def strictContext : Context where
  output := { tsconfig := some {} }

/-- Where no default exports are made up the calls reach axios as a member of the whole package, and
the serializer is imported as a whole, too. -/
theorem calls_bound_listPets :
    ∃ left g, rebuild .empty .functions strictContext "Pets" [health false, listPetsSorted] =
        (left, .ok g) ∧
      "import * as axios from 'axios';" ∈ g.packageLines ∧
      "import * as qs from 'qs';" ∈ g.packageLines := by
  have hg : rebuild .empty .functions strictContext "Pets" [health false, listPetsSorted] =
      (_, .ok _) := rfl
  obtain ⟨-, haxios, hqs⟩ := calls_bound rfl rfl hg
  refine ⟨_, _, hg, ?_, ?_⟩
  · obtain ⟨f, client, args, hf, hresult, hclient, -, hstar, -⟩ :=
      haxios (health false) List.mem_cons_self rfl
    have hcall : f.result = .call ("axios.default" ++ "." ++ "get") _ :=
      Endpoint.result_of_requestOver_axios hf
    obtain ⟨hcallee, -⟩ := Code.Expr.call.inj (hresult.symm.trans hcall)
    rcases hclient with rfl | rfl
    · exact absurd hcallee (by decide)
    · exact hstar.mp rfl
  · exact hqs listPetsSorted (List.mem_cons_of_mem _ List.mem_cons_self) _ rfl (by decide)

/-! ### A global mutator -/

theorem mem_importedNames_of_schemas_none {name : String} (h : g.schemas = none) :
    name ∈ importedNames g.importStatements ↔ name ∈ importedNames g.packageImports ∨
      ∃ m ∈ g.mutators, m.name = name ∧ m.path ≠ "" := by
  rw [importStatements, h, List.append_nil, importedNames_append, List.mem_append,
    mem_importedNames_mutatorImports]
  rfl

theorem mem_importedNames_of_schemas_some {name schemas : String} (h : g.schemas = some schemas) :
    name ∈ importedNames g.importStatements ↔ name ∈ importedNames g.packageImports ∨
      (∃ m ∈ g.mutators, m.name = name ∧ m.path ≠ "") ∨
      (schemas ≠ "" ∧ ∃ i ∈ g.imports, i.localName = name) := by
  have hmodels :
      name ∈ importedNames (if schemas = "" then [] else modelImports g.imports schemas) ↔
        schemas ≠ "" ∧ ∃ i ∈ g.imports, i.localName = name := by
    split
    · next hempty => simp [hempty, importedNames]
    · next hne => rw [mem_importedNames_modelImports, and_iff_right hne]
  rw [importStatements, h, importedNames_append, importedNames_append, List.mem_append,
    List.mem_append, mem_importedNames_mutatorImports, hmodels, or_assoc]
  rfl

theorem mem_importedNames_iff {name : String} :
    name ∈ importedNames g.importStatements ↔ name ∈ importedNames g.packageImports ∨
      (∃ m ∈ g.mutators, m.name = name ∧ m.path ≠ "") ∨
      ∃ schemas, g.schemas = some schemas ∧ schemas ≠ "" ∧ ∃ i ∈ g.imports, i.localName = name := by
  cases h : g.schemas with
  | none => simp [mem_importedNames_of_schemas_none h]
  | some schemas => simp [mem_importedNames_of_schemas_some h]

theorem axios_notMem_importedNames (hg : rebuild t style ctx title endpoints = (left, .ok g))
    (hglobal : ctx.output.mutator ≠ none) : "axios" ∉ importedNames g.packageImports := by
  -- nothing else that a style depends on is known under that name
  have hexports : ∀ d ∈ qsDependency :: swrDependencies, ∀ i ∈ d.exports,
      "axios" ≠ i.name ∧ "axios" ≠ i.localName := by
    decide
  intro h
  obtain ⟨s, hs, hname⟩ := mem_importedNames.mp h
  obtain ⟨d, hd, hs⟩ := List.mem_flatMap.mp hs
  rw [(imports_of_rebuild hg).1, Option.isSome_iff_ne_none.mpr hglobal] at hd
  obtain ⟨i, hi, heq⟩ :=
    Dependency.exists_of_mem_importedNames (mem_importedNames.mpr ⟨s, hs, hname⟩)
  obtain ⟨hne, hneLocal⟩ := hexports d (Style.mem_of_mem_dependencies hd) i hi
  exact heq.elim hne hneLocal

theorem axios_mem_importedNames (hg : rebuild t style ctx title endpoints = (left, .ok g))
    (hglobal : ctx.output.mutator = none) (hcalled : refersTo g.code "axios" = true) :
    "axios" ∈ importedNames g.packageImports := by
  have hbound (clause : ImportClause) (hclause : clause.localNames = ["axios"])
      (h : ⟨clause, "axios"⟩ ∈ (axiosDependency style.axiosTypes).statements g.code
        ctx.output.allowsSyntheticDefault) : "axios" ∈ importedNames g.packageImports := by
    refine mem_importedNames.mpr ⟨_, (mem_packageImports_axios_iff hg).mpr ⟨hglobal, h⟩, ?_⟩
    rw [hclause]
    exact List.mem_singleton_self _
  cases hallowed : ctx.output.allowsSyntheticDefault with
  | true =>
    exact hbound (.default "axios") rfl
      ((Dependency.default_mem_statements_iff rfl).mpr ⟨rfl, rfl, hcalled, hallowed⟩)
  | false =>
    exact hbound (.star "axios") rfl
      ((Dependency.star_mem_statements_iff rfl).mpr ⟨rfl, rfl, hcalled, hallowed⟩)

/-- In a group over axios of which some function calls axios, the package is imported exactly if
there is no global mutator. With one, the name is bound only if a function of the user or a model
type has it. -/
theorem axios_imported_iff (hclient : ctx.output.httpClient = .axios)
    (hg : rebuild t style ctx title endpoints = (left, .ok g)) {e : Endpoint} {f : RequestFunction}
    (he : e ∈ endpoints) (hf : style.requestFunction ctx e = .ok f) (hcalls : f.CallsAxios) :
    (∃ others, g.HasImportLines (g.packageLines ++ others)) ∧
    (("import axios from 'axios';" ∈ g.packageLines ∨
        "import * as axios from 'axios';" ∈ g.packageLines) ↔ ctx.output.mutator = none) ∧
    g.Imports g.importStatements ∧
    ("axios" ∈ importedNames g.importStatements ↔ ctx.output.mutator = none ∨
      (∃ m ∈ endpoints.flatMap (·.operation.mutators), m.name = "axios" ∧ m.path ≠ "") ∨
      ∃ schemas, ctx.output.schemas = some schemas ∧ schemas ≠ "" ∧
        ∃ i ∈ endpoints.flatMap (·.operation.modelImports), i.localName = "axios") := by
  have hcalled : refersTo g.code "axios" = true :=
    refersTo_code_of_mentions hclient hg he hf (by decide) (by decide) hcalls.mentions
  obtain ⟨hdefault, hstar⟩ := axios_mem_packageLines_iff hg
  have hpackage : ("import axios from 'axios';" ∈ g.packageLines ∨
      "import * as axios from 'axios';" ∈ g.packageLines) ↔ ctx.output.mutator = none := by
    rw [hdefault, hstar]
    cases ctx.output.allowsSyntheticDefault <;> simp [hcalled]
  have hname : "axios" ∈ importedNames g.packageImports ↔ ctx.output.mutator = none := by
    constructor
    · intro h
      by_contra hglobal
      exact axios_notMem_importedNames hg hglobal h
    · intro hglobal
      exact axios_mem_importedNames hg hglobal hcalled
  have hschemas : g.schemas = ctx.output.schemas := by
    obtain ⟨generated, rest, -, rfl⟩ := exists_of_rebuild hg
    rfl
  refine ⟨g.hasImportLines_packageLines, hpackage, g.imports_importStatements, ?_⟩
  rw [mem_importedNames_iff, hname, hschemas, mutators_eq hg, imports_eq hg]

/-- A run with a global mutator. -/
def mutatorContext : Context where
  output := { mutator := some { name := "customInstance", path := "../mutator" } }

/-- The operation itself names no mutator, so its function calls axios; but with a global mutator
nothing is imported. -/
theorem axios_unbound_health :
    mutatorContext.output.httpClient = .axios ∧
      ∃ left g f, rebuild .empty .functions mutatorContext "Pets" [health false] = (left, .ok g) ∧
        Style.functions.requestFunction mutatorContext (health false) = .ok f ∧ f.CallsAxios ∧
        g.HasImportLines [] := by
  refine ⟨rfl, _, _, _, rfl, rfl, ?_, ?_⟩
  · exact ⟨"axios", List.mem_cons_self, .get, _, rfl⟩
  · exact hasImportLines_importLines _

/-- Without one, the same group imports axios. -/
theorem axios_imported_health :
    ∃ left g, rebuild .empty .functions {} "Pets" [health false] = (left, .ok g) ∧
      g.Imports g.importStatements ∧ "axios" ∈ importedNames g.importStatements := by
  have hg : rebuild .empty .functions {} "Pets" [health false] = (_, .ok _) := rfl
  have hf : Style.functions.requestFunction {} (health false) = .ok _ := rfl
  have hcalls : ((health false).axiosFlat {} true true).CallsAxios :=
    ⟨"axios", List.mem_cons_self, .get, _, rfl⟩
  obtain ⟨-, -, himports, hiff⟩ := axios_imported_iff rfl hg List.mem_cons_self hf hcalls
  exact ⟨_, _, hg, himports, hiff.mpr (.inl rfl)⟩

end Group

end RequestGen
