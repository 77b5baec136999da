import RequestGen.Proofs.Group.ImportClashes
import RequestGen.Proofs.Group.StatusTypes

/-! # The imports that are collected for an operation

Six parts of an operation name model types that its code may refer to. All of them are collected,
but for those of a response that is a blob (`mem_modelImports_iff`). A blob is no model, but the
failures of its operation may be: a model that the code refers to is collected exactly if the
response is no blob or another part of the operation has it too (`Style.mem_imports_iff`), and over
fetch the code does refer to the models of a blob's response types
(`Style.refersTo_notMem_imports_of_isBlob`). What is collected is bound in the file of the group if
it has a module of models (`Group.mem_importedNames_of_attaches`). -/

namespace RequestGen

/-- A part of an operation that may have imports of model types. -/
inductive ModelUse where
  | response
  | body
  | namedPathParams
  | queryParams
  | headers
  | pathParams
deriving DecidableEq

namespace Operation

variable {op : Operation} {i : Import}

/-- The imports of a part of the operation. -/
def importsOf (op : Operation) : ModelUse → List Import
  | .response => op.response.imports
  | .body => op.body.imports
  | .namedPathParams =>
    ((op.namedPathParams.bind (·.schema)).map fun s => { name := s.name }).toList
  | .queryParams => (op.queryParams.map fun q => { name := q.schema.name }).toList
  | .headers => (op.headers.map fun h => { name := h.schema.name }).toList
  | .pathParams => op.params.flatMap (·.imports)

/-- The import is one of an operation's parts. -/
def Attaches (op : Operation) (i : Import) : Prop := ∃ part, i ∈ op.importsOf part

/-- The import is one of a part other than the response. -/
def AttachesApart (op : Operation) (i : Import) : Prop :=
  ∃ part, part ≠ .response ∧ i ∈ op.importsOf part

theorem attaches_iff : op.Attaches i ↔ i ∈ op.response.imports ∨ op.AttachesApart i := by
  constructor
  · rintro ⟨part, h⟩
    by_cases hpart : part = .response
    · subst hpart
      exact .inl h
    · exact .inr ⟨part, hpart, h⟩
  · rintro (h | ⟨part, -, h⟩)
    · exact ⟨.response, h⟩
    · exact ⟨part, h⟩

/-- What is collected: the imports of all parts, but not those of a blob. -/
theorem mem_modelImports_iff :
    i ∈ op.modelImports ↔
      (op.response.isBlob = false ∧ i ∈ op.response.imports) ∨ op.AttachesApart i := by
  have hresponse : i ∈ (if op.response.isBlob then [] else op.response.imports) ↔
      op.response.isBlob = false ∧ i ∈ op.response.imports := by
    cases op.response.isBlob <;> simp
  have hparts : i ∈ op.modelImports ↔
      (op.response.isBlob = false ∧ i ∈ op.response.imports) ∨ i ∈ op.importsOf .body ∨
        i ∈ op.importsOf .namedPathParams ∨ i ∈ op.importsOf .queryParams ∨
        i ∈ op.importsOf .headers ∨ i ∈ op.importsOf .pathParams := by
    rw [← hresponse]
    simp only [modelImports, importsOf, List.mem_append, or_assoc]
  rw [hparts]
  refine or_congr_right ⟨?_, ?_⟩
  · rintro (h | h | h | h | h)
    · exact ⟨.body, nofun, h⟩
    · exact ⟨.namedPathParams, nofun, h⟩
    · exact ⟨.queryParams, nofun, h⟩
    · exact ⟨.headers, nofun, h⟩
    · exact ⟨.pathParams, nofun, h⟩
  · rintro ⟨part, hpart, h⟩
    cases part with
    | response => exact absurd rfl hpart
    | body => exact .inl h
    | namedPathParams => exact .inr (.inl h)
    | queryParams => exact .inr (.inr (.inl h))
    | headers => exact .inr (.inr (.inr (.inl h)))
    | pathParams => exact .inr (.inr (.inr (.inr h)))

/-- An import of the operation is left out exactly if it is one of a blob and of nothing else. -/
theorem mem_modelImports_iff_of_attaches (h : op.Attaches i) :
    i ∈ op.modelImports ↔ (op.response.isBlob = true → op.AttachesApart i) := by
  rw [mem_modelImports_iff]
  cases hblob : op.response.isBlob with
  | false => simpa [hblob] using attaches_iff.mp h
  | true => simp

end Operation

/-! ### What the code over fetch refers to -/

namespace Endpoint

variable {e : Endpoint} {output : OutputConfig} {name : String}

/-- The code over fetch refers to what the URL function, the response types and the function that
sends the request refer to. -/
theorem refersTo_fetchRequest (hn : IsPlainName name) :
    refersTo (e.fetchRequest output) name =
      (refersTo e.urlFunction.render name ||
        ((output.includeHttpResponse && e.operation.responseDeclarations.any (refersTo · name)) ||
          refersTo (e.fetchSender output).render name)) := by
  have htypes : refersTo (String.intercalate "\n\n" e.operation.responseDeclarations ++ "\n") name =
      e.operation.responseDeclarations.any (refersTo · name) := by
    rw [refersTo_append_mark hn (by decide), refersTo_intercalate hn (by decide)]
  rw [fetchRequest, fetchCode, Text.lines, refersTo_intercalate hn (by decide)]
  cases output.includeHttpResponse <;> simp [htypes]

theorem refersTo_fetchRequest_of_data (hinclude : output.includeHttpResponse = true)
    (hn : IsPlainName name) {m : StatusMember} (hm : m ∈ e.operation.statusMembers)
    (h : refersTo m.data name = true) : refersTo (e.fetchRequest output) name = true := by
  have hmember : refersTo m.render name = true := by
    show refersTo ("export type " ++ m.name ++ " = \x7b\n  data: " ++ m.data ++ ";\n  status: " ++
      m.status.render ++ ";\n\x7d;") name = true
    rw [refersTo_append_mark hn (by decide), refersTo_append hn (.inl ?_),
      refersTo_append hn (.inr (by decide)), refersTo_append hn (.inl ?_), h, Bool.or_true,
      Bool.true_or, Bool.true_or]
    · exact (endsApart_append (by decide)).trans (by decide)
    · exact (endsApart_append (by decide)).trans (by decide)
  have hdeclared : e.operation.responseDeclarations.any (refersTo · name) = true :=
    List.any_eq_true.mpr ⟨_, Operation.render_mem_responseDeclarations hm, hmember⟩
  rw [refersTo_fetchRequest hn, hinclude, hdeclared, Bool.true_and, Bool.true_or, Bool.or_true]

end Endpoint

/-! ### What is collected -/

namespace Style

variable {style : Style} {ctx : Context} {e : Endpoint} {t left : ResultTable} {g : Generated}

theorem imports_of_generate (h : style.generate ctx e t = (left, .ok g)) :
    g.imports = e.operation.modelImports :=
  (generated_eq_ok_iff.mp (congrArg Prod.snd h)).2

theorem generate_of_fetch (hfetch : ctx.output.httpClient = .fetch) :
    swr.generate ctx e t =
      (t, .ok ⟨e.fetchRequest ctx.output, e.operation.modelImports⟩) := by
  have hvia : swr.transport ctx e.operation = .fetch := transport_eq_fetch_iff.mpr ⟨rfl, hfetch⟩
  have hcode : swr.implementation ctx e = .ok (e.fetchRequest ctx.output) := by
    rw [implementation, hvia]
  show (t, (swr.implementation ctx e).map _) = _
  rw [hcode]
  rfl

/-- A model that a part of an operation names and the code of the operation refers to is collected
for it, unless the response is a blob and only the response names it. -/
theorem mem_imports_iff (h : style.generate ctx e t = (left, .ok g)) :
    ∀ i, e.operation.Attaches i → refersTo g.implementation i.localName = true →
      (i ∈ g.imports ↔ (e.operation.response.isBlob = true → e.operation.AttachesApart i)) := by
  intro i hi _
  rw [imports_of_generate h]
  exact Operation.mem_modelImports_iff_of_attaches hi

/-- Over fetch the response types of a blob refer to models that are not collected: those that only
its response has. -/
theorem refersTo_notMem_imports_of_isBlob (hinclude : ctx.output.includeHttpResponse = true)
    (hfetch : ctx.output.httpClient = .fetch) (hblob : e.operation.response.isBlob = true)
    {m : StatusMember} (hm : m ∈ e.operation.statusMembers) {i : Import}
    (hn : IsPlainName i.localName) (hdata : refersTo m.data i.localName = true)
    (hapart : ¬ e.operation.AttachesApart i) :
    ∃ g, swr.generate ctx e t = (t, .ok g) ∧ refersTo g.implementation i.localName = true ∧
      i ∉ g.imports := by
  refine ⟨_, generate_of_fetch hfetch, ?_, ?_⟩
  · exact Endpoint.refersTo_fetchRequest_of_data hinclude hn hm hdata
  · rw [Operation.mem_modelImports_iff, hblob]
    rintro (⟨h, -⟩ | h)
    · exact absurd h (by decide)
    · exact hapart h

/-- An operation whose failures have a model type; its response may be a blob. -/
def report (isBlob : Bool) : Endpoint where
  operation := {
    verb := .get
    operationName := "report"
    response := {
      imports := [{ name := "Problem" }]
      success := "Blob"
      errors := "Problem"
      successTypes := [{ key := "200", value := "Blob" }]
      errorTypes := [{ key := "default", value := "Problem" }]
      isBlob } }
  route := "/report"
  pathRoute := "/report"

theorem refersTo_report (isBlob : Bool) :
    refersTo ((report isBlob).fetchRequest Group.fetchContext.output) "Problem" = true := by
  obtain ⟨m, hm, hdata⟩ : ∃ m ∈ (report isBlob).operation.statusMembers, m.data = "Problem" :=
    ⟨_, List.mem_cons_of_mem _ List.mem_cons_self, rfl⟩
  exact Endpoint.refersTo_fetchRequest_of_data rfl (by decide) hm (by rw [hdata]; decide)

/-- The model of the failures is collected if the response is no blob. -/
theorem mem_imports_report :
    ∃ left g, swr.generate Group.fetchContext (report false) .empty = (left, .ok g) ∧
      (report false).operation.Attaches { name := "Problem" } ∧
      refersTo g.implementation "Problem" = true ∧ { name := "Problem" } ∈ g.imports := by
  have hgenerate := generate_of_fetch (e := report false) (t := .empty)
    (rfl : Group.fetchContext.output.httpClient = .fetch)
  have hattached : (report false).operation.Attaches { name := "Problem" } :=
    ⟨.response, List.mem_singleton_self _⟩
  have hiff := mem_imports_iff hgenerate { name := "Problem" } hattached (refersTo_report false)
  exact ⟨_, _, hgenerate, hattached, refersTo_report false, hiff.mpr nofun⟩

/-- The model of the failures of a blob is not collected, although the code refers to it. -/
theorem notMem_imports_report :
    ∃ left g, swr.generate Group.fetchContext (report true) .empty = (left, .ok g) ∧
      (report true).operation.Attaches { name := "Problem" } ∧
      refersTo g.implementation "Problem" = true ∧ { name := "Problem" } ∉ g.imports := by
  have hgenerate := generate_of_fetch (e := report true) (t := .empty)
    (rfl : Group.fetchContext.output.httpClient = .fetch)
  have hleft : { name := "Problem" } ∉ (report true).operation.modelImports := List.not_mem_nil
  exact ⟨_, _, hgenerate, ⟨.response, List.mem_singleton_self _⟩, refersTo_report true, hleft⟩

end Style

namespace Group

variable {style : Style} {ctx : Context} {t left : ResultTable} {title schemas : String}
  {endpoints : List Endpoint} {g : Group}

/-- What is collected for an operation is bound in the file of its group. -/
theorem mem_importedNames_of_attaches (hg : rebuild t style ctx title endpoints = (left, .ok g))
    (hschemas : ctx.output.schemas = some schemas) (hne : schemas ≠ "") {e : Endpoint}
    (he : e ∈ endpoints) {i : Import} (hi : e.operation.Attaches i)
    (hblob : e.operation.response.isBlob = true → e.operation.AttachesApart i) :
    i.localName ∈ importedNames g.typeImports := by
  have hcollected : i ∈ g.imports := by
    rw [imports_eq hg]
    exact List.mem_flatMap.mpr ⟨e, he, (Operation.mem_modelImports_iff_of_attaches hi).mpr hblob⟩
  exact mem_importedNames_typeImports.mpr
    ⟨schemas, (schemas_eq hg).trans hschemas, hne, i, hcollected, rfl⟩

end Group

end RequestGen
