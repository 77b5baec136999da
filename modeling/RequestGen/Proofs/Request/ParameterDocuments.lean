import RequestGen.Proofs.ListOutcomes
import RequestGen.Proofs.Reference.Resolution
import RequestGen.Request.ParameterNames

/-! # The documents that parameters are looked up in

A path item may stand in another document than the current one, and its parameters may be references
in turn. The names are collected as if all of these were written in the current document. A
reference that names its document means the same in all of them; any other is looked up where it is
written only if the path item stands in the current document
(`ParameterNames.looked_up_where_written_iff`). -/

namespace RequestGen

open Reference (Stop Location Names Chain refOf? ofText)

/-- The context with another document as the current one. -/
def Context.within (ctx : Context) (specKey : String) : Context := { ctx with specKey }

namespace ParameterNames

/-- The parameters that an item lists for a method. -/
def listedFor (item : Json) (method : String) : Except Fault (List Json) := do
  let operation ← member item method
  let parameters ← member (orEmpty operation) "parameters"
  if parameters.truthy then listed parameters else pure []

/-- The objects that parameters stand for if they are written in the current document. -/
def targets (ctx : Context) (parameters : List Json) : Except Fault (List Json.Fields) :=
  parameters.mapM fun parameter => (resolve ctx parameter).map (·.schema)

/-- The names of an endpoint whose parameters are these objects. -/
def ofTargets (e : Endpoint) (parameters : List Json.Fields) : ParameterNames where
  query := parameters.filterMap (nameIn? "query")
  header := parameters.filterMap (nameIn? "header")
  path := (e.operation.argumentsOf [.pathParam]).map fun a => .str a.name

/-- The names of an endpoint that lists these parameters. -/
def collectFrom (ctx : Context) (e : Endpoint) (parameters : List Json) :
    Except Fault ParameterNames :=
  (targets ctx parameters).map (ofTargets e)

/-- The names of an endpoint after its parameters, written in a document, are replaced by what they
stand for. -/
def collectReplaced (ctx : Context) (e : Endpoint) (specKey : String) (parameters : List Json) :
    Except Fault ParameterNames := do
  let replaced ← targets (ctx.within specKey) parameters
  collectFrom ctx e (replaced.map .obj)

end ParameterNames

/-- The endpoint lists these parameters, in a path item that is written in the document `home`. -/
def Endpoint.Lists (ctx : Context) (e : Endpoint) (home : String) (parameters : List Json) : Prop :=
  ∃ item fields locations, ParameterNames.pathItem ctx e.pathRoute = .ok item ∧
    ParameterNames.dereference ctx item = .ok (.obj fields) ∧
    Chain ctx.specs ⟨ctx.specKey, item⟩ locations ⟨home, .obj fields⟩ ∧
    ParameterNames.listedFor (.obj fields) e.operation.verb.name = .ok parameters

namespace Reference

/-- A value has no reference that leaves its document open. -/
def NamesDocument (value : Json) : Prop :=
  ∀ text, refOf? value = some (.str text) → (ofText text).document ≠ none

section
variable {specs : Json.Fields} {current other : String} {value : Json}

theorem select_of_document_ne_none {r : Reference} (h : r.document ≠ none)
    (current other : String) : select specs current r = select specs other r := by
  unfold select
  cases hd : r.document with
  | none => exact absurd hd h
  | some document => rfl

theorem names_of_namesDocument (h : NamesDocument value) {l : Location}
    (hn : Names specs ⟨current, value⟩ l) : Names specs ⟨other, value⟩ l := by
  obtain ⟨text, hr, hs⟩ := hn
  have hselect : select specs current (ofText text) = select specs other (ofText text) :=
    select_of_document_ne_none (h text hr) current other
  exact .intro text hr (select_eq_ok_iff.mp (hselect.symm.trans (select_eq_ok_iff.mpr hs)))

/-- A reference names the same location from two documents exactly if it names its document. -/
theorem names_iff_names_iff (hne : other ≠ current) :
    (∀ l, Names specs ⟨current, value⟩ l ↔ Names specs ⟨other, value⟩ l) ↔ NamesDocument value := by
  refine ⟨fun h text hr hd => ?_, fun h l => ⟨names_of_namesDocument h, names_of_namesDocument h⟩⟩
  have hlast : ∀ key, Names specs ⟨key, value⟩ ⟨key, (ofText text).tokens⟩ := fun key =>
    .intro text hr (hd ▸ .last)
  have heq := ((h _).mp (hlast current)).unique (hlast other)
  exact hne (congrArg Location.specKey heq).symm

end

end Reference

theorem resolve_within_of_namesDocument {ctx : Context} {value : Json} {specKey : String}
    (h : Reference.NamesDocument value) :
    resolve (ctx.within specKey) value = resolve ctx value := by
  unfold resolve
  show Reference.follow ctx.specs _ [] specKey value =
    Reference.follow ctx.specs _ [] ctx.specKey value
  rw [Reference.follow.eq_def, Reference.follow.eq_def ctx.specs _ _ ctx.specKey]
  dsimp only
  cases hr : refOf? value with
  | none => rfl
  | some ref =>
    cases ref with
    | str text =>
      dsimp only
      rw [Reference.select_of_document_ne_none (h text hr) specKey ctx.specKey]
      rfl
    | _ => rfl

namespace ParameterNames

section
variable {ctx : Context} {e : Endpoint} {home : String} {ps : List Json}

theorem parameters_eq {item : Json} {route method : String}
    (hitem : pathItem ctx route = .ok item) : parameters ctx route method =
      (dereference ctx item >>= fun place => listedFor place method >>= targets ctx) := by
  unfold parameters listedFor
  simp only [hitem, bind, Except.bind]
  cases dereference ctx item with
  | error fault => rfl
  | ok place =>
    dsimp only
    cases member place method with
    | error fault => rfl
    | ok operation =>
      dsimp only
      cases member (orEmpty operation) "parameters" with
      | error fault => rfl
      | ok parameters =>
        dsimp only
        cases parameters.truthy <;> rfl

theorem collect_eq (ctx : Context) (e : Endpoint) : collect ctx e =
    (parameters ctx e.pathRoute e.operation.verb.name).map (ofTargets e) := by
  unfold collect
  cases parameters ctx e.pathRoute e.operation.verb.name <;> rfl

theorem eq_map_str_of_mapM_text {values : List Json} {names : List String}
    (h : values.mapM text = .ok names) : values = names.map .str := by
  have hall := forall₂_of_mapM_eq_ok h
  clear h
  induction hall with
  | nil => rfl
  | @cons value name values names htext _ ih =>
    cases value with
    | str s => rw [ih, List.map_cons, ← Except.ok.inj htext]
    | _ => exact nomatch htext

theorem collect_eq_of_read {names : NameTexts} (h : read ctx e = .ok names) : collect ctx e =
    .ok ⟨names.query.map .str, names.header.map .str, names.path.map .str⟩ := by
  obtain ⟨collected, hcollect, htexts⟩ := exists_of_bind_eq_ok h
  obtain ⟨query, hquery, htexts⟩ := exists_of_bind_eq_ok htexts
  obtain ⟨header, hheader, htexts⟩ := exists_of_bind_eq_ok htexts
  obtain ⟨path, hpath, htexts⟩ := exists_of_bind_eq_ok htexts
  obtain rfl := Except.ok.inj htexts
  rw [hcollect, ← eq_map_str_of_mapM_text hquery, ← eq_map_str_of_mapM_text hheader,
    ← eq_map_str_of_mapM_text hpath]

theorem collect_eq_collectFrom (h : e.Lists ctx home ps) :
    collect ctx e = collectFrom ctx e ps := by
  obtain ⟨item, fields, _, hitem, hread, -, hlisted⟩ := h
  rw [collect_eq, parameters_eq hitem, hread]
  show (listedFor (.obj fields) e.operation.verb.name >>= _).map _ = _
  rw [hlisted]
  rfl

theorem targets_cons (p : Json) (ps : List Json) :
    targets ctx (p :: ps) =
      (resolve ctx p).bind fun resolved => (targets ctx ps).map (resolved.schema :: ·) := by
  unfold targets
  rw [List.mapM_cons]
  cases resolve ctx p with
  | error fault => rfl
  | ok resolved => cases ps.mapM fun p => (resolve ctx p).map (·.schema) <;> rfl

theorem targets_within_of_namesDocument (h : ∀ p ∈ ps, Reference.NamesDocument p)
    (specKey : String) : targets (ctx.within specKey) ps = targets ctx ps := by
  induction ps with
  | nil => rfl
  | cons p ps ih =>
    rw [targets_cons, targets_cons, resolve_within_of_namesDocument (h p (by simp)),
      ih fun p hp => h p (by simp [hp])]

theorem get?_eq_none_of_mem_targets {replaced : List Json.Fields}
    (h : targets ctx ps = .ok replaced) {fields : Json.Fields} (hf : fields ∈ replaced) :
    Json.Fields.get? fields "$ref" = none := by
  induction ps generalizing replaced with
  | nil =>
    obtain rfl := Except.ok.inj h
    exact nomatch hf
  | cons p ps ih =>
    rw [targets_cons] at h
    cases hp : resolve ctx p with
    | error fault => rw [hp] at h; exact nomatch h
    | ok resolved =>
      rw [hp] at h
      cases hps : targets ctx ps with
      | error fault => rw [hps] at h; exact nomatch h
      | ok rest =>
        rw [hps] at h
        obtain rfl := Except.ok.inj h
        rcases List.mem_cons.mp hf with rfl | hf
        · exact Reference.get?_eq_none_of_resolve hp
        · exact ih hps hf

theorem targets_map_obj {replaced : List Json.Fields}
    (h : ∀ fields ∈ replaced, Json.Fields.get? fields "$ref" = none) :
    targets ctx (replaced.map .obj) = .ok replaced := by
  induction replaced with
  | nil => rfl
  | cons fields replaced ih =>
    rw [List.map_cons, targets_cons, resolve_of_get?_eq_none ctx (h fields (by simp)),
      ih fun fields hf => h fields (by simp [hf])]
    rfl

theorem collectReplaced_eq (specKey : String) :
    collectReplaced ctx e specKey ps = (targets (ctx.within specKey) ps).map (ofTargets e) := by
  unfold collectReplaced
  cases h : targets (ctx.within specKey) ps with
  | error fault => rfl
  | ok replaced =>
    show collectFrom ctx e (replaced.map .obj) = _
    rw [collectFrom, targets_map_obj fun fields hf => get?_eq_none_of_mem_targets h hf]

end

/-- All parameters of a path item are looked up where it is written exactly if it is written in the
current document or each of their references names its document. The names are always those of the
parameters replaced by what they stand for in the current document, and in these two cases that is
what they stand for in the document of the path item. -/
theorem looked_up_where_written_iff {ctx : Context} {e : Endpoint} {home : String} {ps : List Json}
    (h : e.Lists ctx home ps) :
    ((∀ p ∈ ps, ∀ l, Names ctx.specs ⟨ctx.specKey, p⟩ l ↔ Names ctx.specs ⟨home, p⟩ l) ↔
      home = ctx.specKey ∨ ∀ p ∈ ps, Reference.NamesDocument p) ∧
    collect ctx e = collectReplaced ctx e ctx.specKey ps ∧
    (home = ctx.specKey ∨ (∀ p ∈ ps, Reference.NamesDocument p) →
      collect ctx e = collectReplaced ctx e home ps) := by
  have hcurrent : collect ctx e = collectReplaced ctx e ctx.specKey ps := by
    rw [collect_eq_collectFrom h, collectReplaced_eq]
    rfl
  refine ⟨?_, hcurrent, fun hwhere => ?_⟩
  · by_cases hhome : home = ctx.specKey
    · subst hhome
      exact ⟨fun _ => .inl rfl, fun _ _ _ _ => Iff.rfl⟩
    · constructor
      · exact fun hsame => .inr fun p hp => (Reference.names_iff_names_iff hhome).mp (hsame p hp)
      · rintro (heq | hnames)
        · exact absurd heq hhome
        · exact fun p hp => (Reference.names_iff_names_iff hhome).mpr (hnames p hp)
  · rcases hwhere with rfl | hnames
    · exact hcurrent
    · rw [hcurrent, collectReplaced_eq, collectReplaced_eq,
        targets_within_of_namesDocument hnames, targets_within_of_namesDocument hnames]

end ParameterNames

/-- A reference to the parameter `Limit` that leaves its document open. -/
def limitReference : Json := .obj [("$ref", .str "#/components/parameters/Limit")]

/-- A document whose path item stands in another one, both with a parameter called `Limit`. -/
def contextWithSharedItem : Context where
  specKey := "main"
  specs := [
    ("main", .obj [
      ("paths", .obj [("/pets", .obj [("$ref", .str "shared.yaml#/paths/~1pets")])]),
      ("components", .obj [("parameters", .obj [("Limit",
        .obj [("name", .str "max"), ("in", .str "query")])])])]),
    ("shared", .obj [
      ("paths", .obj [("/pets", .obj [("get", .obj [("parameters", .arr [limitReference])])])]),
      ("components", .obj [("parameters", .obj [("Limit",
        .obj [("name", .str "limit"), ("in", .str "query")])])])])]

def listSharedPets : Endpoint where
  operation := { verb := .get, operationName := "listPets" }
  route := "/pets"
  pathRoute := "/pets"

theorem lists_listSharedPets :
    listSharedPets.Lists contextWithSharedItem "shared" [limitReference] := by
  have hchain : Chain contextWithSharedItem.specs
      ⟨"main", .obj [("$ref", .str "shared.yaml#/paths/~1pets")]⟩ [⟨"shared", ["paths", "/pets"]⟩]
      ⟨"shared", .obj [("get", .obj [("parameters", .arr [limitReference])])]⟩ :=
    .step (.intro "shared.yaml#/paths/~1pets" rfl (Reference.select_eq_ok_iff.mp rfl)) rfl (.refl _)
  obtain ⟨imports, hresolve⟩ := (Reference.exists_resolve_eq_ok_iff hchain rfl).mpr (by decide)
  refine ⟨.obj [("$ref", .str "shared.yaml#/paths/~1pets")], _, _, rfl, ?_, hchain, rfl⟩
  show (resolve contextWithSharedItem _).bind _ = _
  rw [hresolve]
  rfl

theorem targets_limit {specKey name : String}
    (h : Location.value? contextWithSharedItem.specs
      ⟨specKey, ["components", "parameters", "Limit"]⟩ =
        some (.obj [("name", .str name), ("in", .str "query")])) :
    ParameterNames.targets (contextWithSharedItem.within specKey) [limitReference] =
      .ok [[("name", .str name), ("in", .str "query")]] := by
  have hchain : Chain (contextWithSharedItem.within specKey).specs
      ⟨specKey, limitReference⟩ [⟨specKey, ["components", "parameters", "Limit"]⟩]
      ⟨specKey, .obj [("name", .str name), ("in", .str "query")]⟩ :=
    .step (.intro "#/components/parameters/Limit" rfl .last) h (.refl _)
  obtain ⟨imports, hresolve⟩ := (Reference.exists_resolve_eq_ok_iff hchain rfl).mpr (by simp)
  rw [ParameterNames.targets_cons, hresolve]
  rfl

/-- The parameter of the shared path item is taken from the current document. -/
theorem limit_of_shared_item_is_max : ∃ ps,
    listSharedPets.Lists contextWithSharedItem "shared" ps ∧
    (¬∀ p ∈ ps, ∀ l, Names contextWithSharedItem.specs ⟨"main", p⟩ l ↔
      Names contextWithSharedItem.specs ⟨"shared", p⟩ l) ∧
    ParameterNames.collect contextWithSharedItem listSharedPets =
      .ok { query := [.str "max"], header := [], path := [] } ∧
    ParameterNames.collectReplaced contextWithSharedItem listSharedPets "shared" ps =
      .ok { query := [.str "limit"], header := [], path := [] } := by
  obtain ⟨hiff, hcollect, -⟩ := ParameterNames.looked_up_where_written_iff lists_listSharedPets
  refine ⟨_, lists_listSharedPets, fun hsame => ?_, ?_, ?_⟩
  · rcases hiff.mp hsame with hhome | hnames
    · exact absurd hhome (by decide)
    · exact hnames _ (List.mem_singleton_self _) _ rfl rfl
  · rw [hcollect, ParameterNames.collectReplaced_eq]
    show (ParameterNames.targets (contextWithSharedItem.within "main") _).map _ = _
    rw [targets_limit rfl]
    rfl
  · rw [ParameterNames.collectReplaced_eq, targets_limit rfl]
    rfl

end RequestGen
