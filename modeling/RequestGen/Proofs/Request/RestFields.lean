import RequestGen.Proofs.Request.LocalNames

/-! # The fields of a request that are sent as its body

A function of a single request takes the parameters out of the request by name and sends the fields
that are left, `data`, as the body. `mem_restFields_iff` says which fields these are. A parameter
whose name is an identifier is never among them; any other is not taken out, since it can only be
read as `request['name']`, and so stays among them (`parameter_mem_restFields`). -/

namespace RequestGen

/-- The fields that a statement leaves of a request with the given fields: those that it does not
take out by name, if it takes the rest at all. -/
def Statement.restFields (fields : List String) : Statement → List String
  | .destructure names true => fields.filter (· ∉ names.map Naming.binding)
  | _ => []

/-- The fields of a request that a function sends as the body. -/
def RequestFunction.restFields (f : RequestFunction) (fields : List String) : List String :=
  f.statements.flatMap (·.restFields fields)

namespace SingleRequest

/-- Where the rest of the request is taken, it is all but the names taken out. -/
theorem restFields_statements {r : SingleRequest} (h : r.hasDataSpread = true) (bodyForm : String)
    (fields : List String) :
    (r.statements bodyForm).flatMap (·.restFields fields) =
      fields.filter (· ∉ r.destructureNames.map Naming.binding) := by
  rw [flatMap_statements rfl]
  simp [h, Statement.restFields]

end SingleRequest

namespace Endpoint

variable {ctx : Context} {e : Endpoint} {exported generic : Bool} {via : Transport}
  {f : RequestFunction}

/-- The fields that are sent as the body are those that no parameter is bound to. -/
theorem mem_restFields_iff (hv : via ≠ .fetch)
    (hs : e.operation.overrides.singleRequest = true) (hd : e.operation.body.definition ≠ "")
    (hform : e.operation.usesForm = false)
    (hf : e.requestOver ctx exported generic via = .ok f) :
    ∃ names, ParameterNames.read ctx e = .ok names ∧ ∀ fields field,
      field ∈ f.restFields fields ↔
        field ∈ fields ∧ ∀ n ∈ e.bindableNames names, Naming.binding n ≠ field := by
  have hspread (names : NameTexts) : (SingleRequest.build e names).hasDataSpread = true := by
    simp [SingleRequest.build, hd, hform]
  have hrequest (names : NameTexts) : (SingleRequest.build e names).hasRequest = true := by
    simp [SingleRequest.hasRequest, SingleRequest.build, hd]
  have hmem {names : NameTexts}
      (hstatements : f.statements =
        (SingleRequest.build e names).statements (e.operation.bodyForm true))
      (fields : List String) (field : String) : field ∈ f.restFields fields ↔
        field ∈ fields ∧ ∀ n ∈ e.bindableNames names, Naming.binding n ≠ field := by
    rw [RequestFunction.restFields, hstatements,
      SingleRequest.restFields_statements (hspread names), List.mem_filter, decide_eq_true_eq,
      List.mem_map, not_exists]
    simp only [mem_destructureNames, not_and, ne_eq]
  cases requestOver_eq_ok_iff.mp hf with
  | axiosFlat h | mutatorFlat _ h => exact absurd (hs.symm.trans h) (by decide)
  | fetch => exact absurd rfl hv
  | @axiosSingle names _ hn =>
    refine ⟨names, hn, hmem ?_⟩
    simp only [axiosSingle, hrequest names, if_true]
  | @mutatorSingle mutator names _ _ hn => exact ⟨names, hn, hmem rfl⟩

/-- Of the path, query and header parameters of an operation whose body is sent as it is, none is
left among the fields of the body if its name is an identifier, and each that a request has is left
there if its name does not pass for one. -/
theorem parameter_mem_restFields (hv : via ≠ .fetch)
    (hs : e.operation.overrides.singleRequest = true) (hd : e.operation.body.definition ≠ "")
    (hform : e.operation.usesForm = false)
    (hf : e.requestOver ctx exported generic via = .ok f) :
    ∃ names, ParameterNames.read ctx e = .ok names ∧
      ∀ name ∈ names.path ++ names.query ++ names.header, ∀ fields,
        (Naming.isIdentifierText name.toList = true → name ∉ f.restFields fields) ∧
        (Naming.isIdentifier name = false → name ∈ fields → name ∈ f.restFields fields) := by
  obtain ⟨names, hn, hmem⟩ := mem_restFields_iff hv hs hd hform hf
  refine ⟨names, hn, fun name hname fields => ⟨fun hid hrest => ?_, fun hid hfield => ?_⟩⟩
  · -- the name itself is among those that are taken out
    have hbindable : name ∈ e.bindableNames names := by
      refine List.mem_filter.mpr ⟨?_, Naming.isIdentifierLine_of_isIdentifierText hid⟩
      simp only [List.mem_append] at hname ⊢
      tauto
    exact ((hmem fields name).mp hrest).2 name hbindable (Naming.binding_eq_self hid)
  · refine (hmem fields name).mpr ⟨hfield, fun n hbindable hbinding => ?_⟩
    have hbound := Naming.isIdentifier_binding (List.mem_filter.mp hbindable).2
    rw [hbinding, hid] at hbound
    exact nomatch hbound

end Endpoint

def headerParameter (name : String) : Json.Fields := [("name", .str name), ("in", .str "header")]

/-- A run whose document has an operation with a header parameter of the given name. -/
def contextWithHeader (name : String) : Context where
  specs := [("default", .obj [("paths", .obj [("/pets", .obj [("post", .obj [("parameters",
    .arr [.obj (headerParameter name)])])])])])]

/-- An operation with a body and headers that takes a single request. -/
def createPetsOfRequest : Endpoint where
  operation := {
    verb := .post
    operationName := "createPets"
    body := { definition := "CreatePetsBody", implementation := "createPetsBody" }
    headers := some { schema := { name := "CreatePetsHeaders" } }
    overrides := { singleRequest := true } }
  route := "/pets"
  pathRoute := "/pets"

theorem parameters_contextWithHeader (name : String) :
    ParameterNames.parameters (contextWithHeader name) createPetsOfRequest.pathRoute
      createPetsOfRequest.operation.verb.name = .ok [headerParameter name] := by
  show (resolve (contextWithHeader name) (.obj (headerParameter name))).map (·.schema) >>=
    (fun parameter => pure [parameter]) = Except.ok [headerParameter name]
  rw [resolve_of_get?_eq_none _ rfl]
  rfl

theorem read_contextWithHeader (name : String) (hname : name ≠ "") :
    ParameterNames.read (contextWithHeader name) createPetsOfRequest =
      .ok { query := [], header := [name], path := [] } := by
  have hheader : ParameterNames.nameIn? "header" (headerParameter name) = some (.str name) := by
    show (some (Json.str name)).filter (·.truthy) = _
    simp [Json.truthy, hname]
  have hquery : ParameterNames.nameIn? "query" (headerParameter name) = none := rfl
  have hcollect : ParameterNames.collect (contextWithHeader name) createPetsOfRequest =
      .ok { query := [], header := [.str name], path := [] } := by
    rw [ParameterNames.collect, parameters_contextWithHeader]
    show Except.ok (ParameterNames.mk ([headerParameter name].filterMap _)
      ([headerParameter name].filterMap _) []) = _
    rw [List.filterMap_cons_none hquery, List.filterMap_cons_some hheader]
    rfl
  rw [ParameterNames.read, hcollect]
  rfl

/-- A header that is called by an identifier does not get into the body. -/
theorem requestId_notMem_restFields :
    ∃ f, createPetsOfRequest.requestOver (contextWithHeader "requestId") false true .axios = .ok f ∧
      "requestId" ∉ f.restFields ["name", "requestId"] := by
  have hread := read_contextWithHeader "requestId" (by decide)
  have hf : createPetsOfRequest.requestOver (contextWithHeader "requestId") false true .axios =
      .ok _ := (Endpoint.Sender.axiosSingle rfl hread).requestOver_eq
  obtain ⟨names, hnames, hrest⟩ :=
    Endpoint.parameter_mem_restFields (by decide) rfl (by decide) (by decide) hf
  obtain rfl : _ = names := Except.ok.inj (hread.symm.trans hnames)
  exact ⟨_, hf, (hrest "requestId" (by simp) _).1 (by decide)⟩

/-- A header that is not called by an identifier, such as `X-Request-Id`, gets into the body. -/
theorem xRequestId_mem_restFields :
    createPetsOfRequest.operation.body.definition ≠ "" ∧
      createPetsOfRequest.operation.usesForm = false ∧
      createPetsOfRequest.operation.headers.isSome = true ∧
      ∃ names f,
        ParameterNames.read (contextWithHeader "X-Request-Id") createPetsOfRequest = .ok names ∧
        createPetsOfRequest.requestOver (contextWithHeader "X-Request-Id") false true .axios =
          .ok f ∧
        "X-Request-Id" ∈ names.header ∧
        "X-Request-Id" ∈ f.restFields ["name", "X-Request-Id"] := by
  have hread := read_contextWithHeader "X-Request-Id" (by decide)
  have hf : createPetsOfRequest.requestOver (contextWithHeader "X-Request-Id") false true .axios =
      .ok _ := (Endpoint.Sender.axiosSingle rfl hread).requestOver_eq
  obtain ⟨names, hnames, hmem⟩ :=
    Endpoint.mem_restFields_iff (by decide) rfl (by decide) (by decide) hf
  obtain rfl : _ = names := Except.ok.inj (hread.symm.trans hnames)
  refine ⟨by decide, by decide, by decide, _, _, hread, hf, by simp,
    (hmem _ "X-Request-Id").mpr ⟨by simp, fun n hn => ?_⟩⟩
  -- no name is bound to a text that is no identifier
  intro hbinding
  have hbound := Naming.isIdentifier_binding (List.mem_filter.mp hn).2
  rw [hbinding] at hbound
  exact absurd hbound (by decide)

end RequestGen
