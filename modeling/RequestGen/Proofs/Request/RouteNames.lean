import RequestGen.Proofs.Request.TakenNames

/-! # The names in a route

The URL of a call interpolates the names in its route, so these have to be bound in the function. A
list of arguments binds those of the path parameters and those that the argument for all path
parameters takes out. A function of a single request takes them out of the request, if it has one:
over axios a request needs a member, and an argument for all path parameters that has no type makes
none (`Endpoint.interpolated_taken_iff`). -/

namespace RequestGen

namespace Endpoint

/-- The names that the route of an endpoint interpolates. -/
def interpolatedNames (e : Endpoint) : List String :=
  (Naming.placeholders ['$', '\x7b'] e.route.toList).map String.ofList

/-- The list of arguments binds the name: for a path parameter, or in the list of names that the
argument for all path parameters takes out. -/
def ListBinds (e : Endpoint) (name : String) : Prop :=
  (∃ a ∈ e.operation.argumentsOf [.pathParam], a.name = name) ∨
    ∃ a, e.operation.namedPathParams = some a ∧ name ∈ destructuredNames a.destructured

variable {ctx : Context} {e : Endpoint} {exported generic : Bool} {via : Transport}
  {f : RequestFunction} {name : String}

theorem mem_parameterNames_of_interpolated (h : name ∈ e.interpolatedNames) (names : NameTexts) :
    name ∈ e.parameterNames names := by
  have hplaceholder : name ∈ e.placeholderNames := by
    obtain ⟨chars, hchars, rfl⟩ := List.mem_map.mp h
    exact List.mem_map_of_mem (List.mem_append_right _ hchars)
  simp only [parameterNames, List.mem_append]
  tauto

/-- What the list of arguments binds makes a member of the request, unless it comes from an argument
without a type. -/
theorem exists_schema_eq_none_of_listBinds (h : e.ListBinds name) (hmember : ¬ e.HasMember) :
    ∃ a, e.operation.namedPathParams = some a ∧ a.schema = none := by
  simp only [HasMember, not_or, not_not] at hmember
  obtain ⟨-, -, -, htype, harguments⟩ := hmember
  rcases h with ⟨a, ha, -⟩ | ⟨a, hnamed, -⟩
  · rw [harguments] at ha
    exact absurd ha List.not_mem_nil
  · refine ⟨a, hnamed, ?_⟩
    rw [hnamed] at htype
    simpa using htype

/-- An identifier in the route that the list of arguments binds is taken out of the request by a
function of a single request, except over axios where nothing of the operation makes a member of the
request. This happens only where the argument for all path parameters has no type. -/
theorem interpolated_taken_iff (hv : via ≠ .fetch)
    (hs : e.operation.overrides.singleRequest = true)
    (hf : e.requestOver ctx exported generic via = .ok f) (hname : name ∈ e.interpolatedNames)
    (hbound : e.ListBinds name) :
    (f.takesRequest = true ∧ name ∈ f.takenNames ↔
        Naming.isIdentifier name = true ∧ (via = .axios → e.HasMember)) ∧
      (¬ e.HasMember → ∃ a, e.operation.namedPathParams = some a ∧ a.schema = none) := by
  refine ⟨?_, exists_schema_eq_none_of_listBinds hbound⟩
  obtain ⟨names, -, htakes, htaken, -⟩ := taken_of_requestOver hv hs hf
  have hmem : name ∈ (SingleRequest.build e names).destructureNames ↔
      Naming.isIdentifier name = true := by
    rw [(SingleRequest.listsFirst_destructureNames e names).mem_iff,
      and_iff_right (mem_parameterNames_of_interpolated hname names)]
  rw [← htakes, ← hmem, htaken, and_comm]
  refine and_congr_left fun h => ?_
  rw [h, if_pos rfl]

end Endpoint

/-- An operation with an argument for all path parameters that has no type. -/
def showPet : Endpoint where
  operation := {
    verb := .get
    operationName := "showPet"
    arguments := [{
      name := "pathParams"
      definition := "pathParams: PathParams"
      implementation := "\x7b petId \x7d: PathParams"
      kind := .namedPathParams
      destructured := "\x7b petId \x7d" }]
    overrides := { singleRequest := true } }
  route := "/pets/$\x7bpetId\x7d"
  pathRoute := "/pets/\x7bpetId\x7d"

/-- Over axios the function does not take the request that `petId` would come from. -/
theorem petId_unbound_showPet :
    "petId" ∈ showPet.interpolatedNames ∧ showPet.ListBinds "petId" ∧
      ∃ f, showPet.requestOver {} false true .axios = .ok f ∧
        ¬ (f.takesRequest = true ∧ "petId" ∈ f.takenNames) := by
  have hname : "petId" ∈ showPet.interpolatedNames := by
    decide +kernel
  have hbound : showPet.ListBinds "petId" := .inr ⟨_, rfl, by decide⟩
  have hread : ParameterNames.read {} showPet = .ok { query := [], header := [], path := [] } := rfl
  have hf : showPet.requestOver {} false true .axios = .ok _ :=
    (Endpoint.Sender.axiosSingle rfl hread).requestOver_eq
  obtain ⟨htaken, -⟩ := Endpoint.interpolated_taken_iff (by decide) rfl hf hname hbound
  exact ⟨hname, hbound, _, hf, fun h => absurd ((htaken.mp h).2 rfl) (by decide)⟩

end RequestGen
