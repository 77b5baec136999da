import RequestGen.Proofs.Request.IllTypedDocuments
import RequestGen.Proofs.Request.LocalNames

/-! # Parameters of a path item

A path item lists parameters of its own, which all of its operations have unless they list one of
the same name and location themselves. The names of an endpoint are read from the list of its
operation alone (`ParameterNames.names_of_own_list`): they hold all names of the operation's
parameters exactly if it overrides every parameter of its path item. -/

namespace RequestGen

open Reference (StandsFor NamesDocument)

/-- The parameters that a path item lists for all of its operations. -/
def ParameterNames.sharedItems (fields : Json.Fields) : List Json :=
  match Json.Fields.get? fields "parameters" with
  | some (.arr items) => items
  | _ => []

/-- The path item of the endpoint is written in the document `home`; it lists the parameters `own`
for the endpoint's operation and `shared` for all operations. -/
def Endpoint.ListsWithShared (ctx : Context) (e : Endpoint) (home : String)
    (own shared : List Json) : Prop :=
  ∃ item fields locations, ParameterNames.pathItem ctx e.pathRoute = .ok item ∧
    ParameterNames.dereference ctx item = .ok (.obj fields) ∧
    Reference.Chain ctx.specs ⟨ctx.specKey, item⟩ locations ⟨home, .obj fields⟩ ∧
    ParameterNames.listedFor (.obj fields) e.operation.verb.name = .ok own ∧
    shared = ParameterNames.sharedItems fields

/-- Written in the current document, the value is a parameter of that location and name, possibly by
reference. -/
def IsParameter (ctx : Context) (location name : String) (parameter : Json) : Prop :=
  ∃ fields, StandsFor ctx parameter fields ∧
    Json.Fields.get? fields "in" = some (.str location) ∧
    Json.Fields.get? fields "name" = some (.str name)

namespace ParameterNames

variable {ctx : Context} {e : Endpoint} {home : String} {own shared : List Json}
  {names : NameTexts}

theorem lists_of_listsWithShared (h : e.ListsWithShared ctx home own shared) :
    e.Lists ctx home own := by
  obtain ⟨item, fields, locations, hitem, hplace, hchain, hown, -⟩ := h
  exact ⟨item, fields, locations, hitem, hplace, hchain, hown⟩

theorem exists_obj_of_member {place value : Json} {key : String}
    (h : member place key = .ok value) : ∃ fields, place = .obj fields := by
  cases place with
  | obj fields => exact ⟨fields, rfl⟩
  | _ => exact nomatch h

theorem exists_obj_of_dereference {item : Json} {fields : Json.Fields}
    (h : dereference ctx item = .ok (.obj fields)) : ∃ given, item = .obj given := by
  by_contra hobject
  have hobject : ∀ given, item ≠ .obj given := fun given hgiven => hobject ⟨given, hgiven⟩
  obtain ⟨isReference, -, hplace⟩ := exists_of_bind_eq_ok h
  cases isReference with
  | true =>
    obtain ⟨resolved, hresolved, -⟩ := exists_of_bind_eq_ok hplace
    exact nomatch (resolve_of_ne_obj hobject).symm.trans hresolved
  | false => exact hobject fields (Except.ok.inj hplace)

theorem exists_listsWithShared_of_read (h : read ctx e = .ok names) :
    ∃ home own shared, e.ListsWithShared ctx home own shared := by
  obtain ⟨objects, hparameters, -⟩ :=
    exists_of_map_eq_ok ((collect_eq ctx e).symm.trans (collect_eq_of_read h))
  obtain ⟨item, hitem, -⟩ := exists_of_bind_eq_ok hparameters
  rw [parameters_eq hitem] at hparameters
  obtain ⟨place, hplace, hlisted⟩ := exists_of_bind_eq_ok hparameters
  obtain ⟨own, hown, -⟩ := exists_of_bind_eq_ok hlisted
  obtain ⟨operation, hoperation, -⟩ := exists_of_bind_eq_ok hown
  obtain ⟨fields, rfl⟩ := exists_obj_of_member hoperation
  obtain ⟨given, rfl⟩ := exists_obj_of_dereference hplace
  obtain ⟨target, ⟨⟨locations, home, hchain, -⟩, -⟩, heq⟩ := dereference_obj_eq_ok_iff.mp hplace
  obtain rfl := Json.obj.inj heq
  exact ⟨home, own, _, .obj given, fields, locations, hitem, hplace, hchain, hown, rfl⟩

theorem standsFor_within_iff (hhome : home = ctx.specKey ∨ ∀ p ∈ own, NamesDocument p)
    {p : Json} (hp : p ∈ own) {fields : Json.Fields} :
    StandsFor (ctx.within home) p fields ↔ StandsFor ctx p fields := by
  rcases hhome with rfl | hnames
  · rfl
  · rw [← Reference.exists_resolve_iff_standsFor, ← Reference.exists_resolve_iff_standsFor,
      resolve_within_of_namesDocument (hnames p hp)]

theorem mem_iff_of_targets {objects : List Json.Fields} (htargets : targets ctx own = .ok objects)
    {location : String} {ls : List String}
    (hls : objects.filterMap (nameIn? location) = ls.map .str) (name : String) :
    name ∈ ls ↔ name ≠ "" ∧ ∃ p ∈ own, IsParameter ctx location name p := by
  have hmem : name ∈ ls ↔ Json.str name ∈ ls.map .str := by simp
  have htruthy : (Json.str name).truthy = true ↔ name ≠ "" := by simp [Json.truthy]
  rw [hmem, ← hls, List.mem_filterMap]
  simp only [nameIn?_eq_some_iff, mem_targets_iff htargets, htruthy, IsParameter]
  constructor
  · rintro ⟨fields, ⟨p, hp, hstands⟩, hin, hname, hne⟩
    exact ⟨hne, p, hp, fields, hstands, hin, hname⟩
  · rintro ⟨hne, p, hp, fields, hstands, hin, hname⟩
    exact ⟨fields, ⟨p, hp, hstands⟩, hin, hname, hne⟩

/-- The names that are read are the non-empty names of the parameters that the operation lists. They
hold those of the path item too exactly if the operation overrides all of these. -/
theorem names_of_own_list (h : read ctx e = .ok names) :
    (∃ home own shared, e.ListsWithShared ctx home own shared) ∧
      ∀ home own shared, e.ListsWithShared ctx home own shared →
        home = ctx.specKey ∨ (∀ p ∈ own, NamesDocument p) →
        ∀ location ls, (location, ls) ∈ [("query", names.query), ("header", names.header)] →
          (∀ name, name ∈ ls ↔
            name ≠ "" ∧ ∃ p ∈ own, IsParameter (ctx.within home) location name p) ∧
          ((∀ p ∈ own ++ shared, ∀ name, name ≠ "" →
              IsParameter (ctx.within home) location name p → name ∈ ls) ↔
            ∀ p ∈ shared, ∀ name, name ≠ "" → IsParameter (ctx.within home) location name p →
              ∃ q ∈ own, IsParameter (ctx.within home) location name q) := by
  refine ⟨exists_listsWithShared_of_read h, ?_⟩
  intro home own shared hlists hhome location ls hls
  -- the names of a location, once its parameters are known
  obtain ⟨objects, htargets, hcollect⟩ := exists_of_map_eq_ok
    ((collect_eq_collectFrom (lists_of_listsWithShared hlists)).symm.trans (collect_eq_of_read h))
  have hobjects : objects.filterMap (nameIn? location) = ls.map .str := by
    simp only [List.mem_cons, List.not_mem_nil, or_false, Prod.mk.injEq] at hls
    rcases hls with ⟨rfl, rfl⟩ | ⟨rfl, rfl⟩
    · exact congrArg ParameterNames.query hcollect
    · exact congrArg ParameterNames.header hcollect
  have hmem (name : String) : name ∈ ls ↔
      name ≠ "" ∧ ∃ p ∈ own, IsParameter (ctx.within home) location name p := by
    rw [mem_iff_of_targets htargets hobjects]
    refine and_congr_right fun _ => exists_congr fun p => and_congr_right fun hp => ?_
    simp only [IsParameter, standsFor_within_iff hhome hp]
  refine ⟨hmem, fun hall p hp name hne hparameter => ?_,
    fun hoverrides p hp name hne hparameter => ?_⟩
  · exact ((hmem name).mp (hall p (List.mem_append_right own hp) name hne hparameter)).2
  · refine (hmem name).mpr ⟨hne, ?_⟩
    rcases List.mem_append.mp hp with hp | hp
    · exact ⟨p, hp, hparameter⟩
    · exact hoverrides p hp name hne hparameter

end ParameterNames

/-! ### A parameter for all operations of a path -/

theorem isParameter_queryParameter_iff {ctx : Context} {location name given : String} :
    IsParameter ctx location name (.obj (queryParameter given)) ↔
      location = "query" ∧ name = given := by
  have hend : Json.Fields.get? (queryParameter given) "$ref" = none := rfl
  have hin : Json.Fields.get? (queryParameter given) "in" = some (.str "query") := rfl
  have hname : Json.Fields.get? (queryParameter given) "name" = some (.str given) := rfl
  constructor
  · rintro ⟨fields, hstands, hin', hname'⟩
    obtain rfl := Reference.eq_of_leads hend hstands.1
    exact ⟨Json.str.inj (Option.some.inj (hin'.symm.trans hin)),
      Json.str.inj (Option.some.inj (hname'.symm.trans hname))⟩
  · rintro ⟨rfl, rfl⟩
    exact ⟨_, Reference.standsFor_self hend, hin, hname⟩

/-- A run whose document has a path with a query parameter for all operations, and an operation with
two of its own, one of them without a name. -/
def contextWithTenant : Context where
  specs := [("default", .obj [("paths", .obj [("/pets", .obj [
    ("parameters", .arr [.obj (queryParameter "tenant")]),
    ("get", .obj [("parameters",
      .arr [.obj (queryParameter ""), .obj (queryParameter "limit")])])])])])]

theorem listsWithShared_contextWithTenant :
    listPetsOfRequest.ListsWithShared contextWithTenant contextWithTenant.specKey
      [.obj (queryParameter ""), .obj (queryParameter "limit")] [.obj (queryParameter "tenant")] :=
  ⟨_, _, [], rfl, rfl, .refl _, rfl, rfl⟩

theorem read_contextWithTenant : ParameterNames.read contextWithTenant listPetsOfRequest =
    .ok { query := ["limit"], header := [], path := [] } := by
  have hends : ∀ fields ∈ [queryParameter "", queryParameter "limit"],
      Json.Fields.get? fields "$ref" = none := by
    intro fields hfields
    simp only [List.mem_cons, List.not_mem_nil, or_false] at hfields
    rcases hfields with rfl | rfl <;> rfl
  have htargets : ParameterNames.targets contextWithTenant
      [.obj (queryParameter ""), .obj (queryParameter "limit")] =
        .ok [queryParameter "", queryParameter "limit"] :=
    ParameterNames.targets_map_obj hends
  have hcollect : ParameterNames.collect contextWithTenant listPetsOfRequest = _ :=
    ParameterNames.collect_eq_collectFrom
      (ParameterNames.lists_of_listsWithShared listsWithShared_contextWithTenant)
  rw [ParameterNames.read, hcollect, ParameterNames.collectFrom]
  show (ParameterNames.targets contextWithTenant _).map _ >>= _ = _
  rw [htargets]
  rfl

/-- The parameter of the operation is read, the one of its path is not. -/
theorem limit_mem_tenant_notMem : ∃ names,
    ParameterNames.read contextWithTenant listPetsOfRequest = .ok names ∧
      "limit" ∈ names.query ∧ "tenant" ∉ names.query := by
  obtain ⟨-, hnames⟩ := ParameterNames.names_of_own_list read_contextWithTenant
  obtain ⟨hmem, -⟩ := hnames _ _ _ listsWithShared_contextWithTenant (.inl rfl) "query" ["limit"]
    (by simp)
  refine ⟨_, read_contextWithTenant, (hmem "limit").mpr ⟨by decide, ?_⟩, fun htenant => ?_⟩
  · exact ⟨_, by simp, isParameter_queryParameter_iff.mpr ⟨rfl, rfl⟩⟩
  · obtain ⟨-, p, hp, hparameter⟩ := (hmem "tenant").mp htenant
    simp only [List.mem_cons, List.not_mem_nil, or_false] at hp
    rcases hp with rfl | rfl
    · exact absurd (isParameter_queryParameter_iff.mp hparameter).2 (by decide)
    · exact absurd (isParameter_queryParameter_iff.mp hparameter).2 (by decide)

/-- Names of parameters are missing: that of a parameter of the path item that the operation does
not override, and the empty name of one of its own. -/
theorem tenant_unread : ∃ own shared names,
    listPetsOfRequest.ListsWithShared contextWithTenant contextWithTenant.specKey own shared ∧
      ParameterNames.read contextWithTenant listPetsOfRequest = .ok names ∧
      (∃ p ∈ shared, IsParameter contextWithTenant "query" "tenant" p) ∧
      (¬ ∃ p ∈ own, IsParameter contextWithTenant "query" "tenant" p) ∧ "tenant" ∉ names.query ∧
      (∃ p ∈ own, IsParameter contextWithTenant "query" "" p) ∧ "" ∉ names.query := by
  refine ⟨_, _, _, listsWithShared_contextWithTenant, read_contextWithTenant, ?_, ?_, by decide, ?_,
    by decide⟩
  · exact ⟨_, List.mem_singleton_self _, isParameter_queryParameter_iff.mpr ⟨rfl, rfl⟩⟩
  · simp [isParameter_queryParameter_iff]
  · exact ⟨_, List.mem_cons_self, isParameter_queryParameter_iff.mpr ⟨rfl, rfl⟩⟩

end RequestGen
