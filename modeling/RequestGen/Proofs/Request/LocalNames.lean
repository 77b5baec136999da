import Mathlib.Data.List.Nodup
import RequestGen.Proofs.Distinct
import RequestGen.Proofs.Naming.Bindings
import RequestGen.Proofs.Request.Senders

/-! # The local names of a single-request function

A function of a single request introduces names of its own, such as `request` and `params`, and
takes the names of the operation's parameters out of the request in the same scope.
`localNames_nodup_iff` says when no name is introduced twice: no parameter may be called like a name
of the function's own, and no two may be bound to one name. The second can only happen where one of
two names ends in a line feed, which the identifier test lets pass; repeated names are dropped. -/

namespace RequestGen

open Code (Expr)

/-- The names that a parameter introduces besides the operation's own arguments. -/
def Param.localNames : Param → List String
  | .arguments _ => []
  | .request _ => ["request"]
  | .options _ _ => ["options"]

/-- The names that a statement introduces. Those of a statement that encodes the body are its
own. -/
def Statement.localNames : Statement → List String
  | .destructure names rest => names.map Naming.binding ++ if rest then ["data"] else []
  | .encode _ => []
  | .gather constant _ => [constant]
  | .fetch _ _ => ["res"]
  | .verbatim _ => []

/-- The names that a function introduces in its scope. -/
def RequestFunction.localNames (f : RequestFunction) : List String :=
  f.params.flatMap Param.localNames ++ f.statements.flatMap Statement.localNames

namespace SingleRequest

theorem localNames_statements (r : SingleRequest) (bodyForm : String) :
    (r.statements bodyForm).flatMap Statement.localNames =
      r.destructureNames.map Naming.binding ++ ((if r.hasDataSpread then ["data"] else []) ++
        ((if r.queryNames.isSome then ["params"] else []) ++
          if r.headerNames.isSome then ["headers"] else [])) := by
  rw [flatMap_statements rfl]
  cases r.queryNames <;> cases r.headerNames <;> simp [Statement.localNames]

end SingleRequest

namespace Endpoint

variable {ctx : Context} {e : Endpoint} {exported generic : Bool}

/-- The names that a single-request function may take out of the request: the identifiers among
the names of the operation's parameters. -/
def bindableNames (e : Endpoint) (names : NameTexts) : List String :=
  (names.path ++ routeParamNames e.pathRoute e.route ++
    namedPathParamNames e.operation.namedPathParams ++ names.query ++ names.header).filter
      Naming.isIdentifier

/-- Whether the function over a transport takes the caller's options. -/
def takesOptions (e : Endpoint) : Transport → Bool
  | .axios => e.operation.overrides.requestOptions.isTaken
  | .mutator => e.operation.overrides.requestOptions.isTaken &&
      e.operation.mutator.any (·.hasSecondArg)
  | .fetch => e.operation.overrides.requestOptions.isTaken &&
      e.operation.mutator.all (·.hasSecondArg)

/-- The names that a single-request function introduces besides those of the parameters. -/
def ownNames (e : Endpoint) (via : Transport) : List String :=
  "request" :: ((if e.takesOptions via then ["options"] else []) ++
    ((if e.operation.body.definition ≠ "" && !e.operation.usesForm then ["data"] else []) ++
      ((if e.operation.queryParams.isSome then ["params"] else []) ++
        if e.operation.headers.isSome then ["headers"] else [])))

theorem nodup_ownNames (via : Transport) : (e.ownNames via).Nodup := by
  unfold ownNames
  generalize e.takesOptions via = a
  generalize (decide (e.operation.body.definition ≠ "") && !e.operation.usesForm) = b
  generalize e.operation.queryParams.isSome = c
  generalize e.operation.headers.isSome = d
  revert a b c d
  decide

theorem mem_destructureNames {names : NameTexts} {n : String} :
    n ∈ (SingleRequest.build e names).destructureNames ↔ n ∈ e.bindableNames names :=
  List.mem_eraseDups

theorem nodup_destructureNames (names : NameTexts) :
    (SingleRequest.build e names).destructureNames.Nodup :=
  nodup_eraseDups _

theorem localNames_mutatorOptionsParam (output : OutputConfig) :
    (e.operation.mutatorOptionsParam output).toList.flatMap Param.localNames =
      if e.takesOptions .mutator then ["options"] else [] := by
  unfold Operation.mutatorOptionsParam takesOptions
  cases e.operation.mutator with
  | none => simp
  | some mutator =>
    dsimp only [Option.any_some]
    split <;> simp [Param.localNames]

theorem localNames_axiosOptionsParam :
    e.operation.axiosOptionsParam.toList.flatMap Param.localNames =
      if e.takesOptions .axios then ["options"] else [] := by
  unfold Operation.axiosOptionsParam takesOptions
  split <;> simp [Param.localNames]

theorem localNames_axiosSingle_of_not_hasRequest {request : SingleRequest}
    (h : request.hasRequest = false) :
    (e.axiosSingle ctx exported generic request).localNames =
      if e.takesOptions .axios then ["options"] else [] := by
  have hencode : (e.operation.encodeStatements false).flatMap Statement.localNames = [] := by
    unfold Operation.encodeStatements
    split <;> simp [Statement.localNames]
  simp only [axiosSingle, h, Bool.false_eq_true, if_false, RequestFunction.localNames, axiosFrame,
    hencode, List.append_nil]
  exact localNames_axiosOptionsParam

/-- The names of a function that takes a request: those taken out of the request in the midst of its
own. -/
theorem localNames_perm {f : RequestFunction} {via : Transport} {names : NameTexts}
    (hf : f.localNames = "request" :: (if e.takesOptions via then ["options"] else []) ++
      ((SingleRequest.build e names).statements (e.operation.bodyForm true)).flatMap
        Statement.localNames) :
    f.localNames.Perm
      ((SingleRequest.build e names).destructureNames.map Naming.binding ++ e.ownNames via) := by
  have hquery : (SingleRequest.build e names).queryNames.isSome =
      e.operation.queryParams.isSome := by
    simp only [SingleRequest.build]; split <;> simp_all
  have hheader : (SingleRequest.build e names).headerNames.isSome =
      e.operation.headers.isSome := by
    simp only [SingleRequest.build]; split <;> simp_all
  rw [hf, SingleRequest.localNames_statements, hquery, hheader, ← List.append_assoc]
  refine (List.perm_append_comm.append_right _).trans ?_
  rw [List.append_assoc]
  exact List.Perm.refl _

/-- Where a function takes a request, its names are distinct if no parameter is bound to a name of
the function's own and no two parameters to one name. -/
theorem nodup_iff_of_perm {ls : List String} {via : Transport} {names : NameTexts}
    (h : ls.Perm ((SingleRequest.build e names).destructureNames.map Naming.binding ++
      e.ownNames via)) :
    ls.Nodup ↔
      (∀ m ∈ e.bindableNames names, ∀ n ∈ e.bindableNames names,
        Naming.binding m = Naming.binding n → m = n) ∧
      ∀ n ∈ e.bindableNames names, Naming.binding n ∉ e.ownNames via := by
  rw [h.nodup_iff, List.nodup_append', List.nodup_map_iff_inj_on (nodup_destructureNames names)]
  simp only [nodup_ownNames, true_and, mem_destructureNames, List.disjoint_left, List.mem_map,
    forall_exists_index, and_imp, forall_apply_eq_imp_iff₂]

/-- A function of a single request over axios or a mutator introduces no name twice, exactly if it
has no request to take anything out of, or all its parameters are bound to names of their own. -/
theorem localNames_nodup_iff {via : Transport} {f : RequestFunction} (hv : via ≠ .fetch)
    (hs : e.operation.overrides.singleRequest = true)
    (hf : e.requestOver ctx exported generic via = .ok f) :
    ∃ names, ParameterNames.read ctx e = .ok names ∧
      (f.localNames.Nodup ↔
        via = .axios ∧ (SingleRequest.build e names).hasRequest = false ∨
        (∀ m ∈ e.bindableNames names, ∀ n ∈ e.bindableNames names,
          Naming.binding m = Naming.binding n → m = n) ∧
        ∀ n ∈ e.bindableNames names, Naming.binding n ∉ e.ownNames via) := by
  cases requestOver_eq_ok_iff.mp hf with
  | axiosFlat h | mutatorFlat _ h => exact absurd (hs.symm.trans h) (by decide)
  | fetch => exact absurd rfl hv
  | @axiosSingle names _ hn =>
    refine ⟨names, hn, ?_⟩
    cases hr : (SingleRequest.build e names).hasRequest with
    | false =>
      rw [localNames_axiosSingle_of_not_hasRequest hr]
      refine iff_of_true ?_ (.inl ⟨rfl, rfl⟩)
      split <;> simp
    | true =>
      have hnames : (e.axiosSingle ctx exported generic (SingleRequest.build e names)).localNames =
          "request" :: (if e.takesOptions .axios then ["options"] else []) ++
            ((SingleRequest.build e names).statements (e.operation.bodyForm true)).flatMap
              Statement.localNames := by
        rw [← localNames_axiosOptionsParam]
        simp only [axiosSingle, hr, if_true]
        rfl
      rw [nodup_iff_of_perm (localNames_perm hnames)]
      simp
  | @mutatorSingle mutator names _ _ hn =>
    refine ⟨names, hn, ?_⟩
    have hnames : (e.mutatorSingle ctx mutator exported (SingleRequest.build e names)).localNames =
        "request" :: (if e.takesOptions .mutator then ["options"] else []) ++
          ((SingleRequest.build e names).statements (e.operation.bodyForm true)).flatMap
            Statement.localNames := by
      rw [← localNames_mutatorOptionsParam ctx.output]
      rfl
    rw [nodup_iff_of_perm (localNames_perm hnames)]
    simp

end Endpoint

/-- A query parameter of a document. -/
def queryParameter (name : String) : Json.Fields := [("name", .str name), ("in", .str "query")]

/-- A run whose document has an operation with a query parameter of the given name. -/
def contextWithQuery (name : String) : Context where
  specs := [("default", .obj [("paths", .obj [("/pets", .obj [("get", .obj [("parameters",
    .arr [.obj (queryParameter name)])])])])])]

/-- An operation with query parameters that takes a single request. -/
def listPetsOfRequest : Endpoint where
  operation := {
    verb := .get
    operationName := "listPets"
    queryParams := some { schema := { name := "ListPetsParams" } }
    overrides := { singleRequest := true } }
  route := "/pets"
  pathRoute := "/pets"

/-- A query parameter called `params` is taken out of the request under the name of the object that
gathers the query parameters. -/
theorem localNames_listPetsOfRequest_params :
    ∃ f, listPetsOfRequest.requestOver (contextWithQuery "params") false true .axios = .ok f ∧
      ¬ f.localNames.Nodup := by
  have hparameters : ParameterNames.parameters (contextWithQuery "params")
      listPetsOfRequest.pathRoute listPetsOfRequest.operation.verb.name =
        .ok [queryParameter "params"] := by
    show (resolve (contextWithQuery "params") (.obj (queryParameter "params"))).map (·.schema) >>=
      (fun parameter => pure [parameter]) = Except.ok [queryParameter "params"]
    rw [resolve_of_get?_eq_none _ rfl]; rfl
  have hread : ParameterNames.read (contextWithQuery "params") listPetsOfRequest =
      .ok { query := ["params"], header := [], path := [] } := by
    unfold ParameterNames.read ParameterNames.collect
    rw [hparameters]; rfl
  have hf : listPetsOfRequest.requestOver (contextWithQuery "params") false true .axios = .ok _ :=
    (Endpoint.Sender.axiosSingle rfl hread).requestOver_eq
  refine ⟨_, hf, fun hnodup => ?_⟩
  obtain ⟨names, hnames, hiff⟩ := Endpoint.localNames_nodup_iff (by decide) rfl hf
  obtain rfl : _ = names := Except.ok.inj (hread.symm.trans hnames)
  rcases hiff.mp hnodup with ⟨-, hrequest⟩ | ⟨-, hfree⟩
  · exact absurd hrequest (by decide)
  · have hmem : "params" ∈ listPetsOfRequest.bindableNames
        { query := ["params"], header := [], path := [] } :=
      List.mem_filter.mpr ⟨by simp, by decide⟩
    exact hfree "params" hmem (by decide)

end RequestGen
