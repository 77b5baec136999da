import RequestGen.Proofs.Request.LocalNames
import RequestGen.Proofs.Request.ParameterDocuments

/-! # The names that are taken out of a request

A function of a single request takes the identifiers among the names of its operation's parameters
out of the request, each once and in order of first occurrence
(`SingleRequest.listsFirst_destructureNames`). Over a mutator there is always a request. Over axios
there is one only if its type has a member, that is, if the body, the query parameters, the headers
or the path parameters have a type (`Endpoint.HasMember`); otherwise nothing is taken and nothing
gathered (`Endpoint.single_of_requestOver`). -/

namespace RequestGen

/-! ### What a function takes and gathers -/

/-- The names that a statement takes out of the request. -/
def Statement.takenNames : Statement → List String
  | .destructure names _ => names
  | _ => []

/-- The constant in which a statement gathers fields of the request, and their names. -/
def Statement.gathered? : Statement → Option (String × List String)
  | .gather constant names => some (constant, names)
  | _ => none

def Param.isRequest : Param → Bool
  | .request _ => true
  | _ => false

namespace RequestFunction

/-- The names that a function takes out of its request before the call. -/
def takenNames (f : RequestFunction) : List String := f.statements.flatMap Statement.takenNames

/-- The constants in which a function gathers fields of its request before the call. -/
def gathered (f : RequestFunction) : List (String × List String) :=
  f.statements.filterMap Statement.gathered?

def takesRequest (f : RequestFunction) : Bool := f.params.any Param.isRequest

end RequestFunction

namespace SingleRequest

variable (r : SingleRequest) (bodyForm : String)

theorem takenNames_statements :
    (r.statements bodyForm).flatMap Statement.takenNames = r.destructureNames := by
  rw [flatMap_statements rfl]
  simp [Statement.takenNames]

theorem gathered_statements :
    (r.statements bodyForm).filterMap Statement.gathered? =
      (r.queryNames.map ("params", ·)).toList ++ (r.headerNames.map ("headers", ·)).toList := by
  rw [List.filterMap_eq_flatMap_toList, flatMap_statements rfl]
  cases r.queryNames <;> cases r.headerNames <;> simp [Statement.gathered?]

end SingleRequest

namespace Operation

variable (op : Operation) (single : Bool)

theorem takenNames_encodeStatements :
    (op.encodeStatements single).flatMap Statement.takenNames = [] := by
  unfold encodeStatements
  split <;> rfl

theorem gathered_encodeStatements :
    (op.encodeStatements single).filterMap Statement.gathered? = [] := by
  unfold encodeStatements
  split <;> rfl

theorem not_isRequest_axiosOptionsParam :
    op.axiosOptionsParam.toList.any Param.isRequest = false := by
  unfold axiosOptionsParam
  split <;> rfl

end Operation

theorem SingleRequest.exists_members (r : SingleRequest) :
    ∃ members : String, s!"export type {r.typeName} = {members};" ∈ r.declarations := by
  refine ⟨_, List.mem_filter.mpr ⟨List.mem_cons_self, decide_eq_true fun hempty => ?_⟩⟩
  have hlength := congrArg String.length hempty
  simp [toString] at hlength

theorem Param.exists_list_request (type : String) (options : List Param) :
    ∃ after : String,
      Text.commaListOfNonempty ((request type :: options).map render) ++ ")" =
        s!"request: {type}" ++ after ∧ after.toList.head? ∈ [some ',', some ')'] := by
  have hne : (request type).render ≠ "" := by
    intro hempty
    have hlength := congrArg String.length hempty
    simp [render, toString] at hlength
  have hkept : ((request type :: options).map render).filter (· ≠ "") =
      (request type).render :: (options.map render).filter (· ≠ "") :=
    List.filter_cons_of_pos (decide_eq_true hne)
  rw [Text.commaListOfNonempty, hkept]
  cases (options.map render).filter (· ≠ "") with
  | nil =>
    rw [Text.commaList_singleton]
    exact ⟨")", rfl, by decide⟩
  | cons next rest =>
    rw [Text.commaList_cons_cons]
    refine ⟨", " ++ Text.commaList (next :: rest) ++ ")", ?_, by simp⟩
    simp only [render, String.append_assoc]

theorem RequestFunction.head_of_params {f : RequestFunction} {type : String}
    {options : List Param} (hasync : f.isAsync = false)
    (hparams : f.params = .request type :: options) :
    ∃ after : String,
      f.toText.head = (if f.exported then "export " else "") ++ s!"const {f.name} = " ++
        f.generic ++ s!"(request: {type}" ++ after ∧
      after.toList.head? ∈ [some ',', some ')'] := by
  obtain ⟨after, hafter, hhead⟩ := Param.exists_list_request type options
  have hlist : Text.commaListOfNonempty f.toText.params ++ ")" = s!"request: {type}" ++ after := by
    rw [← hafter, ← hparams]
    rfl
  obtain ⟨returned, hreturned⟩ : ∃ returned : String, f.toText.head =
      (if f.exported then "export " else "") ++ s!"const {f.name} = " ++
        (if f.isAsync then "async " else "") ++ f.generic ++
        s!"({Text.commaListOfNonempty f.toText.params})" ++ returned ++ " => \x7b\n" :=
    ⟨_, rfl⟩
  refine ⟨after ++ returned ++ " => \x7b\n", ?_, ?_⟩
  · have hrest (rest : String) : Text.commaListOfNonempty f.toText.params ++ (")" ++ rest) =
        "request: " ++ (type ++ (after ++ rest)) := by
      rw [← String.append_assoc, hlist]
      simp only [String.append_assoc, toString]
    have hopen (rest : String) : "(" ++ ("request: " ++ rest) = "(request: " ++ rest := by
      rw [← String.append_assoc]
      rfl
    rw [hreturned, hasync]
    simp only [String.append_assoc, toString, hrest, hopen, Bool.false_eq_true, if_false,
      String.empty_append]
  · cases h : after.toList with
    | nil =>
      rw [h] at hhead
      simp at hhead
    | cons c rest =>
      rw [h] at hhead
      simpa [h] using hhead

/-! ### The names of an operation's parameters -/

namespace Endpoint

/-- The names in the placeholders of the two routes of an endpoint. -/
def placeholderNames (e : Endpoint) : List String :=
  (Naming.placeholders ['\x7b'] e.pathRoute.toList ++
    Naming.placeholders ['$', '\x7b'] e.route.toList).map String.ofList

/-- The names of an endpoint's parameters from all places that give any, in the order of these:
path parameters, placeholders, gathered path parameters, query and headers. -/
def parameterNames (e : Endpoint) (names : NameTexts) : List String :=
  names.path ++ e.placeholderNames ++ namedPathParamNames e.operation.namedPathParams ++
    names.query ++ names.header

/-- Something of the operation has a type that a request is made of. -/
def HasMember (e : Endpoint) : Prop :=
  e.operation.body.definition ≠ "" ∨ e.operation.queryParams.isSome = true ∨
    e.operation.headers.isSome = true ∨
    (e.operation.namedPathParams.bind (·.schema)).isSome = true ∨
    e.operation.argumentsOf [.pathParam] ≠ []

instance (e : Endpoint) : Decidable e.HasMember := by
  unfold HasMember
  infer_instance

end Endpoint

namespace SingleRequest

variable {ctx : Context} {e : Endpoint} {names : NameTexts}

theorem listsFirst_destructureNames (e : Endpoint) (names : NameTexts) :
    ListsFirst Naming.isIdentifier (e.parameterNames names) (build e names).destructureNames := by
  have hnames : (build e names).destructureNames =
      ((e.parameterNames names).filter Naming.isIdentifier).eraseDups := by
    show ((names.path ++ (e.placeholderNames.eraseDups).filter Naming.isIdentifier ++
      namedPathParamNames e.operation.namedPathParams ++ names.query ++ names.header).filter
        Naming.isIdentifier).eraseDups = _
    simp only [Endpoint.parameterNames, List.filter_append, List.filter_filter, Bool.and_self,
      List.append_assoc]
    -- the placeholders have been freed of repeats before, and only of these
    rw [← eraseDups_filter, eraseDups_append_eraseDups_append]
  rw [hnames]
  exact listsFirst_eraseDups Naming.isIdentifier (e.parameterNames names)

end SingleRequest

theorem ParameterNames.path_of_read {ctx : Context} {e : Endpoint} {names : NameTexts}
    (h : read ctx e = .ok names) :
    names.path = (e.operation.argumentsOf [.pathParam]).map (·.name) := by
  obtain ⟨objects, -, hcollect⟩ :=
    exists_of_map_eq_ok ((collect_eq ctx e).symm.trans (collect_eq_of_read h))
  have hpath : ((e.operation.argumentsOf [.pathParam]).map (·.name)).map Json.str =
      names.path.map .str := by
    rw [List.map_map]
    exact congrArg ParameterNames.path hcollect
  exact (List.map_injective_iff.mpr (fun _ _ => Json.str.inj) hpath).symm

namespace Endpoint

variable {ctx : Context} {e : Endpoint} {exported generic : Bool} {via : Transport}
  {f : RequestFunction} {names : NameTexts}

theorem hasRequest_build_iff (h : ParameterNames.read ctx e = .ok names) :
    (SingleRequest.build e names).hasRequest = true ↔ e.HasMember := by
  have hpath : names.path = [] ↔ e.operation.argumentsOf [.pathParam] = [] := by
    rw [ParameterNames.path_of_read h, List.map_eq_nil_iff]
  have hbody : (if e.operation.body.definition = "" then []
      else [e.operation.body.definition]) = [] ↔ e.operation.body.definition = "" := by
    split <;> simp_all
  have hoption {α : Type} (type : α → String) (o : Option α) :
      (o.map type).toList = [] ↔ ¬ o.isSome = true := by
    cases o <;> simp
  have hpathType : (if ((e.operation.namedPathParams.bind (·.schema)).map (·.name)).isSome = true
      then none else SingleRequest.pathType? e.operation names).isSome = true ↔
      ¬ (e.operation.namedPathParams.bind (·.schema)).isSome = true ∧
        e.operation.argumentsOf [.pathParam] ≠ [] := by
    unfold SingleRequest.pathType?
    cases e.operation.namedPathParams.bind (·.schema) <;> simp [← hpath]
  rw [SingleRequest.hasRequest, HasMember, ← not_iff_not]
  rw [Bool.not_eq_true, Bool.not_eq_false', List.isEmpty_iff]
  simp only [SingleRequest.build, List.append_eq_nil_iff, hbody, hoption, hpathType]
  tauto

/-- A function of a single request over axios or over a mutator either takes the request, with the
statements of the request, or it is one over axios whose request has no member. -/
theorem single_of_requestOver (hv : via ≠ .fetch)
    (hs : e.operation.overrides.singleRequest = true)
    (hf : e.requestOver ctx exported generic via = .ok f) :
    ∃ names, ParameterNames.read ctx e = .ok names ∧
      (f.takesRequest = true ∧ (via = .axios → e.HasMember) ∧
          f.statements = (SingleRequest.build e names).statements (e.operation.bodyForm true) ∨
        f.takesRequest = false ∧ (via = .axios ∧ ¬ e.HasMember) ∧
          f.statements = e.operation.encodeStatements false) := by
  cases requestOver_eq_ok_iff.mp hf with
  | axiosFlat h | mutatorFlat _ h => exact absurd (hs.symm.trans h) (by decide)
  | fetch => exact absurd rfl hv
  | @mutatorSingle mutator names _ _ hn => exact ⟨names, hn, .inl ⟨rfl, nofun, rfl⟩⟩
  | @axiosSingle names _ hn =>
    refine ⟨names, hn, ?_⟩
    by_cases hmember : e.HasMember
    · have hr := (hasRequest_build_iff hn).mpr hmember
      refine .inl ⟨?_, fun _ => hmember, ?_⟩ <;> simp only [axiosSingle, hr, if_true]
      rfl
    · have hr : (SingleRequest.build e names).hasRequest = false :=
        Bool.eq_false_iff.mpr fun hr => hmember ((hasRequest_build_iff hn).mp hr)
      refine .inr ⟨?_, ⟨rfl, hmember⟩, ?_⟩ <;>
        simp only [axiosSingle, hr, Bool.false_eq_true, if_false]
      · exact e.operation.not_isRequest_axiosOptionsParam
      · rfl

/-- A function that takes a request has it as its first parameter, of the type that is declared
after the function. -/
theorem head_of_takesRequest (hv : via ≠ .fetch)
    (hs : e.operation.overrides.singleRequest = true)
    (hf : e.requestOver ctx exported generic via = .ok f) (ht : f.takesRequest = true) :
    ∃ type members after : String, s!"export type {type} = {members};" ∈ f.declarations ∧
      f.toText.head = (if f.exported then "export " else "") ++ s!"const {f.name} = " ++
        f.generic ++ s!"(request: {type}" ++ after ∧
      after.toList.head? ∈ [some ',', some ')'] := by
  cases requestOver_eq_ok_iff.mp hf with
  | axiosFlat h | mutatorFlat _ h => exact absurd (hs.symm.trans h) (by decide)
  | fetch => exact absurd rfl hv
  | @mutatorSingle mutator names _ _ hn =>
    obtain ⟨members, hmembers⟩ := (SingleRequest.build e names).exists_members
    obtain ⟨after, hhead⟩ := RequestFunction.head_of_params
      (f := e.mutatorSingle ctx mutator exported (SingleRequest.build e names)) rfl rfl
    exact ⟨_, members, after, hmembers, hhead⟩
  | @axiosSingle names _ hn =>
    obtain ⟨members, hmembers⟩ := (SingleRequest.build e names).exists_members
    cases hr : (SingleRequest.build e names).hasRequest with
    | true =>
      have hparams : (e.axiosSingle ctx exported generic (SingleRequest.build e names)).params =
          .request (SingleRequest.build e names).typeName ::
            (e.axiosFrame ctx exported generic).params := by
        simp only [axiosSingle, hr, if_true]
      obtain ⟨after, hhead⟩ := RequestFunction.head_of_params (by
        simp only [axiosSingle, hr, if_true]
        rfl) hparams
      refine ⟨_, members, after, ?_, hhead⟩
      simpa only [axiosSingle, hr, if_true] using hmembers
    | false =>
      simp only [axiosSingle, hr, Bool.false_eq_true, if_false] at ht
      exact absurd (ht.symm.trans e.operation.not_isRequest_axiosOptionsParam) (by decide)

theorem taken_of_requestOver (hv : via ≠ .fetch)
    (hs : e.operation.overrides.singleRequest = true)
    (hf : e.requestOver ctx exported generic via = .ok f) :
    ∃ names, ParameterNames.read ctx e = .ok names ∧
      (f.takesRequest = true ↔ (via = .axios → e.HasMember)) ∧
      f.takenNames =
        (if f.takesRequest then (SingleRequest.build e names).destructureNames else []) ∧
      f.gathered =
        (if e.operation.queryParams.isSome then [("params", names.query)] else []) ++
          if e.operation.headers.isSome then [("headers", names.header)] else [] := by
  obtain ⟨names, hn, ⟨htakes, hmember, hstatements⟩ | ⟨htakes, hmember, hstatements⟩⟩ :=
    single_of_requestOver hv hs hf
  · refine ⟨names, hn, iff_of_true htakes hmember, ?_, ?_⟩
    · rw [htakes, if_pos rfl, RequestFunction.takenNames, hstatements,
        SingleRequest.takenNames_statements]
    · rw [RequestFunction.gathered, hstatements, SingleRequest.gathered_statements]
      show ((if e.operation.queryParams.isSome then some names.query else none).map
        ("params", ·)).toList ++ ((if e.operation.headers.isSome then some names.header
          else none).map ("headers", ·)).toList = _
      cases e.operation.queryParams.isSome <;> cases e.operation.headers.isSome <;> rfl
  · have hquery : e.operation.queryParams.isSome = false :=
      Bool.eq_false_iff.mpr fun h => hmember.2 (.inr (.inl h))
    have hheaders : e.operation.headers.isSome = false :=
      Bool.eq_false_iff.mpr fun h => hmember.2 (.inr (.inr (.inl h)))
    refine ⟨names, hn, iff_of_false (by simp [htakes]) fun h => hmember.2 (h hmember.1), ?_, ?_⟩
    · rw [htakes, RequestFunction.takenNames, hstatements, Operation.takenNames_encodeStatements]
      rfl
    · rw [RequestFunction.gathered, hstatements, Operation.gathered_encodeStatements, hquery,
        hheaders]
      rfl

end Endpoint

end RequestGen
