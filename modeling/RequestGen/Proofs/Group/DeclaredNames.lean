import Mathlib.Data.List.Nodup
import Mathlib.Data.List.Perm.Basic
import RequestGen.Proofs.Code.DeclaredNames
import RequestGen.Proofs.Group.FactoryExports

/-! # Names that two operations share

The names that a file declares for an operation are built from the casing of its name, and names
that differ may have one casing. The kinds of names never get in each other's way, so the names of a
file are different exactly if the casings of all operations are that something is declared for
(`declared_nodup_iff`). -/

namespace RequestGen

open DeclaredKind (nameFor)

/-- The casing that the names declared for an operation have. -/
def Operation.casing (op : Operation) : String := Naming.pascal op.operationName

theorem Operation.isNameChar_of_mem_nameFor (op : Operation) (kind : DeclaredKind) :
    ∀ c ∈ (kind.nameFor op.casing).toList, Text.isNameChar c = true := by
  have hall : (kind.front.toList ++ kind.ending.toList).all Text.isNameChar = true := by
    cases kind <;> rfl
  have hends := List.all_eq_true.mp hall
  intro c hc
  rw [nameFor, String.toList_append, String.toList_append, List.mem_append, List.mem_append] at hc
  rcases hc with (hc | hc) | hc
  · exact hends c (List.mem_append_left _ hc)
  · exact Naming.isNameChar_of_isAlphanum (Naming.isAlphanum_of_mem_pascal hc)
  · exact hends c (List.mem_append_right _ hc)

/-! ### The code of an operation -/

namespace Endpoint

variable {ctx : Context} {e : Endpoint} {exported generic : Bool}

/-- The declarations are of types of those kinds, in that order. -/
def DeclaresKinds (e : Endpoint) (declarations : List String) (kinds : List DeclaredKind) : Prop :=
  List.Forall₂ (fun d kind => IsTypeDeclaration d (nameFor kind e.operation.casing)) declarations
    kinds

theorem DeclaresKinds.filterMap_declaredType? {declarations : List String}
    {kinds : List DeclaredKind} (h : e.DeclaresKinds declarations kinds) :
    declarations.filterMap (fun d => declaredType? d.toList) =
      kinds.map (nameFor · e.operation.casing) := by
  induction h with
  | nil => rfl
  | @cons d kind declarations kinds hd _ ih =>
    rw [List.filterMap_cons, hd.declaredType? (e.operation.isNameChar_of_mem_nameFor kind), ih,
      List.map_cons]

theorem DeclaresKinds.declaresInOrder {declarations : List String} {kinds : List DeclaredKind}
    (h : e.DeclaresKinds declarations kinds) :
    DeclaresInOrder (kinds.map (nameFor · e.operation.casing))
      (String.join (declarations.map fun d => "\n" ++ d ++ "\n")) :=
  .join_declarations (List.forall₂_map_right_iff.mpr h)

theorem isTypeDeclaration_typeDefinition (names : NameTexts) :
    IsTypeDeclaration (SingleRequest.build e names).typeDefinition
      (nameFor .request e.operation.casing) := by
  have hname : nameFor .request e.operation.casing = (SingleRequest.build e names).typeName :=
    congrArg (· ++ "Request") String.empty_append
  rw [hname]
  exact isTypeDeclaration_of _ "" _ ";"

theorem isTypeDeclaration_pathParamsType (names : NameTexts) :
    (SingleRequest.build e names).pathParamsType = "" ∨
      IsTypeDeclaration (SingleRequest.build e names).pathParamsType
        (nameFor .pathParams e.operation.casing) := by
  have hname : nameFor .pathParams e.operation.casing =
      Naming.pascal e.operation.operationName ++ "PathParams" :=
    congrArg (· ++ "PathParams") String.empty_append
  rw [hname]
  unfold SingleRequest.build SingleRequest.pathType?
  dsimp only
  split
  · exact .inl rfl
  · split
    · exact .inl rfl
    · exact .inr (isTypeDeclaration_of _ "\x7b\n" _ "\n\x7d;")

/-- A single request has the declaration of its type, and that of the type of its path parameters if
no type is named for them. -/
theorem declaresKinds_build (names : NameTexts) :
    e.DeclaresKinds (SingleRequest.build e names).declarations [.request] ∨
      e.DeclaresKinds (SingleRequest.build e names).declarations [.request, .pathParams] := by
  have htype := isTypeDeclaration_typeDefinition (e := e) names
  rw [SingleRequest.declarations, List.filter_cons_of_pos (by simpa using htype.ne_empty)]
  rcases isTypeDeclaration_pathParamsType (e := e) names with hpath | hpath
  · rw [hpath]
    exact .inl (.cons htype .nil)
  · rw [List.filter_cons_of_pos (by simpa using hpath.ne_empty)]
    exact .inr (.cons htype (.cons hpath .nil))

/-- What is declared with the function of an operation: nothing, or the types of its single
request. -/
theorem exists_declaresKinds {via : Transport} {f : RequestFunction}
    (h : e.requestOver ctx exported generic via = .ok f) :
    ∃ kinds, e.DeclaresKinds f.declarations kinds ∧ kinds <+: [.request, .pathParams] ∧
      (.request ∈ kinds ↔ via ≠ .fetch ∧ e.operation.overrides.singleRequest = true) := by
  have hsingle {names : NameTexts} :
      ∃ kinds, e.DeclaresKinds (SingleRequest.build e names).declarations kinds ∧
        kinds <+: [.request, .pathParams] ∧ .request ∈ kinds := by
    rcases declaresKinds_build (e := e) names with h | h
    · exact ⟨_, h, by decide, by decide⟩
    · exact ⟨_, h, by decide, by decide⟩
  cases requestOver_eq_ok_iff.mp h with
  | axiosFlat hs => exact ⟨[], .nil, List.nil_prefix, by simp [hs]⟩
  | mutatorFlat _ hs => exact ⟨[], .nil, List.nil_prefix, by simp [hs]⟩
  | fetch =>
    refine ⟨[], ?_, List.nil_prefix, by simp⟩
    unfold fetchSender
    split <;> exact .nil
  | axiosSingle hs =>
    obtain ⟨kinds, hkinds, hprefix, hmem⟩ := hsingle
    refine ⟨kinds, ?_, hprefix, by simp [hmem, hs]⟩
    unfold axiosSingle
    dsimp only
    split <;> exact hkinds
  | mutatorSingle _ hs =>
    obtain ⟨kinds, hkinds, hprefix, hmem⟩ := hsingle
    exact ⟨kinds, hkinds, hprefix, by simp [hmem, hs]⟩

theorem eq_nil_or_request_mem {kinds : List DeclaredKind}
    (h : kinds <+: [.request, .pathParams]) : kinds = [] ∨ .request ∈ kinds := by
  cases kinds with
  | nil => exact .inl rfl
  | cons kind kinds =>
    obtain ⟨rfl, -⟩ := List.cons_prefix_cons.mp h
    exact .inr List.mem_cons_self

/-- The names that the code of an operation declares besides its function. -/
def declaredNames (style : Style) (ctx : Context) (e : Endpoint) : List String :=
  (if style.transport ctx e.operation = .fetch then [e.operation.urlFunctionName] else []) ++
    match style.requestFunction ctx e with
    | .ok f => f.declaredTypes
    | .error _ => []

theorem exists_render_eq_exported {f : RequestFunction} (h : f.exported = true) :
    ∃ rest, f.render = "export const " ++ f.name ++ " = " ++ rest := by
  unfold RequestFunction.render Code.FunctionText.render Code.FunctionText.head
  rw [show f.toText.exported = true from h, if_pos rfl,
    show "export const " = "export " ++ "const " from rfl]
  simp only [String.append_assoc]
  exact ⟨_, rfl⟩

theorem declaresInOrder_urlFunction (after : List String) :
    DeclaresInOrder [e.operation.urlFunctionName]
      ("\n" ++ Text.lines (e.urlFunction.render :: after)) := by
  obtain ⟨rest, hrest⟩ := exists_render_eq_exported (f := e.urlFunction) rfl
  have hlines : ∃ more, Text.lines (e.urlFunction.render :: after) =
      "export const " ++ e.operation.urlFunctionName ++ " = " ++ more := by
    unfold Text.lines
    cases after with
    | nil => exact ⟨rest, hrest⟩
    | cons next after =>
      rw [String.intercalate_cons_cons, hrest]
      simp only [String.append_assoc]
      exact ⟨_, rfl⟩
  obtain ⟨more, hmore⟩ := hlines
  refine ⟨"", "const", more, by simp, ?_, trivial⟩
  rw [hmore, String.empty_append,
    show "\nexport " ++ "const" ++ " " = "\n" ++ "export const " from rfl]
  simp only [String.append_assoc]

variable {style : Style}

theorem declaresInOrder_implementation {code : String}
    (h : style.implementation ctx e = .ok code) :
    DeclaresInOrder (e.declaredNames style ctx) ("\n" ++ code) := by
  rw [implementation_eq] at h
  obtain ⟨f, hf, rfl⟩ := exists_of_map_eq_ok h
  have hfunction : style.requestFunction ctx e = .ok f := hf
  obtain ⟨kinds, hkinds, hprefix, hrequest⟩ := exists_declaresKinds hf
  have htypes : f.declaredTypes = kinds.map (nameFor · e.operation.casing) :=
    hkinds.filterMap_declaredType?
  unfold declaredNames
  rw [hfunction]
  dsimp only
  rw [htypes]
  split
  · next hfetch =>
    have hnone : kinds = [] :=
      (eq_nil_or_request_mem hprefix).resolve_right fun hmem => (hrequest.mp hmem).1 hfetch
    rw [hnone]
    exact declaresInOrder_urlFunction _
  · have hrender : ∃ front, f.render =
        front ++ String.join (f.declarations.map fun d => "\n" ++ d ++ "\n") := ⟨_, rfl⟩
    obtain ⟨front, hrender⟩ := hrender
    rw [hrender]
    exact (hkinds.declaresInOrder.append_left front).append_left "\n"

/-- The result type of an operation, which the hook style does not declare. -/
def resultNames (style : Style) (e : Endpoint) : List String :=
  if style = .swr then [] else [ResultAlias.aliasName e.operation.operationName]

/-- Whether something is declared for the operation besides its function. -/
def hasDeclarations (style : Style) (ctx : Context) (e : Endpoint) : Bool :=
  style ≠ .swr || ctx.output.httpClient = .fetch || e.operation.overrides.singleRequest

end Endpoint

/-! ### The file -/

/-- What a style declares for every operation for which it declares anything. -/
def Style.commonKind (style : Style) (ctx : Context) : DeclaredKind :=
  if style ≠ .swr then .result
  else if ctx.output.httpClient = .fetch then .urlFunction
  else .request

/-- The function that builds the URL is declared by its own kind of name, over fetch. -/
def Style.urlKinds (style : Style) (ctx : Context) (op : Operation) : List DeclaredKind :=
  if style.transport ctx op = .fetch then [.urlFunction] else []

/-- The result type, where the style declares it. -/
def Style.resultKinds (style : Style) : List DeclaredKind :=
  if style = .swr then [] else [.result]

/-- The names declared for an operation are names for its casing: that of its URL function, those of
the types of its single request, and that of its result type. -/
theorem Endpoint.exists_requestKinds {style : Style} {ctx : Context} {e : Endpoint}
    {f : RequestFunction} (h : style.requestFunction ctx e = .ok f) :
    ∃ kinds, e.declaredNames style ctx ++ e.resultNames style =
        (style.urlKinds ctx e.operation ++ kinds ++ style.resultKinds).map
          (nameFor · e.operation.casing) ∧
      kinds <+: [.request, .pathParams] ∧
      (.request ∈ kinds ↔ style.transport ctx e.operation ≠ .fetch ∧
        e.operation.overrides.singleRequest = true) := by
  obtain ⟨kinds, hkinds, hprefix, hrequest⟩ := exists_declaresKinds h
  refine ⟨kinds, ?_, hprefix, hrequest⟩
  have htypes : f.declaredTypes = kinds.map (nameFor · e.operation.casing) :=
    hkinds.filterMap_declaredType?
  have hresult : ResultAlias.aliasName e.operation.operationName =
      nameFor .result e.operation.casing := (congrArg (· ++ "Result") String.empty_append).symm
  have hurl : e.operation.urlFunctionName = nameFor .urlFunction e.operation.casing := rfl
  unfold declaredNames resultNames Style.urlKinds Style.resultKinds
  rw [h]
  dsimp only
  rw [htypes, hresult, hurl, List.map_append, List.map_append]
  split <;> split <;> rfl

theorem Endpoint.exists_kinds_of_requestFunction {style : Style} {ctx : Context} {e : Endpoint}
    {f : RequestFunction} (h : style.requestFunction ctx e = .ok f) :
    ∃ kinds, e.declaredNames style ctx ++ e.resultNames style =
        kinds.map (nameFor · e.operation.casing) ∧ kinds.Nodup ∧
      (e.hasDeclarations style ctx = true → style.commonKind ctx ∈ kinds) ∧
      (kinds ≠ [] → e.hasDeclarations style ctx = true) := by
  obtain ⟨kinds, hnames, hprefix, hrequest⟩ := exists_requestKinds h
  have hfront : (style.urlKinds ctx e.operation).Sublist [.urlFunction] := by
    unfold Style.urlKinds
    split <;> simp
  have hlast : style.resultKinds.Sublist [.result] := by
    unfold Style.resultKinds
    split <;> simp
  refine ⟨style.urlKinds ctx e.operation ++ kinds ++ style.resultKinds, hnames, ?_, ?_, ?_⟩
  · have hall : [DeclaredKind.urlFunction, .request, .pathParams, .result].Nodup := by decide
    exact hall.sublist ((hfront.append hprefix.sublist).append hlast)
  · intro hdeclares
    unfold hasDeclarations at hdeclares
    unfold Style.commonKind Style.urlKinds Style.resultKinds
    by_cases hstyle : style = .swr
    · by_cases hfetch : ctx.output.httpClient = .fetch
      · simp [hstyle, hfetch, Style.transport_eq_fetch_iff]
      · have hmem : DeclaredKind.request ∈ kinds := by
          rw [hrequest]
          exact ⟨fun hvia => hfetch (Style.transport_eq_fetch_iff.mp hvia).2,
            by simpa [hstyle, hfetch] using hdeclares⟩
        simp [hstyle, hfetch, hmem]
    · simp [hstyle]
  · intro hne
    by_contra hnone
    unfold hasDeclarations at hnone
    simp only [Bool.or_eq_true, decide_eq_true_eq, not_or, not_not] at hnone
    obtain ⟨⟨hstyle, hfetch⟩, hsingle⟩ := hnone
    have hkinds : kinds = [] :=
      (eq_nil_or_request_mem hprefix).resolve_right fun hmem => hsingle (hrequest.mp hmem).2
    refine hne ?_
    unfold Style.urlKinds Style.resultKinds
    simp [hkinds, hstyle, hfetch, Style.transport_eq_fetch_iff]

namespace Group

variable {style : Style} {ctx : Context} {t left : ResultTable} {title : String}
  {endpoints : List Endpoint} {g : Group}

theorem declaresInOrder_implementations {implementations : List String}
    (h : List.Forall₂ (fun e code => style.implementation ctx e = .ok code) endpoints
      implementations) :
    DeclaresInOrder (endpoints.flatMap (·.declaredNames style ctx))
      ("\n" ++ String.join (implementations.map fun code => code ++ "\n")) := by
  induction h with
  | nil => trivial
  | @cons e code endpoints codes hcode _ ih =>
    rw [List.flatMap_cons, List.map_cons, String.join_cons, String.append_assoc,
      ← String.append_assoc]
    exact (Endpoint.declaresInOrder_implementation hcode).append ih

theorem isTypeDeclaration_of_declaresResult {op : Operation} {resultTitle : Option String}
    {declaration : String} (h : DeclaresResult op resultTitle declaration) :
    IsTypeDeclaration declaration (ResultAlias.aliasName op.operationName) := by
  obtain ⟨type, -, rfl⟩ := h
  exact ⟨type, rfl⟩

theorem declaresInOrder_results {resultTitle : Option String} {declarations : List String}
    (hnames : (endpoints.map (·.operation.operationName)).Nodup)
    (h : DeclaresResults resultTitle (endpoints.map (·.operation)) declarations) :
    DeclaresInOrder (endpoints.map fun e => ResultAlias.aliasName e.operation.operationName)
      (String.join (declarations.map fun d => "\n" ++ d ++ "\n")) := by
  have hops : (endpoints.map (·.operation)).map (·.operationName) =
      endpoints.map (·.operation.operationName) := List.map_map
  rw [DeclaresResults, hops, eraseDups_of_nodup hnames] at h
  have hdeclares : List.Forall₂ (fun d name => IsTypeDeclaration d (ResultAlias.aliasName name))
      declarations (endpoints.map (·.operation.operationName)) := by
    refine h.flip.imp fun d name hd => ?_
    obtain ⟨op, ⟨rfl, -⟩, hd⟩ := hd
    exact isTypeDeclaration_of_declaresResult hd
  have hnamed := DeclaresInOrder.join_declarations (List.forall₂_map_right_iff.mpr hdeclares)
  rwa [List.map_map] at hnamed

theorem declaresInOrder_footer (hg : rebuild t style ctx title endpoints = (left, .ok g))
    (hnames : (endpoints.map (·.operation.operationName)).Nodup) :
    DeclaresInOrder (endpoints.flatMap (·.resultNames style)) g.footer := by
  have hfooter := footer_of_rebuild hg
  split at hfooter
  · next hstyle =>
    have hnone : endpoints.flatMap (·.resultNames style) = [] := by
      simp [Endpoint.resultNames, hstyle]
    rw [hnone]
    trivial
  · next hstyle =>
    obtain ⟨declarations, hfooter, hresults⟩ := hfooter
    have hnamed : endpoints.flatMap (·.resultNames style) =
        endpoints.map fun e => ResultAlias.aliasName e.operation.operationName := by
      simp only [Endpoint.resultNames, if_neg hstyle]
      exact (List.map_eq_flatMap ..).symm
    rw [hnamed, hfooter]
    exact (declaresInOrder_results hnames hresults).append_left _

/-- The names that a file declares for its operations, besides their functions. -/
def declaredNames (style : Style) (ctx : Context) (endpoints : List Endpoint) : List String :=
  endpoints.flatMap (·.declaredNames style ctx) ++ endpoints.flatMap (·.resultNames style)

theorem declaresInOrder_render (hg : rebuild t style ctx title endpoints = (left, .ok g))
    (hnames : (endpoints.map (·.operation.operationName)).Nodup) :
    DeclaresInOrder (declaredNames style ctx endpoints) g.render := by
  have hline {names : List String} {text : String} (h : DeclaresInOrder names text) :
      DeclaresInOrder names (lineIfAny text) := by
    unfold lineIfAny
    split
    · next hempty => exact hempty ▸ h
    · exact h.append_right "\n"
  have hlast (front : String) : ∃ before, front ++ "\n" ++ lineIfAny g.header = before ++ "\n" := by
    by_cases hheader : g.header = ""
    · exact ⟨front, by rw [hheader, lineIfAny, if_pos rfl, String.append_empty]⟩
    · exact ⟨front ++ "\n" ++ g.header, by rw [lineIfAny_of_ne hheader, ← String.append_assoc]⟩
  have hrender : ∃ before, g.render = before ++
      ("\n" ++ String.join (g.implementations.map fun code => code ++ "\n")) ++
        lineIfAny g.footer := by
    obtain ⟨before, hbefore⟩ := hlast
      (s!"/**\n * Generated by clientgen. Do not edit manually.\n * {g.title}\n */\n" ++
        String.join (g.importLines.map fun line => s!"{line}\n"))
    refine ⟨before, ?_⟩
    calc g.render
        = before ++ "\n" ++ String.join (g.implementations.map fun code => code ++ "\n") ++
            lineIfAny g.footer := by rw [← hbefore]; rfl
      _ = _ := congrArg (· ++ lineIfAny g.footer) String.append_assoc
  obtain ⟨before, hrender⟩ := hrender
  rw [hrender]
  exact ((declaresInOrder_implementations (forall₂_implementations hg)).append_left before).append
    (hline (declaresInOrder_footer hg hnames))

theorem nodup_flatMap_iff {names : Endpoint → List String} {declares : Endpoint → Bool}
    (common : DeclaredKind)
    (h : ∀ e ∈ endpoints, ∃ kinds, names e = kinds.map (nameFor · e.operation.casing) ∧
      kinds.Nodup ∧ (declares e = true → common ∈ kinds) ∧ (kinds ≠ [] → declares e = true)) :
    (endpoints.flatMap names).Nodup ↔
      ((endpoints.filter declares).map (·.operation.casing)).Nodup := by
  have hown : ∀ e ∈ endpoints, (names e).Nodup := by
    intro e he
    obtain ⟨kinds, hnames, hkinds, -, -⟩ := h e he
    rw [hnames]
    exact hkinds.map fun kind other hsame => (DeclaredKind.nameFor_inj.mp hsame).1
  rw [List.nodup_flatMap, and_iff_right hown, List.Nodup, List.pairwise_map, List.pairwise_filter]
  -- two operations share a name exactly if both declare something for one casing
  refine List.Pairwise.iff_of_mem fun {e other} he hother => ?_
  obtain ⟨kinds, hnames, -, hcommon, hdeclares⟩ := h e he
  obtain ⟨otherKinds, hotherNames, -, hotherCommon, hotherDeclares⟩ := h other hother
  show List.Disjoint (names e) (names other) ↔ _
  rw [hnames, hotherNames]
  constructor
  · intro hdisjoint he hother hsame
    refine hdisjoint (List.mem_map_of_mem (hcommon he)) ?_
    rw [hsame]
    exact List.mem_map_of_mem (hotherCommon hother)
  · intro hne name hname hotherName
    obtain ⟨kind, hkind, rfl⟩ := List.mem_map.mp hname
    obtain ⟨otherKind, hotherKind, hsame⟩ := List.mem_map.mp hotherName
    have hcasing := (DeclaredKind.nameFor_inj.mp hsame).2.symm
    exact hne (hdeclares (List.ne_nil_of_mem hkind))
      (hotherDeclares (List.ne_nil_of_mem hotherKind)) hcasing

/-- If the operations have different names, the names that are declared for them are different
exactly if the casings are of all operations for which anything is declared. -/
theorem declared_nodup_iff (hg : rebuild t style ctx title endpoints = (left, .ok g))
    (hnames : (endpoints.map (·.operation.operationName)).Nodup) :
    DeclaresInOrder (declaredNames style ctx endpoints) g.render ∧
      ((declaredNames style ctx endpoints).Nodup ↔
        ((endpoints.filter (·.hasDeclarations style ctx)).map (·.operation.casing)).Nodup) := by
  refine ⟨declaresInOrder_render hg hnames, ?_⟩
  have hperm : (declaredNames style ctx endpoints).Perm
      (endpoints.flatMap fun e => e.declaredNames style ctx ++ e.resultNames style) :=
    List.flatMap_append_perm _ _ _
  rw [hperm.nodup_iff]
  refine nodup_flatMap_iff (style.commonKind ctx) fun e he => ?_
  obtain ⟨f, hf, -⟩ := exists_requestFunction hg he
  exact Endpoint.exists_kinds_of_requestFunction hf

/-- An operation that takes a single request, or else has nothing to take. -/
def operationNamed (name : String) (singleRequest : Bool) : Endpoint where
  operation := { verb := .get, operationName := name, overrides := { singleRequest } }
  route := "/pets"
  pathRoute := "/pets"

/-- Two operations with one casing each have a result type, and the types of both have one name. -/
theorem listPetsResult_declared_twice :
    ∃ left g, rebuild .empty .functions {} "Pets"
        [operationNamed "listPets" false, operationNamed "list_pets" false] = (left, .ok g) ∧
      ["listPets", "list_pets"].Nodup ∧
      DeclaresInOrder ["ListPetsResult", "ListPetsResult"] g.render ∧
      ¬ ["ListPetsResult", "ListPetsResult"].Nodup := by
  have hg : rebuild .empty .functions {} "Pets"
      [operationNamed "listPets" false, operationNamed "list_pets" false] = (_, .ok _) := rfl
  have hdeclared := declaresInOrder_render hg (by decide)
  have hnames : declaredNames .functions {}
      [operationNamed "listPets" false, operationNamed "list_pets" false] =
        ["ListPetsResult", "ListPetsResult"] := by
    decide +kernel
  rw [hnames] at hdeclared
  exact ⟨_, _, hg, by decide, hdeclared, by decide⟩

/-- The type of a single request and the result types of two operations. -/
theorem declared_nodup_pets :
    ∃ left g, rebuild .empty .functions {} "Pets"
        [operationNamed "listPets" true, operationNamed "list_pet" false] = (left, .ok g) ∧
      DeclaresInOrder ["ListPetsRequest", "ListPetsResult", "ListPetResult"] g.render ∧
      ["ListPetsRequest", "ListPetsResult", "ListPetResult"].Nodup := by
  have hg : rebuild .empty .functions {} "Pets"
      [operationNamed "listPets" true, operationNamed "list_pet" false] = (_, .ok _) := rfl
  have hnames : declaredNames .functions {}
      [operationNamed "listPets" true, operationNamed "list_pet" false] =
        ["ListPetsRequest", "ListPetsResult", "ListPetResult"] := by
    decide +kernel
  obtain ⟨hdeclared, hiff⟩ := declared_nodup_iff hg (by decide)
  rw [hnames] at hdeclared hiff
  exact ⟨_, _, hg, hdeclared, hiff.mpr (by decide +kernel)⟩

end Group

end RequestGen
