import RequestGen.Proofs.Request.Senders

/-! # Functions for hooks

Over axios, the functions that hooks call are those that stand at top level. A function of a mutator
is the same in both styles, and one that calls axios has another signature: for hooks it is not
generic and resolves to the axios response (`Endpoint.axiosRequest_hook`). The results of hooks are
not registered (`Style.generate_hook`). -/

namespace RequestGen

/-! ### The text of a function -/

namespace Code

/-- The first line of an exported function: its name, its type parameters, its parameters and what
it returns. -/
def signature (name generic params type : String) : String :=
  "export const " ++ name ++ " = " ++ generic ++ "(" ++ params ++ "): " ++ type ++ " => \x7b\n"

namespace FunctionText

variable (f : FunctionText)

/-- What follows the first line. -/
def body : String :=
  String.join ((f.statements.filter (· ≠ "")).map fun s => s!"{statementLines s}\n") ++
    (if f.call = "" then "" else s!"  return {f.call};\n") ++ "\x7d\n" ++
    String.join (f.declarations.map fun d => s!"\n{d}\n")

theorem render_eq : f.render = f.head ++ f.body := by
  simp only [render, body, String.append_assoc]

theorem head_of_exported {type : String} (hexported : f.exported = true)
    (hasync : f.isAsync = false) (htype : f.returnType = some type) (hne : type ≠ "") :
    f.head = signature f.name f.generic (Text.commaListOfNonempty f.params) type := by
  unfold head signature
  rw [hexported, hasync, htype]
  simp only [if_pos, if_neg hne, Bool.false_eq_true, if_false, String.append_assoc]
  rfl

end FunctionText

end Code

open Code (FunctionText signature)

/-! ### Functions over axios -/

namespace Endpoint

variable {ctx : Context} {e : Endpoint}

/-- The function over axios without what lets its caller choose what it resolves to. -/
def resolvingToResponse (e : Endpoint) (f : RequestFunction) : RequestFunction :=
  { f with generic := "", returnType := some s!"Promise<{e.axiosResponseType}>" }

theorem axiosRequest_hook (ctx : Context) (e : Endpoint) :
    e.axiosRequest ctx true false = (e.axiosRequest ctx true true).map e.resolvingToResponse := by
  have hsingle (request : SingleRequest) : e.axiosSingle ctx true false request =
      e.resolvingToResponse (e.axiosSingle ctx true true request) := by
    unfold axiosSingle
    dsimp only
    split <;> rfl
  unfold axiosRequest
  split
  · cases SingleRequest.ofEndpoint ctx e with
    | error fault => rfl
    | ok request => exact congrArg Except.ok (hsingle request)
  · rfl

theorem axiosRequest_frame {f : RequestFunction} (h : e.axiosRequest ctx true true = .ok f) :
    f.name = e.operation.operationName ∧ f.exported = true ∧ f.isAsync = false ∧
      f.generic = s!"<TData = {e.axiosResponseType}>" ∧ f.returnType = some "Promise<TData>" := by
  change e.requestOver ctx true true .axios = .ok f at h
  cases requestOver_eq_ok_iff.mp h with
  | axiosFlat => exact ⟨rfl, rfl, rfl, rfl, rfl⟩
  | axiosSingle =>
    unfold axiosSingle
    dsimp only
    split <;> exact ⟨rfl, rfl, rfl, rfl, rfl⟩

/-- The text of a function over axios that stands at top level, and of the function without what
lets its caller choose what it resolves to. -/
theorem render_axiosRequest {f : RequestFunction} (h : e.axiosRequest ctx true true = .ok f) :
    ∃ params body,
      f.render = signature e.operation.operationName s!"<TData = {e.axiosResponseType}>" params
        "Promise<TData>" ++ body ∧
      (e.resolvingToResponse f).render = signature e.operation.operationName "" params
        s!"Promise<{e.axiosResponseType}>" ++ body := by
  obtain ⟨hname, hexported, hasync, hgeneric, htype⟩ := axiosRequest_frame h
  have hne : s!"Promise<{e.axiosResponseType}>" ≠ "" := by simp [toString]
  refine ⟨Text.commaListOfNonempty (f.params.map Param.render), f.toText.body, ?_, ?_⟩
  · rw [← hname, ← hgeneric]
    exact f.toText.render_eq.trans (congrArg (· ++ _)
      (f.toText.head_of_exported hexported hasync htype (by decide)))
  · rw [← hname]
    exact (e.resolvingToResponse f).toText.render_eq.trans (congrArg (· ++ _)
      ((e.resolvingToResponse f).toText.head_of_exported hexported hasync rfl hne))

end Endpoint

/-! ### Both styles -/

theorem ResultTable.erase_register (t : ResultTable) (name : String) (result : ResultAlias) :
    (t.register name result).erase name = t.erase name := by
  have hentries : (t.entries.filter (·.1 ≠ name) ++ [(name, result)]).filter (·.1 ≠ name) =
      t.entries.filter (·.1 ≠ name) := by
    simp [List.filter_append, List.filter_filter]
  unfold erase register
  simp only [hentries]

namespace Style

variable {ctx : Context} {e : Endpoint}

theorem implementation_hook_of_mutator (hclient : ctx.output.httpClient = .axios)
    (hm : e.operation.mutator.isSome = true) :
    swr.implementation ctx e = functions.implementation ctx e := by
  have hresolve : Transport.resolve .axios e.operation.mutator = .mutator := by
    simp [Transport.resolve, hm]
  unfold implementation transport
  rw [hclient, hresolve]
  rfl

theorem implementation_hook_of_axios (hclient : ctx.output.httpClient = .axios)
    (hm : e.operation.mutator.isSome = false) :
    functions.implementation ctx e = (e.axiosRequest ctx true true).map (·.render) ∧
      swr.implementation ctx e =
        ((e.axiosRequest ctx true true).map e.resolvingToResponse).map (·.render) := by
  have hresolve : Transport.resolve .axios e.operation.mutator = .axios := by
    simp [Transport.resolve, hm]
  rw [← Endpoint.axiosRequest_hook]
  unfold implementation transport
  rw [hclient, hresolve]
  exact ⟨rfl, rfl⟩

/-- Over axios, a function for hooks is that of the same operation at top level, with another
signature if it has no mutator, and its result is not registered. -/
theorem generate_hook (ctx : Context) (hclient : ctx.output.httpClient = .axios) (e : Endpoint)
    (t : ResultTable) :
    let name := e.operation.operationName
    let (hookTable, hook) := swr.generate ctx e t
    let (table, function) := functions.generate ctx e t
    hookTable = t ∧
    table.get? name = some (.ofOperation e.operation) ∧ table.erase name = t.erase name ∧
    if e.operation.mutator.isSome then hook = function
    else
      (∃ fault, hook = .error fault ∧ function = .error fault) ∨
      ∃ params body imports,
        function = .ok ⟨signature name s!"<TData = {e.axiosResponseType}>" params
          "Promise<TData>" ++ body, imports⟩ ∧
        hook = .ok ⟨signature name "" params s!"Promise<{e.axiosResponseType}>" ++ body,
          imports⟩ := by
  have hget := ResultTable.get?_register t e.operation.operationName (.ofOperation e.operation)
    e.operation.operationName
  refine ⟨rfl, hget.trans (if_pos rfl), ResultTable.erase_register .., ?_⟩
  split
  · next hm =>
    show (swr.implementation ctx e).map _ = (functions.implementation ctx e).map _
    rw [implementation_hook_of_mutator hclient hm]
  · next hm =>
    obtain ⟨hfunction, hhook⟩ := implementation_hook_of_axios hclient (Bool.eq_false_iff.mpr hm)
    show (∃ fault, (swr.implementation ctx e).map _ = _ ∧
      (functions.implementation ctx e).map _ = _) ∨ _
    rw [hfunction, hhook]
    cases hf : e.axiosRequest ctx true true with
    | error fault => exact .inl ⟨fault, rfl, rfl⟩
    | ok f =>
      obtain ⟨params, body, htext, hhookText⟩ := Endpoint.render_axiosRequest hf
      refine .inr ⟨params, body, e.operation.modelImports, ?_, ?_⟩
      · exact congrArg (fun code => Except.ok (Generated.mk code e.operation.modelImports)) htext
      · exact congrArg (fun code => Except.ok (Generated.mk code e.operation.modelImports))
          hhookText

/-- An operation that takes a single request. -/
def findPet : Endpoint where
  operation := {
    verb := .get, operationName := "findPet", response := { success := "Pet" },
    overrides := { singleRequest := true } }
  route := "/pets/find"
  pathRoute := "/pets/find"

/-- The two functions of an operation without a mutator. -/
theorem generate_hook_findPet :
    (swr.generate {} findPet .empty).1 = .empty ∧
    (functions.generate {} findPet .empty).1.get? "findPet" =
      some (.response "findPet" "Pet") ∧
    ∃ params body imports,
      (functions.generate {} findPet .empty).2 = .ok
        ⟨signature "findPet" "<TData = AxiosResponse<Pet>>" params "Promise<TData>" ++ body,
          imports⟩ ∧
      (swr.generate {} findPet .empty).2 = .ok
        ⟨signature "findPet" "" params "Promise<AxiosResponse<Pet>>" ++ body, imports⟩ := by
  obtain ⟨htable, hget, -, hcode⟩ := generate_hook {} rfl findPet .empty
  refine ⟨htable, hget, ?_⟩
  rcases hcode with ⟨fault, hfault, -⟩ | ⟨params, body, imports, hfunction, hhook⟩
  · exact nomatch hfault
  · exact ⟨params, body, imports, hfunction, hhook⟩

end Style

end RequestGen
