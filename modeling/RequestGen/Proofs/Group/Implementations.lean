import RequestGen.Proofs.Group.Results
import RequestGen.Proofs.ListOutcomes
import RequestGen.Proofs.Request.Senders

/-! # The code of a group

A group is assembled around the code of its operations (`exists_of_rebuild`), of which it has all,
in order (`forall₂_implementations`); each has the request function of its operation
(`exists_requestFunction`). A group can be built if every operation has code (`exists_rebuild`). The
code of the style with functions is that of the style with a factory behind the word `export`
(`Style.implementation_functions`). -/

namespace RequestGen

/-! ### Exported functions -/

theorem Code.FunctionText.render_exported {f g : Code.FunctionText} (hf : f.exported = true)
    (hg : g = { f with exported := false }) : f.render = "export " ++ g.render := by
  subst hg
  simp only [Code.FunctionText.render, Code.FunctionText.head, hf, String.append_assoc]
  rfl

namespace Endpoint
variable {ctx : Context} {e : Endpoint}

theorem render_axiosRequest_exported (generic : Bool) :
    (e.axiosRequest ctx true generic).map RequestFunction.render =
      ((e.axiosRequest ctx false generic).map RequestFunction.render).map ("export " ++ ·) := by
  unfold axiosRequest
  split
  · cases SingleRequest.ofEndpoint ctx e with
    | error fault => rfl
    | ok request =>
      refine congrArg Except.ok (Code.FunctionText.render_exported ?_ ?_)
      · show (e.axiosSingle ctx true generic request).exported = true
        unfold axiosSingle
        dsimp only
        split <;> rfl
      · show (e.axiosSingle ctx false generic request).toText =
          { (e.axiosSingle ctx true generic request).toText with exported := false }
        unfold axiosSingle
        dsimp only
        split <;> rfl
  · exact congrArg Except.ok (Code.FunctionText.render_exported rfl rfl)

theorem render_mutatorRequest_exported :
    (e.mutatorRequest ctx true).map RequestFunction.render =
      ((e.mutatorRequest ctx false).map RequestFunction.render).map ("export " ++ ·) := by
  unfold mutatorRequest
  split
  · rfl
  · split
    · cases SingleRequest.ofEndpoint ctx e with
      | error fault => rfl
      | ok request => exact congrArg Except.ok (Code.FunctionText.render_exported rfl rfl)
    · exact congrArg Except.ok (Code.FunctionText.render_exported rfl rfl)

end Endpoint

/-- The two styles over axios write the same functions, but for the word `export` before them. -/
theorem Style.implementation_functions (ctx : Context) (e : Endpoint) :
    functions.implementation ctx e = (factory.implementation ctx e).map ("export " ++ ·) := by
  have htransport : functions.transport ctx e.operation = factory.transport ctx e.operation := rfl
  unfold implementation
  rw [htransport]
  split
  · next hfetch =>
    cases hmutator : e.operation.mutator <;>
      simp [transport, Transport.resolve, hmutator] at hfetch
  · exact Endpoint.render_mutatorRequest_exported
  · exact Endpoint.render_axiosRequest_exported true

/-! ### Operations -/

namespace Style

/-- The request function of an operation in a style. -/
def requestFunction (style : Style) (ctx : Context) (e : Endpoint) :
    Except Fault RequestFunction :=
  e.requestOver ctx style.exportsFunctions style.isGeneric (style.transport ctx e.operation)

/-- The code of an operation with its imports. -/
def generated (style : Style) (ctx : Context) (e : Endpoint) : Except Fault Generated :=
  (style.implementation ctx e).map fun code => ⟨code, e.operation.modelImports⟩

variable {style : Style} {ctx : Context} {e : Endpoint}

theorem generated_eq_ok_iff {g : Generated} :
    style.generated ctx e = .ok g ↔
      style.implementation ctx e = .ok g.implementation ∧
        g.imports = e.operation.modelImports := by
  unfold generated
  cases style.implementation ctx e with
  | error fault => exact ⟨nofun, nofun⟩
  | ok code =>
    obtain ⟨implementation, imports⟩ := g
    simp [Except.map, eq_comm]

theorem generated_eq_error_iff {fault : Fault} :
    style.generated ctx e = .error fault ↔ style.implementation ctx e = .error fault := by
  unfold generated
  cases style.implementation ctx e with
  | error other => simp [Except.map]
  | ok code => exact ⟨nofun, nofun⟩

end Style

/-! ### Groups -/

namespace Group

variable {style : Style} {ctx : Context} {t left : ResultTable} {title : String}
  {endpoints : List Endpoint} {g : Group}

/-- What the operations come to does not depend on the table that they write to. -/
theorem generateAll_snd (style : Style) (ctx : Context) (endpoints : List Endpoint)
    (t : ResultTable) :
    (generateAll style ctx endpoints t).2 = endpoints.mapM (style.generated ctx) := by
  -- each operation leaves another table to the next
  induction endpoints generalizing t with
  | nil => rfl
  | cons e endpoints ih =>
    have ih := ih (style.register e.operation t)
    have hgenerated : (style.generate ctx e t).2 = style.generated ctx e := rfl
    cases he : style.generated ctx e with
    | error fault =>
      rw [mapM_cons_of_error he]
      simp only [generateAll, Style.generate] at hgenerated ⊢
      rw [hgenerated, he]
    | ok generated =>
      rw [mapM_cons_of_ok he, ← ih]
      simp only [generateAll, Style.generate] at hgenerated ⊢
      rw [hgenerated, he]
      dsimp only
      rcases generateAll style ctx endpoints (style.register e.operation t) with ⟨left, result⟩
      cases result <;> rfl

theorem forall₂_generateAll {generated : List Generated}
    (h : generateAll style ctx endpoints t = (left, .ok generated)) :
    List.Forall₂ (fun e g => style.implementation ctx e = .ok g.implementation ∧
      g.imports = e.operation.modelImports) endpoints generated := by
  have hall : endpoints.mapM (style.generated ctx) = .ok generated :=
    (generateAll_snd style ctx endpoints t).symm.trans (congrArg Prod.snd h)
  exact (forall₂_of_mapM_eq_ok hall).imp fun e g hg => Style.generated_eq_ok_iff.mp hg

/-- A group that was built is assembled around the generated code of its operations. -/
theorem exists_of_rebuild (h : rebuild t style ctx title endpoints = (left, .ok g)) :
    ∃ generated rest, generateAll style ctx endpoints t.clear = (rest, .ok generated) ∧
      (assemble style ctx title (endpoints.map (·.operation)) generated rest).1 = g := by
  rcases hg : generateAll style ctx endpoints t.clear with ⟨rest, result⟩
  rw [rebuild, hg] at h
  cases result with
  | error fault => simp at h
  | ok generated => exact ⟨generated, rest, rfl, Except.ok.inj (congrArg Prod.snd h)⟩

theorem forall₂_implementations (h : rebuild t style ctx title endpoints = (left, .ok g)) :
    List.Forall₂ (fun e code => style.implementation ctx e = .ok code) endpoints
      g.implementations := by
  obtain ⟨generated, rest, hall, rfl⟩ := exists_of_rebuild h
  show List.Forall₂ _ endpoints (generated.map (·.implementation))
  rw [List.forall₂_map_right_iff]
  exact (forall₂_generateAll hall).imp fun _ _ h => h.1

theorem imports_eq (h : rebuild t style ctx title endpoints = (left, .ok g)) :
    g.imports = endpoints.flatMap (·.operation.modelImports) := by
  obtain ⟨generated, rest, hall, rfl⟩ := exists_of_rebuild h
  show generated.flatMap (·.imports) = _
  have hgenerated := forall₂_generateAll hall
  clear h hall
  induction hgenerated with
  | nil => rfl
  | cons hfirst _ ih => rw [List.flatMap_cons, List.flatMap_cons, hfirst.2, ih]

theorem mutators_eq (h : rebuild t style ctx title endpoints = (left, .ok g)) :
    g.mutators = endpoints.flatMap (·.operation.mutators) := by
  obtain ⟨generated, rest, -, rfl⟩ := exists_of_rebuild h
  exact List.flatMap_map _ _ _

theorem exists_mem_implementations (h : rebuild t style ctx title endpoints = (left, .ok g))
    {e : Endpoint} (he : e ∈ endpoints) :
    ∃ code ∈ g.implementations, style.implementation ctx e = .ok code := by
  have hall := forall₂_implementations h
  generalize g.implementations = implementations at hall
  clear h
  induction hall with
  | nil => simp at he
  | @cons first code _ codes hcode _ ih =>
    rcases List.mem_cons.mp he with rfl | he
    · exact ⟨code, List.mem_cons_self, hcode⟩
    · obtain ⟨code', hmem, hcode'⟩ := ih he
      exact ⟨code', List.mem_cons_of_mem _ hmem, hcode'⟩

/-- Every operation has its request function in the group. -/
theorem exists_requestFunction (h : rebuild t style ctx title endpoints = (left, .ok g))
    {e : Endpoint} (he : e ∈ endpoints) :
    ∃ f, style.requestFunction ctx e = .ok f ∧
      (if style.transport ctx e.operation = .fetch then e.fetchCode ctx.output f else f.render) ∈
        g.implementations := by
  obtain ⟨code, hmem, hcode⟩ := exists_mem_implementations h he
  rw [Endpoint.implementation_eq] at hcode
  obtain ⟨f, hf, rfl⟩ := exists_of_map_eq_ok hcode
  exact ⟨f, hf, hmem⟩

theorem exists_rebuild (h : ∀ e ∈ endpoints, ∃ code, style.implementation ctx e = .ok code) :
    ∃ left g, rebuild t style ctx title endpoints = (left, .ok g) := by
  have hspec := generateAll_spec style ctx endpoints t.clear
  unfold rebuild
  rcases hg : generateAll style ctx endpoints t.clear with ⟨rest, result⟩
  rw [hg] at hspec
  cases result with
  | error fault =>
    obtain ⟨e, he, hfault⟩ := hspec
    obtain ⟨code, hcode⟩ := h e he
    exact nomatch hfault.symm.trans hcode
  | ok generated => exact ⟨_, _, rfl⟩

end Group

end RequestGen
