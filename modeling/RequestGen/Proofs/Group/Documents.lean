import RequestGen.Proofs.Group.Histories
import RequestGen.Proofs.Request.DocumentReads

/-! # Documents and groups

A group is assembled from the code of its operations and from the output configuration, so the
documents matter to a build as far as they matter to the code of some operation (`rebuild_congr`).
They do not matter to a list of operations exactly if none of them takes a single request: then the
build comes to one group over any documents, and else there are documents over which it comes to
none (`rebuild_whatever_documents_iff`). -/

namespace RequestGen

/-- A context whose document has a flag for the path item of a route. -/
def Context.flagging (output : OutputConfig) (pathRoute : String) : Context where
  specs := [("default", .obj [("paths", .obj [(pathRoute, .bool true)])])]
  output := output

theorem ParameterNames.read_flagging (output : OutputConfig) (e : Endpoint) :
    read (.flagging output e.pathRoute) e = .error .wrongKind := by
  unfold read collect parameters pathItem Context.flagging
  simp [member, Json.Fields.get?, orEmpty, Json.truthy, dereference, holdsRef, bind, Except.bind,
    pure, Except.pure]

namespace Group

variable {style : Style} {ctx other : Context} {endpoints : List Endpoint}

theorem generateAll_congr
    (h : ∀ e ∈ endpoints, style.implementation ctx e = style.implementation other e)
    (t : ResultTable) :
    generateAll style ctx endpoints t = generateAll style other endpoints t := by
  induction endpoints generalizing t with
  | nil => rfl
  | cons e endpoints ih =>
    have hrest := fun e' he' => h e' (List.mem_cons_of_mem _ he')
    simp only [generateAll, Style.generate, h e List.mem_cons_self]
    cases style.implementation other e with
    | error fault => rfl
    | ok code =>
      dsimp only [Except.map]
      rw [ih hrest]

/-- Two builds with one output configuration come to the same if each operation does. -/
theorem rebuild_congr (houtput : ctx.output = other.output)
    (h : ∀ e ∈ endpoints, style.implementation ctx e = style.implementation other e)
    (t : ResultTable) (title : String) :
    rebuild t style ctx title endpoints = rebuild t style other title endpoints := by
  unfold rebuild
  rw [generateAll_congr h]
  rcases generateAll style other endpoints t.clear with ⟨left, result⟩
  cases result with
  | error fault => rfl
  | ok generated =>
    dsimp only [assemble]
    rw [houtput]

/-- Operations come to one group over any documents exactly if none of them takes a single request
over axios or a mutator. -/
theorem rebuild_whatever_documents_iff (t : ResultTable) (style : Style) (output : OutputConfig)
    (title : String) (endpoints : List Endpoint) :
    (∃ left g, ∀ ctx : Context, ctx.output = output →
        rebuild t style ctx title endpoints = (left, .ok g)) ↔
      ∀ e ∈ endpoints, e.operation.overrides.singleRequest = false ∨
        style = .swr ∧ output.httpClient = .fetch := by
  constructor
  · rintro ⟨left, g, h⟩ e he
    obtain ⟨code, -, hcode⟩ :=
      exists_mem_implementations (h (.flagging output e.pathRoute) rfl) he
    have hnot : ¬e.ReadsNames style (.flagging output e.pathRoute) := by
      intro hreads
      have hfault := Endpoint.implementation_eq_error_iff.mpr
        ⟨hreads, ParameterNames.read_flagging output e⟩
      exact nomatch hcode.symm.trans hfault
    exact Endpoint.not_readsNames_iff.mp hnot
  · intro h
    have hnone {ctx : Context} (houtput : ctx.output = output) {e : Endpoint}
        (he : e ∈ endpoints) : ¬e.ReadsNames style ctx := by
      rw [Endpoint.not_readsNames_iff, houtput]
      exact h e he
    have hcode : ∀ e ∈ endpoints, ∃ code, style.implementation { output } e = .ok code := by
      intro e he
      cases himpl : style.implementation { output } e with
      | ok code => exact ⟨code, rfl⟩
      | error fault =>
        exact absurd (Endpoint.implementation_eq_error_iff.mp himpl).1 (hnone rfl he)
    obtain ⟨left, g, hg⟩ :
        ∃ left g, rebuild t style { output } title endpoints = (left, .ok g) :=
      exists_rebuild hcode
    refine ⟨left, g, fun ctx houtput => ?_⟩
    rw [← hg]
    refine rebuild_congr houtput (fun e he => ?_) t title
    exact Endpoint.implementation_congr houtput fun hreads => absurd hreads (hnone houtput he)

end Group

end RequestGen
