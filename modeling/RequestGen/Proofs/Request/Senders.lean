import RequestGen.Client.Style
import RequestGen.Proofs.ListOutcomes

/-! # Request functions by transport

`Endpoint.requestOver` is the request function of an operation over a transport, with the calling
convention that the operation asks for. There are five forms of it, the constructors of
`Endpoint.Sender`; `requestOver_eq_ok_iff` is the inversion that statements about all transports
start from. `RequestFunction.sendingArgs` are the arguments of the call that sends the request. -/

namespace RequestGen

open Code (Expr Entry)

/-! ### The call that sends the request -/

/-- The arguments of a call. -/
def Code.Expr.callArgs : Expr → List Expr
  | .call _ args => args
  | _ => []

/-- The arguments of an awaited `fetch`. -/
def Statement.fetchArgs? : Statement → Option (List Expr)
  | .fetch url init => some [url, init]
  | _ => none

/-- The arguments of the call that sends the request: those of the awaited `fetch` where there is
one, and else those of the call that is returned. -/
def RequestFunction.sendingArgs (f : RequestFunction) : List Expr :=
  (f.statements.findSome? Statement.fetchArgs?).getD f.result.callArgs

theorem RequestFunction.sendingArgs_of_not_awaits {f : RequestFunction}
    (h : ∀ s ∈ f.statements, s.fetchArgs? = none) : f.sendingArgs = f.result.callArgs := by
  rw [sendingArgs, List.findSome?_eq_none_iff.mpr h, Option.getD_none]

theorem Operation.fetchArgs?_encodeStatements (op : Operation) (single : Bool) :
    ∀ s ∈ op.encodeStatements single, s.fetchArgs? = none := by
  intro s hs
  unfold encodeStatements at hs
  split at hs
  · simp at hs
  · rw [List.mem_singleton.mp hs]; rfl

theorem SingleRequest.fetchArgs?_statements (r : SingleRequest) (bodyForm : String) :
    ∀ s ∈ r.statements bodyForm, s.fetchArgs? = none := by
  intro s hs
  simp only [statements, List.mem_append, Option.mem_toList, Option.map_eq_some_iff] at hs
  rcases hs with ((hs | hs) | ⟨_, _, rfl⟩) | ⟨_, _, rfl⟩
  · split at hs
    · simp at hs
    · rw [List.mem_singleton.mp hs]; rfl
  · split at hs
    · simp at hs
    · rw [List.mem_singleton.mp hs]; rfl
  · rfl
  · rfl

/-! ### The statements before the call -/

/-- What the statements of a request give one after another, where a destructuring that takes
nothing, which is not written, would give nothing. -/
theorem SingleRequest.flatMap_statements {β : Type} {g : Statement → List β}
    (hg : g (.destructure [] false) = []) (r : SingleRequest) (bodyForm : String) :
    (r.statements bodyForm).flatMap g =
      g (.destructure r.destructureNames r.hasDataSpread) ++
        (if bodyForm = "" then [] else g (.encode bodyForm)) ++
        r.queryNames.toList.flatMap (fun names => g (.gather "params" names)) ++
        r.headerNames.toList.flatMap (fun names => g (.gather "headers" names)) := by
  have hdestructure : (if r.destructureNames.isEmpty && !r.hasDataSpread then []
      else [Statement.destructure r.destructureNames r.hasDataSpread]).flatMap g =
        g (.destructure r.destructureNames r.hasDataSpread) := by
    split
    · next h =>
      simp only [Bool.and_eq_true, List.isEmpty_iff, Bool.not_eq_true'] at h
      rw [h.1, h.2, hg, List.flatMap_nil]
    · exact List.flatMap_singleton g _
  have hencode : (if bodyForm = "" then [] else [Statement.encode bodyForm]).flatMap g =
      if bodyForm = "" then [] else g (.encode bodyForm) := by
    split
    · rfl
    · exact List.flatMap_singleton g _
  have hgather (constant : String) (names : Option (List String)) :
      ((names.map (Statement.gather constant)).toList).flatMap g =
        names.toList.flatMap fun names => g (.gather constant names) := by
    cases names <;> simp
  simp only [statements, List.flatMap_append, hdestructure, hencode, hgather]

/-! ### The forms of a request function -/

theorem Style.transport_eq_fetch_iff {style : Style} {ctx : Context} {op : Operation} :
    style.transport ctx op = .fetch ↔ style = .swr ∧ ctx.output.httpClient = .fetch := by
  have hresolve {client : HttpClient} :
      Transport.resolve client op.mutator = .fetch ↔ client = .fetch := by
    unfold Transport.resolve
    split
    · next h => simp [h]
    · next h => split <;> simp [h]
  unfold transport
  cases style <;> simp [hresolve]

namespace Endpoint

variable {ctx : Context} {e : Endpoint} {exported generic : Bool}

/-- The request function of an operation over a transport. -/
def requestOver (ctx : Context) (e : Endpoint) (exported generic : Bool) :
    Transport → Except Fault RequestFunction
  | .axios => e.axiosRequest ctx exported generic
  | .mutator => e.mutatorRequest ctx exported
  | .fetch => .ok (e.fetchSender ctx.output)

/-- The code of an operation is that of its request function, over fetch with what goes before
it. -/
theorem implementation_eq (style : Style) :
    style.implementation ctx e =
      (e.requestOver ctx style.exportsFunctions style.isGeneric
        (style.transport ctx e.operation)).map fun f =>
          if style.transport ctx e.operation = .fetch then e.fetchCode ctx.output f
          else f.render := by
  unfold Style.implementation
  split <;> rename_i h <;> rw [h] <;> rfl

theorem result_axiosSingle (request : SingleRequest) :
    (e.axiosSingle ctx exported generic request).result = e.axiosCall ctx := by
  unfold axiosSingle
  dsimp only
  split <;> rfl

/-- The forms that the request function of an operation takes. -/
inductive Sender (ctx : Context) (e : Endpoint) (exported generic : Bool) :
    Transport → RequestFunction → Prop where
  | axiosFlat (hs : e.operation.overrides.singleRequest = false) :
      Sender ctx e exported generic .axios (e.axiosFlat ctx exported generic)
  | axiosSingle {names : NameTexts} (hs : e.operation.overrides.singleRequest = true)
      (hn : ParameterNames.read ctx e = .ok names) :
      Sender ctx e exported generic .axios
        (e.axiosSingle ctx exported generic (SingleRequest.build e names))
  | mutatorFlat {mutator : Mutator} (hm : e.operation.mutator = some mutator)
      (hs : e.operation.overrides.singleRequest = false) :
      Sender ctx e exported generic .mutator (e.mutatorFlat ctx mutator exported)
  | mutatorSingle {mutator : Mutator} {names : NameTexts} (hm : e.operation.mutator = some mutator)
      (hs : e.operation.overrides.singleRequest = true)
      (hn : ParameterNames.read ctx e = .ok names) :
      Sender ctx e exported generic .mutator
        (e.mutatorSingle ctx mutator exported (SingleRequest.build e names))
  | fetch : Sender ctx e exported generic .fetch (e.fetchSender ctx.output)

theorem Sender.requestOver_eq {via : Transport} {f : RequestFunction}
    (h : e.Sender ctx exported generic via f) : e.requestOver ctx exported generic via = .ok f := by
  cases h with
  | axiosFlat hs => simp [requestOver, axiosRequest, hs]
  | axiosSingle hs hn =>
    simp [requestOver, axiosRequest, SingleRequest.ofEndpoint, hs, hn, Except.map]
  | mutatorFlat hm hs => simp [requestOver, mutatorRequest, hm, hs]
  | mutatorSingle hm hs hn =>
    simp [requestOver, mutatorRequest, SingleRequest.ofEndpoint, hm, hs, hn, Except.map]
  | fetch => rfl

theorem requestOver_eq_error {via : Transport} {fault : Fault}
    (hv : via = .axios ∨ via = .mutator ∧ e.operation.mutator.isSome = true)
    (hs : e.operation.overrides.singleRequest = true)
    (hn : ParameterNames.read ctx e = .error fault) :
    e.requestOver ctx exported generic via = .error fault := by
  rcases hv with rfl | ⟨rfl, hm⟩
  · simp [requestOver, axiosRequest, SingleRequest.ofEndpoint, hs, hn, Except.map]
  · obtain ⟨mutator, hm⟩ := Option.isSome_iff_exists.mp hm
    simp [requestOver, mutatorRequest, SingleRequest.ofEndpoint, hm, hs, hn, Except.map]

theorem Sender.of_requestOver {via : Transport} {f : RequestFunction}
    (h : e.requestOver ctx exported generic via = .ok f) : e.Sender ctx exported generic via f := by
  cases via with
  | axios =>
    change e.axiosRequest ctx exported generic = .ok f at h
    unfold axiosRequest at h
    split at h
    · next hs =>
      obtain ⟨request, hr, rfl⟩ := exists_of_map_eq_ok h
      obtain ⟨names, hn, rfl⟩ := exists_of_map_eq_ok hr
      exact .axiosSingle hs hn
    · next hs =>
      rw [← Except.ok.inj h]
      exact .axiosFlat (Bool.eq_false_iff.mpr hs)
  | fetch => rw [← Except.ok.inj h]; exact .fetch
  | mutator =>
    change e.mutatorRequest ctx exported = .ok f at h
    unfold mutatorRequest at h
    split at h
    · exact nomatch h
    · next mutator hm =>
      split at h
      · next hs =>
        obtain ⟨request, hr, rfl⟩ := exists_of_map_eq_ok h
        obtain ⟨names, hn, rfl⟩ := exists_of_map_eq_ok hr
        exact .mutatorSingle hm hs hn
      · next hs =>
        rw [← Except.ok.inj h]
        exact .mutatorFlat hm (Bool.eq_false_iff.mpr hs)

theorem requestOver_eq_ok_iff {via : Transport} {f : RequestFunction} :
    e.requestOver ctx exported generic via = .ok f ↔ e.Sender ctx exported generic via f :=
  ⟨Sender.of_requestOver, Sender.requestOver_eq⟩

end Endpoint

end RequestGen
