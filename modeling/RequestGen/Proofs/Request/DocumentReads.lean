import RequestGen.Proofs.Request.Senders

/-! # Where documents are read

The documents get into the code of an operation only through the names of its parameters, and these
are read only for a function that takes a single request (`Endpoint.ReadsNames`). So the code of an
operation cannot be generated exactly if it is such a function and the names cannot be read
(`Endpoint.implementation_eq_error_iff`), and it is the same in two contexts with one output
configuration if the names are (`Endpoint.implementation_congr`). -/

namespace RequestGen

namespace Endpoint

variable {style : Style} {ctx other : Context} {e : Endpoint}

/-- The function of the operation takes a single request, for which the names of the parameters are
read from the documents. -/
def ReadsNames (e : Endpoint) (style : Style) (ctx : Context) : Prop :=
  e.operation.overrides.singleRequest = true ∧ style.transport ctx e.operation ≠ .fetch

theorem not_readsNames_iff :
    ¬e.ReadsNames style ctx ↔
      e.operation.overrides.singleRequest = false ∨
        style = .swr ∧ ctx.output.httpClient = .fetch := by
  rw [ReadsNames, not_and_or, not_not, Bool.not_eq_true, Style.transport_eq_fetch_iff]

theorem isSome_mutator_of_transport (h : style.transport ctx e.operation = .mutator) :
    e.operation.mutator.isSome = true := by
  have hnone (client : HttpClient) : Transport.resolve client none ≠ .mutator := by
    unfold Transport.resolve
    split <;> exact nofun
  cases hm : e.operation.mutator with
  | some _ => rfl
  | none =>
    unfold Style.transport at h
    rw [hm] at h
    split at h <;> exact absurd h (hnone _)

/-- The one reason why an operation has no code: it takes a single request, and the names of its
parameters cannot be read. -/
theorem implementation_eq_error_iff {fault : Fault} :
    style.implementation ctx e = .error fault ↔
      e.ReadsNames style ctx ∧ ParameterNames.read ctx e = .error fault := by
  rw [implementation_eq]
  unfold ReadsNames
  cases htransport : style.transport ctx e.operation with
  | fetch => exact ⟨nofun, fun h => absurd rfl h.1.2⟩
  | axios =>
    constructor
    · intro h
      have hrequest := eq_error_of_map_eq_error h
      change e.axiosRequest ctx _ _ = _ at hrequest
      unfold axiosRequest at hrequest
      split at hrequest
      · next hs =>
        exact ⟨⟨hs, nofun⟩, eq_error_of_map_eq_error (eq_error_of_map_eq_error hrequest)⟩
      · exact nomatch hrequest
    · rintro ⟨⟨hs, -⟩, hn⟩
      rw [requestOver_eq_error (.inl rfl) hs hn]
      rfl
  | mutator =>
    have hm := isSome_mutator_of_transport htransport
    constructor
    · intro h
      have hrequest := eq_error_of_map_eq_error h
      change e.mutatorRequest ctx _ = _ at hrequest
      unfold mutatorRequest at hrequest
      split at hrequest
      · next hnone => rw [hnone] at hm; exact nomatch hm
      · split at hrequest
        · next hs =>
          exact ⟨⟨hs, nofun⟩, eq_error_of_map_eq_error (eq_error_of_map_eq_error hrequest)⟩
        · exact nomatch hrequest
    · rintro ⟨⟨hs, -⟩, hn⟩
      rw [requestOver_eq_error (.inr ⟨rfl, hm⟩) hs hn]
      rfl

/-- Of the documents, nothing but the names of the parameters gets into the code. -/
theorem implementation_congr (houtput : ctx.output = other.output)
    (hnames : e.ReadsNames style ctx → ParameterNames.read ctx e = ParameterNames.read other e) :
    style.implementation ctx e = style.implementation other e := by
  obtain ⟨key, specs, output⟩ := ctx
  obtain ⟨key', specs', output'⟩ := other
  obtain rfl : output = output' := houtput
  have htransport : style.transport ⟨key, specs, output⟩ e.operation =
      style.transport ⟨key', specs', output⟩ e.operation := by
    cases style <;> rfl
  rw [implementation_eq, implementation_eq, ← htransport]
  congr 1
  cases hvia : style.transport ⟨key, specs, output⟩ e.operation with
  | fetch => rfl
  | axios =>
    show e.axiosRequest _ _ _ = e.axiosRequest _ _ _
    unfold axiosRequest SingleRequest.ofEndpoint
    split
    · next hs =>
      rw [hnames ⟨hs, by rw [hvia]; exact nofun⟩]
      rfl
    · rfl
  | mutator =>
    show e.mutatorRequest _ _ = e.mutatorRequest _ _
    unfold mutatorRequest SingleRequest.ofEndpoint
    split
    · rfl
    · split
      · next hs =>
        rw [hnames ⟨hs, by rw [hvia]; exact nofun⟩]
        rfl
      · rfl

end Endpoint

end RequestGen
