import RequestGen.Proofs.Request.Senders

/-! # The type of the caller's options

A function that takes options of its caller gives them the type of its client's options, or that of
the second parameter of the function of the user that it hands them over to
(`optionsType_of_mem_params`). -/

namespace RequestGen

/-- The type of the second parameter of a function of the user. -/
def secondParameterOf (mutator : String) : String := "SecondParameter<typeof " ++ mutator ++ ">"

namespace Endpoint

variable {ctx : Context} {e : Endpoint} {exported generic : Bool}

/-- A type that an operation's function may give to the options over a transport. -/
def OptionsType (e : Endpoint) (via : Transport) (type : String) : Prop :=
  (via = .axios ∧ type = "AxiosRequestConfig") ∨ (via = .fetch ∧ type = "RequestInit") ∨
    ∃ mutator, e.operation.mutator = some mutator ∧
      e.operation.overrides.requestOptions.isTaken = true ∧
      type = secondParameterOf mutator.name

variable {via : Transport} {isOptional : Bool} {type : String}

theorem optionsType_of_mem_mutatorOptionsParam {output : OutputConfig}
    (h : Param.options isOptional type ∈ (e.operation.mutatorOptionsParam output).toList) :
    e.OptionsType via type := by
  unfold Operation.mutatorOptionsParam at h
  split at h
  · exact nomatch h
  · next mutator hm =>
    split at h
    · next htaken =>
      obtain ⟨-, rfl⟩ := Param.options.inj (List.mem_singleton.mp h)
      exact .inr (.inr ⟨mutator, hm, (Bool.and_eq_true_iff.mp htaken).1, rfl⟩)
    · exact nomatch h

theorem optionsType_of_mem_axiosOptionsParam
    (h : Param.options isOptional type ∈ e.operation.axiosOptionsParam.toList) :
    e.OptionsType .axios type := by
  unfold Operation.axiosOptionsParam at h
  split at h
  · exact .inl ⟨rfl, (Param.options.inj (List.mem_singleton.mp h)).2⟩
  · exact nomatch h

/-- The options of a function are those of its client or of its mutator. -/
theorem optionsType_of_mem_params {f : RequestFunction}
    (hf : e.requestOver ctx exported generic via = .ok f)
    (h : Param.options isOptional type ∈ f.params) : e.OptionsType via type := by
  have harguments {list : String} {params : List Param}
      (h : Param.options isOptional type ∈ Param.arguments list :: params) :
      Param.options isOptional type ∈ params :=
    (List.mem_cons.mp h).resolve_left nofun
  have hrequest {name : String} {params : List Param}
      (h : Param.options isOptional type ∈ Param.request name :: params) :
      Param.options isOptional type ∈ params :=
    (List.mem_cons.mp h).resolve_left nofun
  cases requestOver_eq_ok_iff.mp hf with
  | axiosFlat => exact optionsType_of_mem_axiosOptionsParam (harguments h)
  | axiosSingle =>
    unfold axiosSingle at h
    dsimp only at h
    split at h
    · exact optionsType_of_mem_axiosOptionsParam (hrequest h)
    · exact optionsType_of_mem_axiosOptionsParam h
  | mutatorFlat => exact optionsType_of_mem_mutatorOptionsParam (harguments h)
  | mutatorSingle => exact optionsType_of_mem_mutatorOptionsParam (hrequest h)
  | fetch =>
    unfold fetchSender at h
    split at h
    · exact optionsType_of_mem_mutatorOptionsParam (harguments h)
    · have h := harguments h
      split at h
      · exact .inr (.inl ⟨rfl, (Param.options.inj (List.mem_singleton.mp h)).2⟩)
      · exact nomatch h

end Endpoint

end RequestGen
