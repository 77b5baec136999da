import RequestGen.Proofs.Code.FunctionReferences
import RequestGen.Proofs.Request.OptionsType

/-! # What functions over axios refer to

A function over axios names the client that it calls, which is axios or a member of it
(`result_of_requestOver_axios`), the type of what it responds with (`mentions_axiosResponse`) and,
if it takes options, their type (`mentions_axiosRequestConfig`). -/

namespace RequestGen

open Code (FunctionText)

/-! ### What a function refers to -/

namespace RequestFunction

variable {f : RequestFunction} {name : String}

theorem refersTo_render (hn : IsPlainName name) (hk : name ∉ FunctionText.keywords) :
    refersTo f.render name = f.toText.mentions name :=
  FunctionText.refersTo_render hn hk f.toText

theorem mentions_of_result (hn : IsPlainName name) (h : f.result.mentions name = true) :
    f.toText.mentions name = true := by
  have hcall : refersTo f.toText.call name = true := (Code.Expr.refersTo_render hn _).trans h
  simp [FunctionText.mentions, hcall]

theorem mentions_of_param {p : Param} (hp : p ∈ f.params) (h : refersTo p.render name = true) :
    f.toText.mentions name = true := by
  have hparams : f.toText.params.any (refersTo · name) = true :=
    List.any_eq_true.mpr ⟨_, List.mem_map_of_mem hp, h⟩
  simp [FunctionText.mentions, hparams]

/-- Whether the function calls axios. -/
def CallsAxios (f : RequestFunction) : Prop :=
  ∃ client ∈ ["axios", "axios.default"], ∃ (verb : Verb) (args : List Code.Expr),
    f.result = .call (client ++ "." ++ verb.name) args

theorem CallsAxios.mentions (h : f.CallsAxios) : f.toText.mentions "axios" = true := by
  obtain ⟨client, hclient, verb, args, hresult⟩ := h
  have haxios : ∀ client ∈ ["axios", "axios.default"], refersTo client "axios" = true := by decide
  refine mentions_of_result (by decide) ?_
  rw [hresult, Code.Expr.mentions_call, refersTo_append_mark_append (by decide) (by decide),
    haxios client hclient]
  rfl

end RequestFunction

/-! ### The functions that call axios -/

/-- How axios is reached. -/
def OutputConfig.axiosClient (output : OutputConfig) : String :=
  if output.allowsSyntheticDefault then "axios" else "axios.default"

namespace Endpoint

variable {ctx : Context} {e : Endpoint} {exported generic : Bool} {f : RequestFunction}

theorem result_of_requestOver_axios (hf : e.requestOver ctx exported generic .axios = .ok f) :
    f.result =
      .call (ctx.output.axiosClient ++ "." ++ e.operation.verb.name) (e.axiosCallArgs ctx) := by
  cases requestOver_eq_ok_iff.mp hf with
  | axiosFlat => rfl
  | axiosSingle => rw [result_axiosSingle]; rfl

/-- The type of what axios responds with is named by the type parameter of a generic function, and
by the result type of another. -/
theorem mentions_axiosResponse (hf : e.requestOver ctx exported generic .axios = .ok f) :
    f.toText.mentions "AxiosResponse" = true := by
  have hframe : f.generic = (e.axiosFrame ctx exported generic).generic ∧
      f.returnType = (e.axiosFrame ctx exported generic).returnType := by
    cases requestOver_eq_ok_iff.mp hf with
    | axiosFlat => exact ⟨rfl, rfl⟩
    | axiosSingle =>
      unfold axiosSingle
      dsimp only
      split <;> exact ⟨rfl, rfl⟩
  have htype : refersTo e.axiosResponseType "AxiosResponse" = true := by
    show refersTo ("AxiosResponse<" ++ e.operation.response.successType ++ ">") _ = true
    rw [refersTo_between (by decide) (by decide) (by decide),
      (by decide : refersTo "AxiosResponse<" "AxiosResponse" = true), Bool.true_or]
  have hnested (opening : String) (ho : endsApart opening = true) :
      refersTo (opening ++ e.axiosResponseType ++ ">") "AxiosResponse" = true := by
    rw [refersTo_between (by decide) ho (by decide), htype, Bool.or_true]
  cases generic with
  | true =>
    have hgeneric : refersTo f.toText.generic "AxiosResponse" = true := by
      show refersTo f.generic _ = true
      rw [hframe.1]
      exact hnested "<TData = " (by decide)
    simp [FunctionText.mentions, hgeneric]
  | false =>
    have hreturn : f.toText.returnType.any (refersTo · "AxiosResponse") = true := by
      show f.returnType.any _ = true
      rw [hframe.2]
      exact hnested "Promise<" (by decide)
    simp [FunctionText.mentions, hreturn]

/-- A function over axios that takes options names their type. -/
theorem mentions_axiosRequestConfig (hf : e.requestOver ctx exported generic .axios = .ok f)
    (hm : e.operation.mutator = none) {isOptional : Bool} {type : String}
    (hp : .options isOptional type ∈ f.params) :
    f.toText.mentions "AxiosRequestConfig" = true := by
  rcases optionsType_of_mem_params hf hp with ⟨-, rfl⟩ | ⟨hv, -⟩ | ⟨mutator, hm', -⟩
  · exact RequestFunction.mentions_of_param hp (by cases isOptional <;> decide)
  · exact nomatch hv
  · exact nomatch hm.symm.trans hm'

end Endpoint

end RequestGen
