import RequestGen.Proofs.Naming.Casings
import RequestGen.Proofs.Request.CallWords

/-! # The caller's options

A request function may take options of its caller. `declares_options_iff` says that over every
transport and under both conventions it does so exactly if the arguments of the call that sends the
request refer to them: options are never taken and dropped, and never used where they are not
taken. The parameter (`declares_options`) and the forwarding (`mentions_sendingArgs`) are decided in
different places. -/

namespace RequestGen

open Code (Expr Entry)

namespace Endpoint

variable {ctx : Context} {e : Endpoint} {exported generic : Bool}

/-! ### The call -/

theorem not_refersTo_urlFunctionName :
    refersTo e.operation.urlFunctionName "options" = false := by
  have htext : e.operation.urlFunctionName =
      "get" ++ Naming.pascal e.operation.operationName ++ "Url" := rfl
  have hget : IsPlainName "get" := by decide
  have hurl : IsPlainName "Url" := by decide
  have hchars : ∀ c ∈ e.operation.urlFunctionName.toList, Text.isNameChar c = true := by
    intro c hc
    rw [htext, String.toList_append, String.toList_append, List.mem_append, List.mem_append] at hc
    rcases hc with (hc | hc) | hc
    · exact hget.2 c hc
    · exact Naming.isNameChar_of_isAlphanum (Naming.isAlphanum_of_mem_pascal hc)
    · exact hurl.2 c hc
  rw [refersTo_of_isNameChar isForeign_options.plain hchars, decide_eq_false_iff_not, htext]
  intro heq
  have hhead := congrArg (·.toList.head?) heq
  simp only [String.toList_append, List.append_assoc] at hhead
  exact absurd (Option.some.inj (show some 'g' = some 'o' from hhead)) (by decide)

section Calls

variable (hown : ∀ text ∈ e.callTexts, refersTo text "options" = false)

include hown

theorem mentions_urlCall : e.urlCall.mentions "options" = false := by
  have hargs : (e.operation.urlArguments.map fun a => Expr.name a.passed).any
      (·.mentions "options") = false := by
    rw [List.any_map, List.any_eq_false]
    intro a ha
    have hpassed : a.passed ∈ e.callTexts := by
      simp only [callTexts, List.mem_append, List.mem_map]
      exact .inl (.inl (.inl (.inr ⟨a, ha, rfl⟩)))
    simp [hown a.passed hpassed]
  rw [urlCall, Expr.mentions_call, not_refersTo_urlFunctionName, hargs]
  rfl

/-- An init object mentions `options` exactly if it spreads the caller's. -/
theorem mentions_fetchInit (spreadOptions : Bool) :
    (e.fetchInit spreadOptions).mentions "options" = spreadOptions := by
  have hmethod : refersTo (Text.upperCase e.operation.verb.name) "options" = false :=
    isForeign_options.verb e.operation.verb
  have hpayload : refersTo (e.operation.body.payload e.operation.forms) "options" = false :=
    Body.not_refersTo_payload isForeign_options (hown _ (by simp [callTexts]))
  unfold fetchInit
  dsimp only
  cases spreadOptions with
  | true => simp +decide
  | false =>
    have hheaders : (e.fetchHeaders false).any (·.mentions "options") = false := by
      unfold fetchHeaders
      dsimp only
      split
      · rfl
      · simp +decide
    have hbody : (if e.fetchSendsJson then
        Expr.call "JSON.stringify" [.name (e.operation.body.payload e.operation.forms)]
        else .name (e.operation.body.payload e.operation.forms)).mentions "options" = false := by
      split
      · simp +decide [hpayload]
      · exact hpayload
    simp +decide [hmethod, hheaders, hbody]

end Calls

/-! ### The parameter -/

theorem options_mem_localNames_ite (b : Bool) :
    "options" ∈ (if b then ["options"] else []) ↔ b = true := by
  cases b <;> simp

/-- A function has a parameter for the caller's options exactly if they are taken over its
transport. -/
theorem declares_options {via : Transport} {f : RequestFunction}
    (hf : e.requestOver ctx exported generic via = .ok f) :
    "options" ∈ f.params.flatMap Param.localNames ↔ e.takesOptions via = true := by
  have harguments (list : String) (params : List Param) :
      (Param.arguments list :: params).flatMap Param.localNames =
        params.flatMap Param.localNames := rfl
  have hrequest (type : String) (params : List Param) :
      "options" ∈ (Param.request type :: params).flatMap Param.localNames ↔
        "options" ∈ params.flatMap Param.localNames := by
    simp [Param.localNames]
  cases requestOver_eq_ok_iff.mp hf with
  | axiosFlat =>
    rw [axiosFlat, harguments, axiosFrame, localNames_axiosOptionsParam, options_mem_localNames_ite]
  | axiosSingle =>
    unfold axiosSingle
    dsimp only
    split
    · rw [hrequest, axiosFrame, localNames_axiosOptionsParam, options_mem_localNames_ite]
    · rw [axiosFrame, localNames_axiosOptionsParam, options_mem_localNames_ite]
  | mutatorFlat =>
    rw [mutatorFlat, harguments, localNames_mutatorOptionsParam, options_mem_localNames_ite]
  | mutatorSingle =>
    rw [mutatorSingle, hrequest, localNames_mutatorOptionsParam, options_mem_localNames_ite]
  | fetch =>
    unfold fetchSender
    split
    · next mutator hm =>
      have htakes : e.takesOptions .fetch = e.takesOptions .mutator := by simp [takesOptions, hm]
      rw [fetchMutatorFunction, harguments, localNames_mutatorOptionsParam,
        options_mem_localNames_ite, htakes]
    · next hm =>
      rw [fetchFunction, harguments]
      cases htaken : e.operation.overrides.requestOptions.isTaken <;>
        simp [takesOptions, hm, htaken, Param.localNames]

theorem isSome_mutatorOptionsParam (output : OutputConfig) :
    (e.operation.mutatorOptionsParam output).isSome = e.takesOptions .mutator := by
  unfold Operation.mutatorOptionsParam takesOptions
  cases e.operation.mutator with
  | none => simp
  | some mutator => dsimp only [Option.any_some]; split <;> simp_all

/-- The arguments of the call mention `options` exactly if the function takes them. -/
theorem mentions_sendingArgs {via : Transport} {f : RequestFunction}
    (hown : ∀ text ∈ e.callTexts, refersTo text "options" = false)
    (hf : e.requestOver ctx exported generic via = .ok f) :
    f.sendingArgs.any (·.mentions "options") = e.takesOptions via := by
  have hself : refersTo "options" "options" = true := by decide
  cases requestOver_eq_ok_iff.mp hf with
  | axiosFlat =>
    rw [sendingArgs_axiosFlat, mentions_axiosCallArgs isForeign_options hown, hself, Bool.and_true]
    rfl
  | axiosSingle =>
    rw [sendingArgs_axiosSingle, mentions_axiosCallArgs isForeign_options hown, hself,
      Bool.and_true]
    rfl
  | mutatorFlat hm =>
    rw [sendingArgs_mutatorFlat, List.any_cons, mentions_mutatorConfig isForeign_options hown,
      mentions_mutatorSecondArgument hown hm, hself, Bool.and_true, Bool.false_or]
  | mutatorSingle hm =>
    rw [sendingArgs_mutatorSingle, List.any_cons, mentions_mutatorConfig isForeign_options hown,
      Bool.false_or, ← isSome_mutatorOptionsParam ctx.output]
    cases e.operation.mutatorOptionsParam ctx.output with
    | none => rfl
    | some _ => rfl
  | fetch =>
    unfold fetchSender
    split
    · next mutator hm =>
      rw [sendingArgs_fetchMutatorFunction, List.any_cons, mentions_urlCall hown, List.any_cons,
        mentions_fetchInit hown, isSome_mutatorOptionsParam]
      simp [takesOptions, hm]
    · next hm =>
      rw [sendingArgs_fetchFunction, List.any_cons, mentions_urlCall hown, List.any_cons,
        mentions_fetchInit hown]
      simp [takesOptions, hm]

/-- If the word `options` stands in none of the texts that an operation brings into its call, its
function has a parameter of that name exactly if the arguments of the call refer to it. -/
theorem declares_options_iff {via : Transport} {f : RequestFunction}
    (hown : ∀ text ∈ e.callTexts, refersTo text "options" = false)
    (hf : e.requestOver ctx exported generic via = .ok f) :
    "options" ∈ f.params.flatMap Param.localNames ↔
      refersTo (Code.renderArgs f.sendingArgs) "options" = true := by
  rw [declares_options hf, Code.refersTo_renderArgs isForeign_options.plain,
    mentions_sendingArgs hown hf]

end Endpoint

/-- A deletion with a body, whose caller may give options or not. -/
def removePet (requestOptions : RequestOptions) : Endpoint where
  operation := {
    verb := .delete
    operationName := "removePet"
    body := { definition := "RemovePetBody", implementation := "removePetBody" }
    overrides := { requestOptions } }
  route := "/pets/${petId}"
  pathRoute := "/pets/{petId}"

/-- A deletion that carries its body in the config spreads the caller's options there if it takes
them, and does not refer to them if not. -/
theorem options_removePet :
    refersTo (Code.renderArgs ((removePet .forward).axiosFlat {} false true).sendingArgs)
        "options" = true ∧
      ¬ refersTo (Code.renderArgs ((removePet .drop).axiosFlat {} false true).sendingArgs)
        "options" = true := by
  constructor
  · have hf : (removePet .forward).requestOver {} false true .axios = .ok _ := rfl
    exact (Endpoint.declares_options_iff (by decide) hf).mp (by decide)
  · have hf : (removePet .drop).requestOver {} false true .axios = .ok _ := rfl
    exact mt (Endpoint.declares_options_iff (by decide) hf).mpr (by decide)

end RequestGen
