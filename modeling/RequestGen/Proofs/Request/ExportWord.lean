import RequestGen.Proofs.Code.FunctionReferences
import RequestGen.Proofs.Request.CallWords

/-! # The word `export` in a function

A function that is not exported on its own is written without the word `export`, unless a text of
the operation brings it in (`Endpoint.ownTexts`), or the function takes a single request: the types
of that request are declared after the function, and exported
(`refersTo_render_iff_singleRequest`). -/

namespace RequestGen

open Code (Expr)

theorem isForeign_export : IsForeign "export" := by decide

/-! ### The wrapped type of a body -/

theorem typeAfter?_eq_some {definition s rest : List Char}
    (h : typeAfter? definition s = some rest) :
    ∃ blanks, s = blanks ++ definition ++ rest ∧ (∀ c ∈ blanks, Text.isBlank c = true) ∧
      rest.head?.any Text.isNameChar = false := by
  have hexact {s : List Char} (h : (if definition.isPrefixOf s then
        let rest := s.drop definition.length
        if rest.head?.any Text.isNameChar then none else some rest
      else none) = some rest) :
      s = definition ++ rest ∧ rest.head?.any Text.isNameChar = false := by
    split at h
    · next hp =>
      obtain ⟨after, rfl⟩ := List.isPrefixOf_iff_prefix.mp hp
      simp only [List.drop_left] at h
      split at h
      · exact nomatch h
      · next hrest => exact Option.some.inj h ▸ ⟨rfl, Bool.eq_false_iff.mpr hrest⟩
    · exact nomatch h
  cases s with
  | nil => exact ⟨[], (hexact h).1, by simp, (hexact h).2⟩
  | cons c s =>
    unfold typeAfter? at h
    dsimp only at h
    split at h
    · next hc =>
      rcases Option.or_eq_some_iff.mp h with h | ⟨-, h⟩
      · exact ⟨[c], by rw [(hexact h).1]; rfl, by simpa using hc, (hexact h).2⟩
      · exact ⟨[], (hexact h).1, by simp, (hexact h).2⟩
    · exact ⟨[], (hexact h).1, by simp, (hexact h).2⟩

theorem wrapType_eq (definition wrapper s : List Char) :
    wrapType definition wrapper s = s ∨
      ∃ before blanks rest, s = before ++ ':' :: (blanks ++ definition ++ rest) ∧
        (∀ c ∈ blanks, Text.isBlank c = true) ∧ rest.head?.any Text.isNameChar = false ∧
        wrapType definition wrapper s =
          before ++ (':' :: ' ' :: wrapper ++ '<' :: definition ++ '>' :: rest) := by
  -- the first colon with the type after it is taken; what stands before it is carried along
  induction s with
  | nil => exact .inl rfl
  | cons c s ih =>
    unfold wrapType
    split
    · next rest h =>
      split at h
      · next hc =>
        obtain ⟨blanks, rfl, hblanks, hrest⟩ := typeAfter?_eq_some h
        exact .inr ⟨[], blanks, rest, by rw [hc]; rfl, hblanks, hrest, rfl⟩
      · exact nomatch h
    · rcases ih with h | ⟨before, blanks, rest, hs, hblanks, hrest, h⟩
      · exact .inl (by rw [h])
      · exact .inr ⟨c :: before, blanks, rest, by rw [hs]; rfl, hblanks, hrest, by rw [h]; rfl⟩

section

variable {name : String} (hn : IsPlainName name)

include hn

/-- A parameter list with a wrapped type refers to no more than the list, the type and the
wrapper. -/
theorem not_refersTo_wrapBodyType {list wrapper : String} {body : Body}
    (hlist : refersTo list name = false) (hwrapper : refersTo wrapper name = false)
    (hbody : refersTo body.definition name = false) :
    refersTo (wrapBodyType list body wrapper) name = false := by
  have hne : name.toList ≠ [] := fun h => hn.1 (String.toList_inj.mp h)
  have hcolon : Text.isNameChar ':' = false := by decide
  unfold refersTo at hlist hwrapper hbody ⊢
  rw [wrapBodyType, String.toList_ofList]
  rcases wrapType_eq body.definition.toList wrapper.toList list.toList with
    h | ⟨before, blanks, rest, hs, hblanks, hrest, h⟩
  · rwa [h]
  · rw [hs, refersFrom_append_cons hne hn.2 hcolon, List.append_assoc,
      refersFrom_margin hne hn.2 fun c hc => Text.isNameChar_of_isBlank (hblanks c hc),
      refersFrom_append hne hn.2 hrest, hbody, Bool.false_or, Bool.or_eq_false_iff] at hlist
    rw [h]
    simp only [List.append_assoc, List.cons_append]
    rw [refersFrom_append_cons hne hn.2 hcolon, hlist.1, refersFrom_cons hne hn.2 (by decide),
      refersFrom_append_cons hne hn.2 (by decide), hwrapper,
      refersFrom_append_cons hne hn.2 (by decide), hbody, hlist.2]
    rfl

end

/-! ### The pieces of a function -/

theorem Param.not_refersTo_options (isOptional : Bool) {type : String}
    (h : refersTo type "export" = false) :
    refersTo (Param.options isOptional type).render "export" = false := by
  cases isOptional with
  | true =>
    show refersTo ("options?: " ++ type) "export" = false
    rw [refersTo_append isForeign_export.plain (.inl (by decide)), h]; decide
  | false =>
    show refersTo ("options: " ++ type) "export" = false
    rw [refersTo_append isForeign_export.plain (.inl (by decide)), h]; decide

namespace RequestFunction

variable {f : RequestFunction}

theorem not_refersTo_render (hexported : f.exported = false)
    (hname : refersTo f.name "export" = false) (hgeneric : refersTo f.generic "export" = false)
    (hparams : ∀ p ∈ f.params, refersTo p.render "export" = false)
    (hreturn : ∀ type ∈ f.returnType, refersTo type "export" = false)
    (hstatements : ∀ s ∈ f.statements, refersTo s.render "export" = false)
    (hresult : f.result.mentions "export" = false) (hdeclarations : f.declarations = []) :
    refersTo f.render "export" = false := by
  have hparams : (f.params.map Param.render).any (refersTo · "export") = false := by
    rw [List.any_map, List.any_eq_false]
    intro p hp
    simp [hparams p hp]
  have hreturn : f.returnType.any (refersTo · "export") = false := by
    cases ht : f.returnType with
    | none => rfl
    | some type => exact hreturn type ht
  have hstatements : (f.statements.map Statement.render).any (refersTo · "export") = false := by
    rw [List.any_map, List.any_eq_false]
    intro s hs
    simp [hstatements s hs]
  rw [render, Code.FunctionText.refersTo_render isForeign_export.plain (by decide)]
  simp [Code.FunctionText.mentions, toText, hexported, hname, hgeneric, hparams, hreturn,
    hstatements, Expr.refersTo_render isForeign_export.plain, hresult, hdeclarations]

theorem refersTo_render_of_declares {d : String} (hd : d ∈ f.declarations)
    (h : refersTo d "export" = true) : refersTo f.render "export" = true := by
  rw [render, Code.FunctionText.refersTo_render isForeign_export.plain (by decide)]
  exact Bool.or_eq_true_iff.mpr (.inr (List.any_eq_true.mpr ⟨d, hd, h⟩))

end RequestFunction

namespace Endpoint

variable {ctx : Context} {e : Endpoint} {generic : Bool}

/-- The texts of an operation that its function may hold as they are. -/
def ownTexts (e : Endpoint) : List String :=
  let op := e.operation
  e.callTexts ++
    [op.operationName, op.response.success, op.body.definition, op.body.snippet .formData,
      op.body.snippet .formUrlEncoded] ++
    op.arguments.map (·.implementation) ++ op.mutators.map (·.name) ++
    (op.mutator.bind (·.bodyTypeName)).toList

section

variable (hown : ∀ text ∈ e.ownTexts, refersTo text "export" = false)

include hown

theorem not_refersTo_callTexts : ∀ text ∈ e.callTexts, refersTo text "export" = false :=
  fun text h => hown text (by simp [ownTexts, h])

theorem not_refersTo_operationName : refersTo e.operation.operationName "export" = false :=
  hown _ (by simp [ownTexts])

theorem not_refersTo_successType : refersTo e.operation.response.successType "export" = false := by
  unfold Response.successType orUnknown
  split
  · decide
  · exact hown _ (by simp [ownTexts])

theorem not_refersTo_axiosResponseType : refersTo e.axiosResponseType "export" = false := by
  show refersTo ("AxiosResponse<" ++ e.operation.response.successType ++ ">") "export" = false
  rw [refersTo_between isForeign_export.plain (by decide) (by decide),
    not_refersTo_successType hown]
  decide

theorem not_refersTo_argumentList : refersTo e.operation.argumentList "export" = false := by
  rw [Operation.argumentList, refersTo_commaListOfNonempty isForeign_export.plain, List.any_map,
    List.any_eq_false]
  intro a ha
  have h := hown a.implementation (by
    simp only [ownTexts, List.mem_append, List.mem_map]
    exact .inl (.inl (.inr ⟨a, ha, rfl⟩)))
  simp [h]

theorem not_refersTo_mutatorName {mutator : Mutator}
    (hm : mutator ∈ [e.operation.mutator, e.operation.formData, e.operation.formUrlEncoded,
      e.operation.serializer].filterMap id) : refersTo mutator.name "export" = false :=
  hown _ (by
    simp only [ownTexts, List.mem_append, List.mem_map]
    exact .inl (.inr ⟨mutator, hm, rfl⟩))

theorem not_refersTo_encodeStatements :
    ∀ s ∈ e.operation.encodeStatements false, refersTo s.render "export" = false := by
  have hbuilt (identifier builder : String)
      (hi : refersTo ("const " ++ identifier) "export" = false)
      (hb : refersTo builder "export" = false) :
      refersTo ("const " ++ identifier ++ " = " ++ builder ++ "(" ++
        e.operation.body.implementation ++ ");") "export" = false := by
    have hname := hown e.operation.body.implementation (by simp [ownTexts, callTexts])
    rw [refersTo_append_mark isForeign_export.plain (by decide),
      refersTo_append_mark_append isForeign_export.plain (by decide),
      refersTo_append_mark_append isForeign_export.plain (by decide), hi, hb, hname]
    rfl
  have hform : refersTo (e.operation.bodyForm false) "export" = false := by
    unfold Operation.bodyForm Body.encode
    simp only [Bool.false_and, Bool.false_eq_true, if_false]
    split
    · rfl
    · next encoding _ =>
      have hidentifier : refersTo ("const " ++ encoding.identifier) "export" = false := by
        cases encoding <;> decide
      have hsnippet : refersTo (e.operation.body.snippet encoding) "export" = false := by
        cases encoding <;> exact hown _ (by simp [ownTexts])
      split
      · next builder hb =>
        refine hbuilt _ _ hidentifier (not_refersTo_mutatorName hown ?_)
        cases encoding <;> simp [hb]
      · rwa [Body.rename, if_pos (.inr rfl)]
  intro s hs
  unfold Operation.encodeStatements at hs
  split at hs
  · simp at hs
  · rw [List.mem_singleton.mp hs]; exact hform

theorem not_refersTo_axiosFlat :
    refersTo (e.axiosFlat ctx false generic).render "export" = false := by
  have hplain := isForeign_export.plain
  have hresponse := not_refersTo_axiosResponseType hown
  refine RequestFunction.not_refersTo_render rfl (not_refersTo_operationName hown) ?generic ?params
    ?returnType (not_refersTo_encodeStatements hown) ?result rfl
  case generic =>
    show refersTo (if generic then "<TData = " ++ e.axiosResponseType ++ ">" else "") "export" =
      false
    split
    · rw [refersTo_between hplain (by decide) (by decide), hresponse]
      decide
    · decide
  case params =>
    intro p hp
    rcases List.mem_cons.mp hp with rfl | hp
    · exact not_refersTo_argumentList hown
    · have hp : p ∈ e.operation.axiosOptionsParam.toList := hp
      unfold Operation.axiosOptionsParam at hp
      split at hp
      · rw [List.mem_singleton.mp hp]; decide
      · simp at hp
  case returnType =>
    intro type htype
    have htype : some (if generic then "Promise<TData>" else
        "Promise<" ++ e.axiosResponseType ++ ">") = some type := htype
    rw [← Option.some.inj htype]
    split
    · decide
    · rw [refersTo_between hplain (by decide) (by decide), hresponse]
      decide
  case result =>
    have hclient (allowed : Bool) :
        refersTo (if allowed then "axios" else "axios.default") "export" = false := by
      cases allowed <;> decide
    have hverb (verb : Verb) : refersTo verb.name "export" = false := by
      cases verb <;> decide
    have hcallee (client : String) (hclient : refersTo client "export" = false) (verb : Verb) :
        refersTo (client ++ "." ++ verb.name) "export" = false := by
      rw [refersTo_append_mark_append hplain (by decide), hclient, hverb]
      rfl
    show (e.axiosCall ctx).mentions "export" = false
    rw [axiosCall, Expr.mentions_call,
      mentions_axiosCallArgs isForeign_export (not_refersTo_callTexts hown),
      (by decide : refersTo "options" "export" = false), Bool.and_false, Bool.or_false]
    exact hcallee _ (hclient _) _

theorem not_refersTo_mutatorFlat {mutator : Mutator} (hm : e.operation.mutator = some mutator) :
    refersTo (e.mutatorFlat ctx mutator false).render "export" = false := by
  have hplain := isForeign_export.plain
  have hmutator : refersTo mutator.name "export" = false :=
    not_refersTo_mutatorName hown (by simp [hm])
  refine RequestFunction.not_refersTo_render rfl (not_refersTo_operationName hown) rfl ?params
    nofun (not_refersTo_encodeStatements hown) ?result rfl
  case params =>
    intro p hp
    rcases List.mem_cons.mp hp with rfl | hp
    · show refersTo (e.mutatorArgumentList mutator) "export" = false
      have hlist := not_refersTo_argumentList hown
      unfold mutatorArgumentList
      dsimp only
      split
      · exact hlist
      · next wrapper hw =>
        split
        · exact not_refersTo_wrapBodyType hplain hlist
            (hown _ (by simp [ownTexts, hm, hw])) (hown _ (by simp [ownTexts]))
        · exact hlist
    · have hp : p ∈ (e.operation.mutatorOptionsParam ctx.output).toList := hp
      unfold Operation.mutatorOptionsParam at hp
      rw [hm] at hp
      dsimp only at hp
      split at hp
      · rw [List.mem_singleton.mp hp]
        refine Param.not_refersTo_options _ ?_
        show refersTo ("SecondParameter<typeof " ++ mutator.name ++ ">") "export" = false
        rw [refersTo_between hplain (by decide) (by decide), hmutator]
        decide
      · simp at hp
  case result =>
    show (e.mutatorCall ctx mutator (e.mutatorSecondArgument mutator)).mentions "export" = false
    have hcallee : refersTo (mutator.name ++ "<" ++ e.operation.response.successType ++ ">")
        "export" = false := by
      rw [refersTo_append_mark hplain (by decide), refersTo_append_mark_append hplain (by decide),
        hmutator, not_refersTo_successType hown]
      rfl
    rw [mutatorCall, Expr.mentions_call, List.any_cons,
      mentions_mutatorConfig isForeign_export (not_refersTo_callTexts hown),
      mentions_mutatorSecondArgument (not_refersTo_callTexts hown) hm,
      (by decide : refersTo "options" "export" = false), Bool.and_false, Bool.or_false,
      Bool.or_false]
    exact hcallee

end

theorem exists_declares_export (request : SingleRequest) :
    ∃ d ∈ request.declarations, refersTo d "export" = true := by
  have hplain := isForeign_export.plain
  have htype : refersTo request.typeDefinition "export" = true := by
    unfold SingleRequest.typeDefinition
    dsimp only
    generalize (if _ = "" then "Record<string, never>" else _) = members
    show refersTo ("export type " ++ request.typeName ++ " = " ++ members ++ ";") "export" = true
    rw [refersTo_append_mark hplain (by decide), refersTo_append_mark_append hplain (by decide),
      refersTo_append hplain (.inl (by decide)),
      (by decide : refersTo "export type " "export" = true)]
    rfl
  have hne : request.typeDefinition ≠ "" := fun h => by simp [h, refersTo_empty hplain] at htype
  exact ⟨_, List.mem_filter.mpr ⟨List.mem_cons_self, by simpa using hne⟩, htype⟩

/-- A function over axios or a mutator that is not exported holds the word `export` exactly if it
takes a single request. -/
theorem refersTo_render_iff_singleRequest {via : Transport} {f : RequestFunction}
    (hv : via ≠ .fetch) (hown : ∀ text ∈ e.ownTexts, refersTo text "export" = false)
    (hf : e.requestOver ctx false generic via = .ok f) :
    refersTo f.render "export" = true ↔ e.operation.overrides.singleRequest = true := by
  cases requestOver_eq_ok_iff.mp hf with
  | axiosFlat hs => simp [not_refersTo_axiosFlat hown, hs]
  | mutatorFlat hm hs => simp [not_refersTo_mutatorFlat hown hm, hs]
  | fetch => exact absurd rfl hv
  | axiosSingle hs =>
    obtain ⟨d, hd, h⟩ := exists_declares_export _
    refine iff_of_true (RequestFunction.refersTo_render_of_declares ?_ h) hs
    unfold axiosSingle
    dsimp only
    split <;> exact hd
  | mutatorSingle _ hs =>
    obtain ⟨d, hd, h⟩ := exists_declares_export _
    exact iff_of_true (RequestFunction.refersTo_render_of_declares hd h) hs

end Endpoint

end RequestGen
