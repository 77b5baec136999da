import RequestGen.Proofs.Request.CallWords
import RequestGen.Proofs.Request.RestFields
import RequestGen.Proofs.Request.TakenNames

/-! # Parameters gathered for a call

A function of a single request takes the query parameters and the headers out of the request and
gathers them again, as `params` and as `headers`, for its call. `Endpoint.gathers_parameters` says
that the two fit: what is gathered by shorthand has been taken out, nothing is lost, added or moved,
and a call holds one of the two constants only if it is declared. -/

namespace RequestGen

open Code (Expr Entry)

/-! ### The codes in a call -/

namespace Code

mutual

/-- The codes in an expression that may refer to names of its scope. Keys, members, quoted texts and
document values refer to none, and a function that writes a query refers to its own `params`. -/
def Expr.codes : Expr → List String
  | .name code => [code]
  | .optionalMember value _ => [value]
  | .quoted _ => []
  | .template text => [text]
  | .literal _ => []
  | .object _ entries => codesOfEntries entries
  | .whenSet held => [held]
  | .queryWriter _ => ["qs"]
  | .call callee args => callee :: codesOfAll args

def Entry.codes : Entry → List String
  | .shorthand held => [held]
  | .property _ value => value.codes
  | .spread value => value.codes

def codesOfAll : List Expr → List String
  | [] => []
  | e :: es => e.codes ++ codesOfAll es

def codesOfEntries : List Entry → List String
  | [] => []
  | e :: es => e.codes ++ codesOfEntries es

end

@[simp] theorem Expr.codes_object (layout : Layout) (entries : List Entry) :
    (Expr.object layout entries).codes = entries.flatMap Entry.codes := by
  show codesOfEntries entries = _
  induction entries with
  | nil => rfl
  | cons e es ih => rw [codesOfEntries, ih, List.flatMap_cons]

end Code

theorem AxiosConfig.codes_args (config : AxiosConfig) :
    config.args.flatMap Expr.codes = config.spreadEntries.flatMap Entry.codes := by
  cases config with
  | absent => rfl
  | forwarded => rfl
  | object entries => simp [args, spreadEntries]

namespace Endpoint

/-- The texts of an operation that stand in its call as code. -/
def ownCodes (e : Endpoint) : List String :=
  [e.route, e.operation.body.implementation] ++ (e.operation.serializer.map (·.name)).toList

/-- The words of every call that stand in it as code, but for `params` and `headers`. -/
def codeWords : List String :=
  ["data", "formData", "formUrlEncoded", "undefined", "options", "signal", "qs"]

/-- A code that may stand in a call of the operation: `params` and `headers` only if there is
something to gather in them. -/
inductive CallCode (e : Endpoint) : String → Prop where
  | own {code : String} (h : code ∈ e.ownCodes) : CallCode e code
  | word {code : String} (h : code ∈ codeWords) : CallCode e code
  | params (h : e.operation.queryParams.isSome = true) : CallCode e "params"
  | headers (h : e.operation.headers.isSome = true) : CallCode e "headers"

section

variable {ctx : Context} {e : Endpoint}

theorem callCode_entryIf {condition : Bool} {entry : Entry}
    (h : condition = true → ∀ code ∈ entry.codes, e.CallCode code) :
    ∀ x ∈ entryIf condition entry, ∀ code ∈ x.codes, e.CallCode code := by
  cases condition with
  | false => exact List.forall_mem_nil _
  | true => exact List.forall_mem_singleton.mpr (h rfl)

theorem callCode_single {held : String} (h : e.CallCode held) :
    ∀ code ∈ [held], e.CallCode code :=
  List.forall_mem_singleton.mpr h

theorem callCode_merged {name : String} (h : e.CallCode name) :
    ∀ code ∈ (ConfigInput.merged name).codes, e.CallCode code := by
  have hcodes : (ConfigInput.merged name).codes = [name, "options"] := rfl
  rw [hcodes]
  exact List.forall_mem_cons.mpr ⟨h, List.forall_mem_singleton.mpr (.word (by decide))⟩

/-! ### The config of an axios call -/

theorem callCode_ownEntries :
    ∀ x ∈ (e.configInput ctx).ownEntries, ∀ code ∈ x.codes, e.CallCode code := by
  unfold ConfigInput.ownEntries
  split
  · exact List.forall_mem_nil _
  · rw [List.forall_mem_append, List.forall_mem_append]
    exact ⟨⟨callCode_entryIf fun h => callCode_single (.params h),
      callCode_entryIf fun h => callCode_single (.headers h)⟩,
      callCode_entryIf fun h => absurd h Bool.false_ne_true⟩

theorem codes_responseTypeEntries {c : ConfigInput} :
    ∀ x ∈ c.responseTypeEntries, x.codes = [] := by
  unfold ConfigInput.responseTypeEntries
  split_ifs <;> simp [Entry.codes, Expr.codes]

theorem codes_literals {fields : Json.Fields} : ∀ x ∈ Entry.literals fields, x.codes = [] := by
  intro x hx
  obtain ⟨field, -, rfl⟩ := List.mem_map.mp hx
  rfl

theorem callCode_callerEntries :
    ∀ x ∈ (e.configInput ctx).callerEntries, ∀ code ∈ x.codes, e.CallCode code := by
  unfold ConfigInput.callerEntries
  split
  · rw [List.cons_append, List.forall_mem_cons, List.forall_mem_append]
    exact ⟨List.forall_mem_singleton.mpr (.word (by decide)),
      callCode_entryIf fun h => callCode_merged (.params h),
      callCode_entryIf fun h => callCode_merged (.headers h)⟩
  · exact List.forall_mem_nil _

theorem callCode_serializerEntries :
    ∀ x ∈ (e.configInput ctx).serializerEntries, ∀ code ∈ x.codes, e.CallCode code := by
  unfold ConfigInput.serializerEntries
  split
  · split
    · next serializer hs =>
      have hs : e.operation.serializer = some serializer := hs
      refine List.forall_mem_singleton.mpr (callCode_single (.own ?_))
      simp [ownCodes, hs]
    · split
      · split
        · exact List.forall_mem_singleton.mpr (callCode_single (.word (by decide)))
        · exact List.forall_mem_nil _
      · exact List.forall_mem_nil _
  · exact List.forall_mem_nil _

theorem callCode_spreadEntries :
    ∀ x ∈ (e.configInput ctx).config.spreadEntries, ∀ code ∈ x.codes, e.CallCode code := by
  rw [ConfigInput.spreadEntries_config]
  split_ifs
  · simp only [ConfigInput.entries, List.forall_mem_append]
    refine ⟨⟨⟨⟨callCode_ownEntries, fun x hx => ?_⟩, fun x hx => ?_⟩, callCode_callerEntries⟩,
      callCode_serializerEntries⟩
    · rw [codes_responseTypeEntries x hx]
      exact List.forall_mem_nil _
    · rw [codes_literals x hx]
      exact List.forall_mem_nil _
  · exact List.forall_mem_singleton.mpr (callCode_single (.word (by decide)))
  · -- a call over axios is given no signal of its own
    exact callCode_entryIf fun h => absurd h Bool.false_ne_true

theorem callCode_config :
    ∀ code ∈ ((e.configInput ctx).config.args).flatMap Expr.codes, e.CallCode code := by
  rw [AxiosConfig.codes_args]
  exact List.forall_mem_flatMap.mpr callCode_spreadEntries

/-! ### The arguments of a call -/

theorem callCode_payload : e.CallCode (e.operation.callBody.payload e.operation.forms) := by
  rcases e.operation.callBody.payload_eq e.operation.forms with h | h | h <;> rw [h]
  · exact .word (by decide)
  · exact .word (by decide)
  · unfold Operation.callBody
    split
    · exact (.word (by decide) : e.CallCode "data")
    · exact .own (by simp [ownCodes])

theorem callCode_route : e.CallCode e.route := .own (by simp [ownCodes])

theorem callCode_axiosCallArgs :
    ∀ code ∈ (e.axiosCallArgs ctx).flatMap Expr.codes, e.CallCode code := by
  have hroute : ∀ code ∈ (Expr.template e.route).codes, e.CallCode code :=
    List.forall_mem_singleton.mpr callCode_route
  have hpayload : (if carriesBody e.operation.verb.name then
      e.operation.callBody.payload e.operation.forms else "") ≠ "" →
      e.CallCode (if carriesBody e.operation.verb.name then
        e.operation.callBody.payload e.operation.forms else "") := by
    split
    · exact fun _ => callCode_payload
    · exact fun h => absurd rfl h
  unfold axiosCallArgs axiosArgs
  generalize (if carriesBody e.operation.verb.name then
    e.operation.callBody.payload e.operation.forms else "") = payload at hpayload
  dsimp only
  split_ifs with hdelete hempty hcarries hempty <;>
    rw [List.flatMap_cons, List.forall_mem_append] <;> refine ⟨hroute, ?_⟩
  · exact callCode_config
  · -- the body stands before the entries of the config
    rw [List.flatMap_singleton, Expr.codes_object, List.flatMap_cons, List.forall_mem_append]
    exact ⟨List.forall_mem_singleton.mpr (hpayload hempty),
      List.forall_mem_flatMap.mpr callCode_spreadEntries⟩
  · rw [List.flatMap_cons, List.forall_mem_append]
    exact ⟨List.forall_mem_singleton.mpr (.word (by decide)), callCode_config⟩
  · rw [List.flatMap_cons, List.forall_mem_append]
    exact ⟨List.forall_mem_singleton.mpr (hpayload hempty), callCode_config⟩
  · exact callCode_config

theorem callCode_mutatorConfig : ∀ code ∈ (e.mutatorConfig ctx).codes, e.CallCode code := by
  have hquoted (text : String) : ∀ code ∈ (Expr.quoted text).codes, e.CallCode code :=
    List.forall_mem_nil _
  have hheaders :
      ∀ x ∈ (e.mutatorInput ctx).headerEntries, ∀ code ∈ x.codes, e.CallCode code := by
    unfold MutatorInput.headerEntries
    split
    · refine List.forall_mem_singleton.mpr ?_
      rw [Entry.codes, Expr.codes_object, List.flatMap_cons, List.forall_mem_append,
        List.forall_mem_flatMap]
      exact ⟨hquoted (e.mutatorInput ctx).body.contentType,
        callCode_entryIf fun h => callCode_single (.headers h)⟩
    · exact callCode_entryIf fun h => callCode_single (.headers h)
  have hdata : ∀ x ∈ (e.mutatorInput ctx).dataEntries, ∀ code ∈ x.codes, e.CallCode code := by
    unfold MutatorInput.dataEntries
    split
    · exact List.forall_mem_singleton.mpr (callCode_single callCode_payload)
    · exact List.forall_mem_nil _
  have hquery : ∀ x ∈ queryEntries e.operation.response e.operation.queryParams,
      ∀ code ∈ x.codes, e.CallCode code := by
    rw [queryEntries, List.forall_mem_append]
    exact ⟨callCode_entryIf fun h => callCode_single (.params h),
      callCode_entryIf fun _ => hquoted "blob"⟩
  have hplace : ∀ x ∈ [Entry.property "url" (.template e.route),
      .property "method" (.quoted (Text.upperCase e.operation.verb.name))],
      ∀ code ∈ x.codes, e.CallCode code :=
    List.forall_mem_cons.mpr ⟨List.forall_mem_singleton.mpr callCode_route,
      List.forall_mem_singleton.mpr (hquoted (Text.upperCase e.operation.verb.name))⟩
  rw [mutatorConfig, MutatorInput.config, Expr.codes_object]
  simp only [List.forall_mem_flatMap, List.forall_mem_append]
  exact ⟨⟨⟨⟨hplace, hheaders⟩, hdata⟩, hquery⟩, List.forall_mem_nil _⟩

end

/-! ### What is taken, gathered and sent -/

/-- How an object literal reads a field of the request. -/
inductive ReadsField (name : String) : String → Prop where
  | shorthand (h : Naming.isIdentifier name = true) : ReadsField name name
  | bracket (h : Naming.isIdentifier name = false) :
      ReadsField name ("'" ++ name ++ "': " ++ "request" ++ "['" ++ name ++ "']")

/-- What a function of a single request does with the names of its operation's parameters. -/
structure Gathers (e : Endpoint) (names : NameTexts) (f : RequestFunction) : Prop where
  listed : ListsFirst Naming.isIdentifier (e.parameterNames names)
    (SingleRequest.build e names).destructureNames
  taken : f.takenNames =
    if f.takesRequest then (SingleRequest.build e names).destructureNames else []
  gathered : f.gathered =
    (if e.operation.queryParams.isSome then [("params", names.query)] else []) ++
      if e.operation.headers.isSome then [("headers", names.header)] else []
  written : ∀ g ∈ f.gathered, ∃ entries, List.Forall₂ ReadsField g.2 entries ∧
    "const " ++ g.1 ++ " = \x7b " ++ Text.commaList entries ++ " \x7d;" ∈ f.toText.statements
  shorthand : ∀ g ∈ f.gathered, ∀ name ∈ g.2, Naming.isIdentifier name = true →
    name ∈ f.takenNames
  declared : ∀ code ∈ f.sendingArgs.flatMap Expr.codes, ∀ constant ∈ ["params", "headers"],
    refersTo code constant = true → constant ∈ f.gathered.map (·.1) ∨ code ∈ e.ownCodes

theorem forall₂_readsField (names : List String) :
    List.Forall₂ ReadsField names (names.map (objectEntry "request")) := by
  induction names with
  | nil => exact .nil
  | cons name names ih =>
    refine .cons ?_ ih
    unfold objectEntry
    split
    · next h => exact .shorthand h
    · next h => exact .bracket (Bool.eq_false_iff.mpr h)

theorem exists_entries_of_mem_gathered {f : RequestFunction} {constant : String}
    {names : List String} (h : (constant, names) ∈ f.gathered) :
    ∃ entries, List.Forall₂ ReadsField names entries ∧
      "const " ++ constant ++ " = \x7b " ++ Text.commaList entries ++ " \x7d;" ∈
        f.toText.statements := by
  refine ⟨_, forall₂_readsField names, ?_⟩
  obtain ⟨statement, hstatement, hgathered⟩ := List.mem_filterMap.mp h
  cases statement with
  | gather constant' names' =>
    obtain ⟨rfl, rfl⟩ := Prod.mk.inj (Option.some.inj hgathered)
    exact List.mem_map_of_mem hstatement
  | _ => exact nomatch hgathered

variable {ctx : Context} {e : Endpoint} {exported generic : Bool} {via : Transport}
  {f : RequestFunction}

theorem callCode_sendingArgs (hv : via ≠ .fetch)
    (hs : e.operation.overrides.singleRequest = true)
    (hf : e.requestOver ctx exported generic via = .ok f) :
    ∀ code ∈ f.sendingArgs.flatMap Expr.codes, e.CallCode code := by
  cases requestOver_eq_ok_iff.mp hf with
  | axiosFlat h | mutatorFlat _ h => exact absurd (hs.symm.trans h) (by decide)
  | fetch => exact absurd rfl hv
  | axiosSingle => rw [sendingArgs_axiosSingle]; exact callCode_axiosCallArgs
  | mutatorSingle =>
    rw [sendingArgs_mutatorSingle, List.flatMap_cons, List.forall_mem_append]
    refine ⟨callCode_mutatorConfig, ?_⟩
    cases e.operation.mutatorOptionsParam ctx.output with
    | none => exact List.forall_mem_nil _
    | some _ => exact callCode_single (.word (by decide))

theorem mem_gathered_of_refersTo {names : NameTexts} {code : String}
    (hgathered : f.gathered =
      (if e.operation.queryParams.isSome then [("params", names.query)] else []) ++
        if e.operation.headers.isSome then [("headers", names.header)] else [])
    (hcode : e.CallCode code) {constant : String} (hconstant : constant ∈ ["params", "headers"])
    (hrefers : refersTo code constant = true) :
    constant ∈ f.gathered.map (·.1) ∨ code ∈ e.ownCodes := by
  have hwords : ∀ word ∈ codeWords, ∀ constant ∈ ["params", "headers"],
      refersTo word constant = false := by decide
  have hconstants : ∀ word ∈ ["params", "headers"], ∀ constant ∈ ["params", "headers"],
      refersTo word constant = true → word = constant := by decide
  cases hcode with
  | own h => exact .inr h
  | word h => exact nomatch (hwords _ h _ hconstant).symm.trans hrefers
  | params h =>
    obtain rfl := hconstants "params" (by decide) _ hconstant hrefers
    rw [hgathered, h]
    exact .inl (by simp)
  | headers h =>
    obtain rfl := hconstants "headers" (by decide) _ hconstant hrefers
    rw [hgathered, h]
    exact .inl (by simp)

/-- Over axios and over a mutator, a function of a single request gathers the query parameters and
the headers of its operation from what it takes out of the request, in the order of the document. -/
theorem gathers_parameters (hv : via ≠ .fetch)
    (hs : e.operation.overrides.singleRequest = true)
    (hf : e.requestOver ctx exported generic via = .ok f) :
    ∃ names, ParameterNames.read ctx e = .ok names ∧ e.Gathers names f := by
  obtain ⟨names, hn, htakes, htaken, hgathered⟩ := taken_of_requestOver hv hs hf
  have hlisted := SingleRequest.listsFirst_destructureNames e names
  refine ⟨names, hn, hlisted, htaken, hgathered, fun g hg => exists_entries_of_mem_gathered hg, ?_,
    fun code hcode constant hconstant hrefers => mem_gathered_of_refersTo hgathered
      (callCode_sendingArgs hv hs hf code hcode) hconstant hrefers⟩
  intro g hg name hname hid
  -- where anything is gathered the request has a member, so that the function takes it
  have hmember : e.HasMember ∧ name ∈ e.parameterNames names := by
    rw [hgathered, List.mem_append] at hg
    unfold HasMember parameterNames
    rcases hg with hg | hg
    · split at hg
      · next hquery =>
        rw [List.mem_singleton.mp hg] at hname
        exact ⟨.inr (.inl hquery), by simp [hname]⟩
      · exact absurd hg List.not_mem_nil
    · split at hg
      · next hheaders =>
        rw [List.mem_singleton.mp hg] at hname
        exact ⟨.inr (.inr (.inl hheaders)), by simp [hname]⟩
      · exact absurd hg List.not_mem_nil
  rw [htaken, htakes.mpr fun _ => hmember.1, if_pos rfl]
  exact (hlisted.mem_iff name).mpr ⟨hmember.2, hid⟩

end Endpoint

/-- A header that is not called by an identifier is read from the request where it is gathered. -/
theorem xRequestId_gathered_createPets :
    ∃ f, createPetsOfRequest.requestOver (contextWithHeader "X-Request-Id") false true .axios =
        .ok f ∧
      f.takenNames = [] ∧ f.gathered = [("headers", ["X-Request-Id"])] ∧
      "const headers = \x7b 'X-Request-Id': request['X-Request-Id'] \x7d;" ∈
        f.toText.statements := by
  have hread := read_contextWithHeader "X-Request-Id" (by decide)
  have hf : createPetsOfRequest.requestOver (contextWithHeader "X-Request-Id") false true .axios =
      .ok _ := (Endpoint.Sender.axiosSingle rfl hread).requestOver_eq
  obtain ⟨names, hnames, h⟩ := Endpoint.gathers_parameters (by decide) rfl hf
  obtain rfl : _ = names := Except.ok.inj (hread.symm.trans hnames)
  have hnone : (SingleRequest.build createPetsOfRequest
      { query := [], header := ["X-Request-Id"], path := [] }).destructureNames = [] := by
    decide +kernel
  obtain ⟨entries, hentries, hwritten⟩ := h.written ("headers", ["X-Request-Id"]) (by
    rw [h.gathered]
    exact List.mem_singleton_self _)
  refine ⟨_, hf, h.taken.trans (by rw [hnone, ite_self]), h.gathered, ?_⟩
  cases hentries with
  | cons hfield hrest =>
    cases hrest
    cases hfield with
    | shorthand hid => exact nomatch hid
    | bracket => exact hwritten

end RequestGen
