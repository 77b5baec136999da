import RequestGen.Proofs.Request.Senders

/-! # Switching the calling convention

An operation may take its arguments as a list or as a single request. `call_taking_single` says that
over axios and over a mutator this is all that the switch changes: the function differs in its
parameters and in the statements and declarations that go with them, and the call that it returns is
the same, but for the name of a body that is sent as it is (`SameButBody`). A body gets into a call
only through its payload, so both transports follow from what the switch does to that
(`payload_taking_true`, `payload_taking_of_not_sendsPlainBody`). -/

namespace RequestGen

open Code (Expr Entry Layout)

/-- The second call is the first with `new` for `old` as the body: the second argument, or the
property `data` of an argument. -/
inductive SameButBody (old new : String) : Expr → Expr → Prop where
  | argument (callee : String) (route : Expr) (rest : List Expr) :
      SameButBody old new (.call callee (route :: .name old :: rest))
        (.call callee (route :: .name new :: rest))
  | property (callee : String) (front rest : List Expr) (layout : Layout)
      (before after : List Entry) :
      SameButBody old new
        (.call callee
          (front ++ .object layout (before ++ .property "data" (.name old) :: after) :: rest))
        (.call callee
          (front ++ .object layout (before ++ .property "data" (.name new) :: after) :: rest))

/-- Two functions that differ at most in how their arguments come in and in what they return. -/
structure SameButArguments (f g : RequestFunction) : Prop where
  name : g.name = f.name
  exported : g.exported = f.exported
  isAsync : g.isAsync = f.isAsync
  generic : g.generic = f.generic
  returnType : g.returnType = f.returnType
  options : (g.params.filter fun | .options .. => true | _ => false) =
    f.params.filter fun | .options .. => true | _ => false

namespace Operation

variable {op : Operation}

/-- The operation with a single request, or with a list of arguments. -/
def taking (op : Operation) (single : Bool) : Operation :=
  { op with overrides := { op.overrides with singleRequest := single } }

/-- Whether a call of the operation carries a body that is not encoded. -/
def sendsPlainBody (op : Operation) : Bool :=
  carriesBody op.verb.name && !op.usesForm && op.body.definition ≠ ""

theorem carriesBody_of_sendsPlainBody (h : op.sendsPlainBody = true) :
    carriesBody op.verb.name = true := by
  simp only [sendsPlainBody, Bool.and_eq_true] at h
  exact h.1.1

theorem callBody_taking_false : (op.taking false).callBody = op.body := by
  simp [callBody, taking]

theorem callBody_taking_true (h : op.body.definition ≠ "") :
    (op.taking true).callBody = { op.body with implementation := "data" } := by
  simp [callBody, taking, h]

theorem payload_of_usesForm (h : op.usesForm = true) (name : String) :
    ({ op.body with implementation := name }).payload op.forms = op.body.payload op.forms := by
  obtain ⟨encoding, he⟩ := Option.isSome_iff_exists.mp h
  have he' : ({ op.body with implementation := name }).encoding? op.forms = some encoding := he
  simp only [Body.payload, he, he']

theorem payload_of_not_usesForm (h : op.usesForm = false) (name : String) :
    ({ op.body with implementation := name }).payload op.forms = name := by
  have he : ({ op.body with implementation := name }).encoding? op.forms = none :=
    Option.isSome_eq_false_iff.mp h |> Option.isNone_iff_eq_none.mp
  simp only [Body.payload, he]

/-- A body that is sent as it is has its own name in a list of arguments. -/
theorem payload_taking_false (h : op.sendsPlainBody = true) :
    (op.taking false).callBody.payload op.forms = op.body.implementation := by
  simp only [sendsPlainBody, Bool.and_eq_true, Bool.not_eq_true'] at h
  rw [callBody_taking_false]
  exact payload_of_not_usesForm h.1.2 op.body.implementation

/-- A body that is sent as it is consists of the fields left in `data` in a single request. -/
theorem payload_taking_true (h : op.sendsPlainBody = true) :
    (op.taking true).callBody.payload op.forms = "data" := by
  simp only [sendsPlainBody, Bool.and_eq_true, Bool.not_eq_true', decide_eq_true_eq] at h
  rw [callBody_taking_true h.2]
  exact payload_of_not_usesForm h.1.2 "data"

/-- Any other payload is the same under both conventions. -/
theorem payload_taking_of_not_sendsPlainBody (h : op.sendsPlainBody = false)
    (hc : carriesBody op.verb.name = true) :
    (op.taking true).callBody.payload op.forms = (op.taking false).callBody.payload op.forms := by
  rw [callBody_taking_false]
  by_cases hd : op.body.definition = ""
  · simp [callBody, taking, hd]
  · have hf : op.usesForm = true := by
      simpa [sendsPlainBody, hc, hd] using h
    rw [callBody_taking_true hd, payload_of_usesForm hf]

theorem implementation_ne_empty (hb : op.body.definition = "" ↔ op.body.implementation = "")
    (h : op.sendsPlainBody = true) : op.body.implementation ≠ "" := by
  simp only [sendsPlainBody, Bool.and_eq_true, decide_eq_true_eq] at h
  exact fun hi => h.2 (hb.mpr hi)

end Operation

/-! ### The body in a call -/

section Calls

variable {route method old new : String} {body body' : Body} {forms : FormSupport}

theorem axiosArgs_congr {input : ConfigInput}
    (h : carriesBody method = true → body'.payload forms = body.payload forms) :
    axiosArgs route method body' forms input = axiosArgs route method body forms input := by
  unfold axiosArgs
  by_cases hc : carriesBody method = true
  · simp only [h hc]
  · simp only [hc, Bool.false_eq_true, if_false]

theorem axiosArgs_sameButBody {input : ConfigInput} (hc : carriesBody method = true)
    (hold : body.payload forms = old) (hnew : body'.payload forms = new) (ho : old ≠ "")
    (hn : new ≠ "") (callee : String) :
    SameButBody old new (.call callee (axiosArgs route method body forms input))
      (.call callee (axiosArgs route method body' forms input)) := by
  unfold axiosArgs
  simp only [hc, if_true, hold, hnew, ho, hn, if_false]
  split
  · exact .property callee [.template route] [] .tight [] input.config.spreadEntries
  · exact .argument callee (.template route) input.config.args

theorem MutatorInput.headerEntries_congr {m : MutatorInput}
    (ht : body'.contentType = m.body.contentType) :
    ({ m with body := body' }).headerEntries = m.headerEntries := by
  unfold headerEntries
  simp only [ht]

theorem MutatorInput.config_congr {m : MutatorInput} (ht : body'.contentType = m.body.contentType)
    (h : carriesBody m.method = true → body'.payload m.forms = m.body.payload m.forms) :
    ({ m with body := body' }).config = m.config := by
  have hdata : ({ m with body := body' }).dataEntries = m.dataEntries := by
    unfold dataEntries
    by_cases hc : carriesBody m.method = true
    · simp only [h hc]
    · simp only [hc, Bool.false_and, Bool.false_eq_true, if_false]
  unfold config
  rw [hdata, headerEntries_congr ht]

theorem MutatorInput.config_sameButBody {m : MutatorInput}
    (ht : body'.contentType = m.body.contentType) (hc : carriesBody m.method = true)
    (hold : m.body.payload m.forms = old) (hnew : body'.payload m.forms = new) (ho : old ≠ "")
    (hn : new ≠ "") (callee : String) (rest : List Expr) :
    SameButBody old new (.call callee (m.config :: rest))
      (.call callee (({ m with body := body' }).config :: rest)) := by
  have hdata : m.dataEntries = [.property "data" (.name old)] := by
    simp [dataEntries, hc, hold, ho]
  have hdata' : ({ m with body := body' }).dataEntries = [.property "data" (.name new)] := by
    simp [dataEntries, hc, hnew, hn]
  have hcalls : SameButBody old new _ _ := .property callee [] rest .tight
    ([.property "url" (.template m.route),
      .property "method" (.quoted (Text.upperCase m.method))] ++ m.headerEntries)
    (queryEntries m.response m.queryParams ++ entryIf m.hasSignal (signalEntry m.exactOptional))
  unfold config
  rw [hdata, hdata', headerEntries_congr ht]
  simpa only [List.append_assoc, List.cons_append, List.nil_append] using hcalls

end Calls

namespace Endpoint

variable {ctx : Context} {e : Endpoint} {exported generic : Bool}

/-- The endpoint with its operation taking a single request, or a list of arguments. -/
def taking (e : Endpoint) (single : Bool) : Endpoint :=
  { e with operation := e.operation.taking single }

/-- Whether two calls of an operation under the two conventions agree as they should: they differ in
the name of a body that is sent as it is, and in nothing else. -/
def CallsAgree (e : Endpoint) (flat single : Expr) : Prop :=
  if e.operation.sendsPlainBody then
    SameButBody e.operation.body.implementation "data" flat single
  else single = flat

theorem callsAgree_axiosCall
    (hb : e.operation.body.definition = "" ↔ e.operation.body.implementation = "") :
    e.CallsAgree ((e.taking false).axiosCall ctx) ((e.taking true).axiosCall ctx) := by
  unfold CallsAgree
  split
  · next h =>
    have hc := Operation.carriesBody_of_sendsPlainBody h
    exact axiosArgs_sameButBody hc (Operation.payload_taking_false h)
      (Operation.payload_taking_true h) (Operation.implementation_ne_empty hb h) (by decide) _
  · next h =>
    have hp := Operation.payload_taking_of_not_sendsPlainBody (Bool.eq_false_iff.mpr h)
    exact congrArg (Expr.call _) (axiosArgs_congr hp)

theorem callsAgree_mutatorCall (mutator : Mutator) (options : Option Expr)
    (hb : e.operation.body.definition = "" ↔ e.operation.body.implementation = "") :
    e.CallsAgree ((e.taking false).mutatorCall ctx mutator options)
      ((e.taking true).mutatorCall ctx mutator options) := by
  have ht : (e.taking true).operation.callBody.contentType =
      (e.taking false).operation.callBody.contentType := by
    unfold Operation.callBody
    split <;> split <;> rfl
  unfold CallsAgree
  split
  · next h =>
    have hc := Operation.carriesBody_of_sendsPlainBody h
    exact MutatorInput.config_sameButBody (m := (e.taking false).mutatorInput ctx) ht hc
      (Operation.payload_taking_false h) (Operation.payload_taking_true h)
      (Operation.implementation_ne_empty hb h) (by decide) _ options.toList
  · next h =>
    have hp := Operation.payload_taking_of_not_sendsPlainBody (Bool.eq_false_iff.mpr h)
    have hconfig : (e.taking true).mutatorConfig ctx = (e.taking false).mutatorConfig ctx :=
      MutatorInput.config_congr (m := (e.taking false).mutatorInput ctx) ht hp
    show Expr.call _ _ = Expr.call _ _
    rw [hconfig]
    rfl

theorem mutatorSecondArgument_eq {mutator : Mutator} (hm : e.operation.mutator = some mutator)
    (ho : ∀ fields, e.operation.overrides.requestOptions ≠ .literal fields) :
    e.mutatorSecondArgument mutator =
      (e.operation.mutatorOptionsParam ctx.output).map fun _ => .name "options" := by
  unfold mutatorSecondArgument Operation.mutatorOptionsParam
  simp only [hm]
  cases hr : e.operation.overrides.requestOptions with
  | literal fields => exact absurd hr (ho fields)
  | drop => rfl
  | forward => cases h2 : mutator.hasSecondArg <;> simp [mutatorOptions, RequestOptions.isTaken]

theorem sameButArguments_axios (request : SingleRequest) :
    SameButArguments ((e.taking false).axiosFlat ctx exported generic)
      ((e.taking true).axiosSingle ctx exported generic request) := by
  unfold axiosSingle
  dsimp only
  split <;> exact ⟨rfl, rfl, rfl, rfl, rfl, rfl⟩

/-- Over axios and over a mutator, an operation whose options are not literal gives the same
function under both conventions but for the way the arguments come in. The function of a single
request needs the parameter names of the document and fails as reading them does. -/
theorem call_taking_single (ctx : Context) (e : Endpoint) (exported generic : Bool)
    {via : Transport}
    (hv : via = .axios ∨ via = .mutator ∧ e.operation.mutator.isSome = true)
    (ho : ∀ fields, e.operation.overrides.requestOptions ≠ .literal fields)
    (hb : e.operation.body.definition = "" ↔ e.operation.body.implementation = "") :
    ∃ flat, (e.taking false).requestOver ctx exported generic via = .ok flat ∧
      match ParameterNames.read ctx e with
      | .error fault => (e.taking true).requestOver ctx exported generic via = .error fault
      | .ok _ => ∃ single, (e.taking true).requestOver ctx exported generic via = .ok single ∧
          SameButArguments flat single ∧ e.CallsAgree flat.result single.result := by
  cases hn : ParameterNames.read ctx e with
  | error fault =>
    have herror : (e.taking true).requestOver ctx exported generic via = .error fault :=
      requestOver_eq_error hv rfl hn
    rcases hv with rfl | ⟨rfl, hm⟩
    · exact ⟨_, (Sender.axiosFlat (e := e.taking false) rfl).requestOver_eq, herror⟩
    · obtain ⟨mutator, hm⟩ := Option.isSome_iff_exists.mp hm
      exact ⟨_, (Sender.mutatorFlat (e := e.taking false) hm rfl).requestOver_eq, herror⟩
  | ok names =>
    rcases hv with rfl | ⟨rfl, hm⟩
    · refine ⟨_, (Sender.axiosFlat (e := e.taking false) rfl).requestOver_eq, _,
        (Sender.axiosSingle (e := e.taking true) rfl hn).requestOver_eq,
        sameButArguments_axios _, ?_⟩
      rw [result_axiosSingle]
      exact callsAgree_axiosCall hb
    · obtain ⟨mutator, hm⟩ := Option.isSome_iff_exists.mp hm
      refine ⟨_, (Sender.mutatorFlat (e := e.taking false) hm rfl).requestOver_eq, _,
        (Sender.mutatorSingle (e := e.taking true) hm rfl hn).requestOver_eq,
        ⟨rfl, rfl, rfl, rfl, rfl, rfl⟩, ?_⟩
      show e.CallsAgree ((e.taking false).mutatorCall ctx mutator (e.mutatorSecondArgument mutator))
        ((e.taking true).mutatorCall ctx mutator
          ((e.operation.mutatorOptionsParam ctx.output).map fun _ => .name "options"))
      rw [← mutatorSecondArgument_eq hm ho]
      exact callsAgree_mutatorCall mutator _ hb

end Endpoint

/-- An operation with a body that is handed over to a mutator. -/
def updatePet : Endpoint where
  operation := {
    verb := .put
    operationName := "updatePet"
    body := { definition := "UpdatePetBody", implementation := "updatePetBody" }
    mutator := some { name := "customInstance", hasSecondArg := true } }
  route := "/pets/${petId}"
  pathRoute := "/pets/{petId}"

/-- A body that is sent as it is changes its name, and nothing else in the call changes. -/
theorem call_updatePet :
    ∃ flat single, (updatePet.taking false).requestOver {} true true .mutator = .ok flat ∧
      (updatePet.taking true).requestOver {} true true .mutator = .ok single ∧
      SameButArguments flat single ∧
      SameButBody "updatePetBody" "data" flat.result single.result := by
  have hread : ParameterNames.read {} updatePet =
      .ok { query := [], header := [], path := [] } := rfl
  have h := Endpoint.call_taking_single {} updatePet true true (.inr ⟨rfl, rfl⟩) (fun _ => nofun)
    (by decide)
  rw [hread] at h
  obtain ⟨flat, hflat, single, hsingle, hsame, hcalls⟩ := h
  exact ⟨flat, single, hflat, hsingle, hsame, hcalls⟩

end RequestGen
