import RequestGen.Proofs.Request.CallWords

/-! # Calls that write query strings

Settings of the query-string serializer make a call write its query string with `qs`. This is so for
calls of axios only, and there exactly if the operation has query parameters and no serializer of
the user (`writesQuery_result`): the writer is one entry of the config, and no other part of a call
has one. What holds a writer refers to `qs` (`Expr.mentions_qs_of_writesQuery`). -/

namespace RequestGen

namespace Code

mutual

/-- Whether a function that writes a query string is in the expression. -/
def Expr.writesQuery : Expr → Bool
  | .queryWriter _ => true
  | .object _ entries => anyEntryWritesQuery entries
  | .call _ args => anyWritesQuery args
  | _ => false

def Entry.writesQuery : Entry → Bool
  | .shorthand _ => false
  | .property _ value => value.writesQuery
  | .spread value => value.writesQuery

def anyWritesQuery : List Expr → Bool
  | [] => false
  | e :: es => e.writesQuery || anyWritesQuery es

def anyEntryWritesQuery : List Entry → Bool
  | [] => false
  | e :: es => e.writesQuery || anyEntryWritesQuery es

end

theorem anyWritesQuery_eq (args : List Expr) : anyWritesQuery args = args.any (·.writesQuery) := by
  induction args with
  | nil => rfl
  | cons e es ih => rw [anyWritesQuery, ih, List.any_cons]

theorem anyEntryWritesQuery_eq (entries : List Entry) :
    anyEntryWritesQuery entries = entries.any (·.writesQuery) := by
  induction entries with
  | nil => rfl
  | cons e es ih => rw [anyEntryWritesQuery, ih, List.any_cons]

namespace Expr

@[simp] theorem writesQuery_name (code : String) : (Expr.name code).writesQuery = false := rfl

@[simp] theorem writesQuery_optionalMember (value member : String) :
    (Expr.optionalMember value member).writesQuery = false := rfl

@[simp] theorem writesQuery_quoted (text : String) : (Expr.quoted text).writesQuery = false := rfl

@[simp] theorem writesQuery_template (text : String) : (Expr.template text).writesQuery = false :=
  rfl

@[simp] theorem writesQuery_literal (value : Json) : (Expr.literal value).writesQuery = false := rfl

@[simp] theorem writesQuery_whenSet (held : String) : (Expr.whenSet held).writesQuery = false := rfl

@[simp] theorem writesQuery_queryWriter (settings : Json.Fields) :
    (Expr.queryWriter settings).writesQuery = true := rfl

@[simp] theorem writesQuery_object (layout : Layout) (entries : List Entry) :
    (Expr.object layout entries).writesQuery = entries.any (·.writesQuery) :=
  anyEntryWritesQuery_eq entries

@[simp] theorem writesQuery_call (callee : String) (args : List Expr) :
    (Expr.call callee args).writesQuery = args.any (·.writesQuery) :=
  anyWritesQuery_eq args

end Expr

namespace Entry

@[simp] theorem writesQuery_shorthand (held : String) :
    (Entry.shorthand held).writesQuery = false := rfl

@[simp] theorem writesQuery_property (key : String) (value : Expr) :
    (Entry.property key value).writesQuery = value.writesQuery := rfl

@[simp] theorem writesQuery_spread (value : Expr) :
    (Entry.spread value).writesQuery = value.writesQuery := rfl

@[simp] theorem any_writesQuery_literals (fields : Json.Fields) :
    (Entry.literals fields).any (·.writesQuery) = false := by
  rw [literals, List.any_map, List.any_eq_false]
  intro field _
  exact Bool.false_ne_true

end Entry

mutual

theorem Expr.mentions_qs_of_writesQuery :
    ∀ e : Expr, e.writesQuery = true → e.mentions "qs" = true
  | .queryWriter settings, _ => by
    have hwriter : refersTo "(params) => qs.stringify(params, " "qs" = true := by decide
    rw [Expr.mentions_queryWriter, hwriter, Bool.true_or]
  | .object _ entries, h => anyEntryMentions_qs_of_writesQuery entries h
  | .call callee args, h => by
    show (refersTo callee "qs" || anyMentions "qs" args) = true
    rw [anyMentions_qs_of_writesQuery args h, Bool.or_true]

theorem Entry.mentions_qs_of_writesQuery :
    ∀ e : Entry, e.writesQuery = true → e.mentions "qs" = true
  | .property key value, h => by
    rw [Entry.mentions_property, Expr.mentions_qs_of_writesQuery value h, Bool.or_true]
  | .spread value, h => Expr.mentions_qs_of_writesQuery value h

theorem anyMentions_qs_of_writesQuery :
    ∀ args : List Expr, anyWritesQuery args = true → anyMentions "qs" args = true
  | e :: es, h => by
    rw [anyMentions, Bool.or_eq_true]
    exact (Bool.or_eq_true_iff.mp h).imp (Expr.mentions_qs_of_writesQuery e)
      (anyMentions_qs_of_writesQuery es)

theorem anyEntryMentions_qs_of_writesQuery :
    ∀ entries : List Entry, anyEntryWritesQuery entries = true →
      anyEntryMentions "qs" entries = true
  | e :: es, h => by
    rw [anyEntryMentions, Bool.or_eq_true]
    exact (Bool.or_eq_true_iff.mp h).imp (Entry.mentions_qs_of_writesQuery e)
      (anyEntryMentions_qs_of_writesQuery es)

end

end Code

open Code (Expr Entry)

@[simp] theorem writesQuery_signalEntry (exactOptional : Bool) :
    (signalEntry exactOptional).writesQuery = false := by
  cases exactOptional <;> rfl

/-! ### The config of an axios call -/

namespace ConfigInput

variable (c : ConfigInput)

/-- Whether the config says how query strings are written, with settings. -/
def writesQuery : Bool :=
  c.queryParams.isSome && c.serializer.isNone &&
    (c.serializerOptions.map (·.isSet)).getD false

theorem any_writesQuery_serializerEntries :
    c.serializerEntries.any (·.writesQuery) = c.writesQuery := by
  unfold serializerEntries writesQuery
  cases c.queryParams with
  | none => rfl
  | some _ =>
    cases c.serializer with
    | some _ => rfl
    | none =>
      cases c.serializerOptions with
      | none => rfl
      | some options => cases h : options.isSet <;> simp [h]

theorem any_writesQuery_entries : c.entries.any (·.writesQuery) = c.writesQuery := by
  have hown : c.ownEntries.any (·.writesQuery) = false := by
    unfold ownEntries
    split
    · rfl
    · simp
  have hresponse : c.responseTypeEntries.any (·.writesQuery) = false := by
    unfold responseTypeEntries
    split_ifs <;> simp
  have hcaller : c.callerEntries.any (·.writesQuery) = false := by
    unfold callerEntries merged
    split <;> simp
  rw [entries, List.any_append, List.any_append, List.any_append, List.any_append, hown, hresponse,
    hcaller, Entry.any_writesQuery_literals, any_writesQuery_serializerEntries]
  rfl

theorem any_writesQuery_spreadEntries :
    c.config.spreadEntries.any (·.writesQuery) = c.writesQuery := by
  rw [spreadEntries_config]
  split
  · exact c.any_writesQuery_entries
  · next hneeds =>
    -- query parameters alone need a config
    have hquery : c.queryParams.isSome = false := by
      simp only [needsConfig, Bool.or_eq_true, not_or] at hneeds
      exact Bool.eq_false_iff.mpr hneeds.1.1.1
    have hno : c.writesQuery = false := by simp [writesQuery, hquery]
    rw [hno]
    split <;> simp

end ConfigInput

theorem AxiosConfig.any_writesQuery_args (config : AxiosConfig) :
    config.args.any (·.writesQuery) = config.spreadEntries.any (·.writesQuery) := by
  cases config with
  | absent => rfl
  | forwarded => rfl
  | object entries => simp [args, spreadEntries]

theorem any_writesQuery_axiosArgs {route method : String} {body : Body} {forms : FormSupport}
    {input : ConfigInput} :
    (axiosArgs route method body forms input).any (·.writesQuery) = input.writesQuery := by
  rw [← input.any_writesQuery_spreadEntries]
  unfold axiosArgs
  generalize (if carriesBody method then body.payload forms else "") = payload
  dsimp only
  split_ifs <;> simp [AxiosConfig.any_writesQuery_args]

/-! ### The other calls -/

theorem MutatorInput.writesQuery_config (m : MutatorInput) : m.config.writesQuery = false := by
  unfold config headerEntries dataEntries queryEntries
  simp only [Expr.writesQuery_object, List.any_append]
  split_ifs <;> simp

theorem any_writesQuery_mutatorOptions (options : RequestOptions) (hasSecondArg : Bool) :
    (mutatorOptions options hasSecondArg).toList.any (·.writesQuery) = false := by
  cases options <;> cases hasSecondArg <;> simp [mutatorOptions]

namespace Endpoint

variable {ctx : Context} {e : Endpoint} {exported generic : Bool}

/-- Whether settings for query strings get into the call of the operation's function. -/
def writesQuery (e : Endpoint) : Bool :=
  e.operation.queryParams.isSome && e.operation.serializer.isNone &&
    (e.operation.overrides.serializerOptions.map (·.isSet)).getD false

theorem writesQuery_axiosCall : (e.axiosCall ctx).writesQuery = e.writesQuery :=
  (Expr.writesQuery_call _ _).trans any_writesQuery_axiosArgs

theorem writesQuery_mutatorCall {mutator : Mutator} {options : Option Expr}
    (h : options.toList.any (·.writesQuery) = false) :
    (e.mutatorCall ctx mutator options).writesQuery = false := by
  rw [mutatorCall, Expr.writesQuery_call, List.any_cons, h, Bool.or_false]
  exact MutatorInput.writesQuery_config _

theorem any_writesQuery_fetchArgs (spreadOptions : Bool) :
    [e.urlCall, e.fetchInit spreadOptions].any (·.writesQuery) = false := by
  have hurl : e.urlCall.writesQuery = false := by simp [urlCall]
  have hinit : (e.fetchInit spreadOptions).writesQuery = false := by
    unfold fetchInit fetchHeaders
    dsimp only
    split_ifs <;> simp
  simp [hurl, hinit]

/-- A call writes its query string exactly if it calls axios for an operation with query parameters
and settings of how to write them. -/
theorem writesQuery_result {via : Transport} {f : RequestFunction}
    (hf : e.requestOver ctx exported generic via = .ok f) :
    f.result.writesQuery = (decide (via = .axios) && e.writesQuery) := by
  -- only the config of an axios call has a place for the writer
  cases requestOver_eq_ok_iff.mp hf with
  | axiosFlat => exact writesQuery_axiosCall
  | axiosSingle =>
    rw [result_axiosSingle]
    exact writesQuery_axiosCall
  | mutatorFlat =>
    refine writesQuery_mutatorCall ?_
    unfold mutatorSecondArgument
    split
    · exact any_writesQuery_mutatorOptions _ _
    · rfl
  | mutatorSingle =>
    refine writesQuery_mutatorCall ?_
    cases e.operation.mutatorOptionsParam ctx.output <;> rfl
  | fetch =>
    unfold fetchSender
    split
    · exact (Expr.writesQuery_call _ _).trans (any_writesQuery_fetchArgs _)
    · unfold fetchFunction
      dsimp only
      split <;> rfl

end Endpoint

end RequestGen
