import Mathlib.Tactic.SplitIfs
import RequestGen.Proofs.Request.Senders

/-! # Where literal request options are written

An override may give request options literally. `literal_option_written_iff` says for each transport
and convention whether they get into the call: the config of an axios call holds them if it is
needed for something else, a mutator gets them with a list of arguments, and no other call has them.
The reason is that only three places of the generator write entries for literal options; in all
other objects that a call is given no entry holds a literal. -/

namespace RequestGen

open Code (Expr Entry Layout)

/-- Whether one of the arguments is an object with this entry. -/
def HasEntry (args : List Expr) (entry : Entry) : Prop :=
  ∃ layout entries, .object layout entries ∈ args ∧ entry ∈ entries

/-- Whether the call that sends the request is given `key: value` as a literal property of an
argument. -/
def RequestFunction.WritesOption (f : RequestFunction) (key : String) (value : Json) : Prop :=
  HasEntry f.sendingArgs (.property key (.literal value))

variable {key : String} {value : Json} {entry : Entry} {args : List Expr}

theorem hasEntry_nil : ¬ HasEntry [] entry := by
  simp [HasEntry]

theorem hasEntry_object_cons {layout : Layout} {entries : List Entry} :
    HasEntry (.object layout entries :: args) entry ↔ entry ∈ entries ∨ HasEntry args entry := by
  constructor
  · rintro ⟨l, es, hmem, he⟩
    rcases List.mem_cons.mp hmem with heq | hmem
    · obtain ⟨-, rfl⟩ := Expr.object.inj heq
      exact .inl he
    · exact .inr ⟨l, es, hmem, he⟩
  · rintro (he | ⟨l, es, hmem, he⟩)
    · exact ⟨layout, entries, List.mem_cons_self, he⟩
    · exact ⟨l, es, List.mem_cons_of_mem _ hmem, he⟩

theorem hasEntry_cons_of_not_object {a : Expr} (h : ∀ layout entries, a ≠ .object layout entries) :
    HasEntry (a :: args) entry ↔ HasEntry args entry := by
  constructor
  · rintro ⟨l, es, hmem, he⟩
    rcases List.mem_cons.mp hmem with heq | hmem
    · exact absurd heq.symm (h l es)
    · exact ⟨l, es, hmem, he⟩
  · rintro ⟨l, es, hmem, he⟩
    exact ⟨l, es, List.mem_cons_of_mem _ hmem, he⟩

@[simp] theorem hasEntry_name_cons {code : String} :
    HasEntry (.name code :: args) entry ↔ HasEntry args entry :=
  hasEntry_cons_of_not_object (by simp)

@[simp] theorem hasEntry_template_cons {text : String} :
    HasEntry (.template text :: args) entry ↔ HasEntry args entry :=
  hasEntry_cons_of_not_object (by simp)

@[simp] theorem hasEntry_call_cons {callee : String} {inner : List Expr} :
    HasEntry (.call callee inner :: args) entry ↔ HasEntry args entry :=
  hasEntry_cons_of_not_object (by simp)

/-! ### The entries of a config -/

@[simp] theorem mem_entryIf {condition : Bool} {e : Entry} :
    entry ∈ entryIf condition e ↔ condition = true ∧ entry = e := by
  unfold entryIf
  split <;> simp_all

theorem mem_literals_iff {fields : Json.Fields} :
    entry ∈ Entry.literals fields ↔ ∃ field ∈ fields, Entry.literal field.1 field.2 = entry := by
  simp [Entry.literals]

theorem mem_literals {fields : Json.Fields} :
    Entry.property key (.literal value) ∈ Entry.literals fields ↔ (key, value) ∈ fields := by
  simp [Entry.literals, Entry.literal]

namespace ConfigInput

variable {c : ConfigInput}

theorem mem_ownEntries_iff : entry ∈ c.ownEntries ↔ c.requestOptions.isTaken = false ∧
    (c.queryParams.isSome = true ∧ entry = .shorthand "params" ∨
      c.headers.isSome = true ∧ entry = .shorthand "headers" ∨
      c.hasSignal = true ∧ entry = signalEntry c.exactOptional) := by
  unfold ownEntries
  split <;> simp_all

/-- The kind of a response that is not decoded by default. -/
def responseKind? (c : ConfigInput) : Option String :=
  if c.response.isBlob then some "blob"
  else if c.response.contentTypes.head? = some "text/plain" then some "text"
  else none

theorem mem_responseTypeEntries_iff : entry ∈ c.responseTypeEntries ↔
    Json.Fields.has c.requestOptions.fields "responseType" = false ∧
      ∃ kind, c.responseKind? = some kind ∧ entry = .property "responseType" (.quoted kind) := by
  unfold responseTypeEntries responseKind?
  split_ifs <;> simp_all

theorem mem_callerEntries_iff : entry ∈ c.callerEntries ↔ c.requestOptions.isTaken = true ∧
    (entry = .spread (.name "options") ∨
      c.queryParams.isSome = true ∧ entry = merged "params" ∨
      c.headers.isSome = true ∧ entry = merged "headers") := by
  unfold callerEntries
  split <;> simp_all

/-- The value that says how query parameters are written, if it is not left to axios. -/
def serializerValue? (c : ConfigInput) : Option Expr :=
  match c.serializer with
  | some serializer => some (.name serializer.name)
  | none =>
    (c.serializerOptions.filter (·.isSet)).map fun options =>
      .queryWriter (options.qs.getD [])

theorem mem_serializerEntries_iff : entry ∈ c.serializerEntries ↔
    c.queryParams.isSome = true ∧
      ∃ e, c.serializerValue? = some e ∧ entry = .property "paramsSerializer" e := by
  unfold serializerEntries serializerValue?
  split
  · split
    · simp_all
    · split
      · split <;> simp_all
      · simp_all
  · simp_all

/-- A text in quotes or a document value is only written for the kind of the response and for
literal options. -/
theorem property_mem_entries_iff {e : Expr} (hname : ∀ code, e ≠ .name code)
    (hwriter : ∀ settings, e ≠ .queryWriter settings)
    (hobject : ∀ layout entries, e ≠ .object layout entries) :
    Entry.property key e ∈ c.entries ↔ Entry.property key e ∈ c.responseTypeEntries ∨
      Entry.property key e ∈ Entry.literals c.requestOptions.fields := by
  have hsignal : Entry.property key e ≠ signalEntry c.exactOptional := by
    unfold signalEntry
    split <;> simp
  have hserializer (value : Expr) (hvalue : c.serializerValue? = some value) : e ≠ value := by
    unfold serializerValue? at hvalue
    split at hvalue
    · exact Option.some.inj hvalue ▸ hname _
    · obtain ⟨options, -, rfl⟩ := Option.map_eq_some_iff.mp hvalue
      exact hwriter _
  simp only [entries, List.mem_append, mem_ownEntries_iff, mem_callerEntries_iff,
    mem_serializerEntries_iff]
  constructor
  · intro h
    rcases h with (((⟨-, h⟩ | h) | h) | ⟨-, h⟩) | ⟨-, value, hvalue, h⟩
    · simp [hsignal] at h
    · exact .inl h
    · exact .inr h
    · simp [merged, hobject] at h
    · exact absurd (Entry.property.inj h).2 (hserializer value hvalue)
  · rintro (h | h)
    · exact .inl (.inl (.inl (.inr h)))
    · exact .inl (.inl (.inr h))

theorem literal_mem_entries :
    Entry.property key (.literal value) ∈ c.entries ↔ (key, value) ∈ c.requestOptions.fields := by
  rw [property_mem_entries_iff (by simp) (by simp) (by simp), mem_literals,
    mem_responseTypeEntries_iff]
  simp

/-- What an object that holds the config is made of. A config without entries is left out, and would
have nothing in it if it were written. -/
theorem spreadEntries_config : c.config.spreadEntries =
    if c.needsConfig then c.entries
    else if c.requestOptions.isTaken then [.spread (.name "options")]
    else entryIf c.hasSignal (signalEntry c.exactOptional) := by
  unfold config entryIf
  split
  · split
    · next hnil => rw [hnil]; rfl
    · rfl
  · split_ifs <;> rfl

/-- The entries of a config hold the literal options, unless there is no config to hold them. -/
theorem literal_mem_spreadEntries :
    Entry.property key (.literal value) ∈ c.config.spreadEntries ↔
      c.needsConfig = true ∧ (key, value) ∈ c.requestOptions.fields := by
  rw [spreadEntries_config]
  split
  · next h => rw [← literal_mem_entries, and_iff_right h]
  · next h =>
    refine ⟨fun hmem => ?_, fun ⟨hneeds, _⟩ => absurd hneeds h⟩
    unfold signalEntry at hmem
    split_ifs at hmem <;> simp at hmem

end ConfigInput

theorem AxiosConfig.hasEntry_args {config : AxiosConfig} {e : Expr} :
    HasEntry config.args (.property key e) ↔ Entry.property key e ∈ config.spreadEntries := by
  cases config with
  | absent => simp [args, spreadEntries, hasEntry_nil]
  | forwarded => simp [args, spreadEntries, hasEntry_nil]
  | object entries => simp [args, spreadEntries, hasEntry_object_cons, hasEntry_nil]

/-- Whatever the method and its body, an axios call is given the entries of its config. Only the
body of a deletion is an entry of the call's own, and that is a name. -/
theorem hasEntry_axiosArgs {route method : String} {body : Body} {forms : FormSupport}
    {input : ConfigInput} {e : Expr} (he : ∀ code, e ≠ .name code) :
    HasEntry (axiosArgs route method body forms input) (.property key e) ↔
      Entry.property key e ∈ input.config.spreadEntries := by
  unfold axiosArgs
  generalize (if carriesBody method then body.payload forms else "") = payload
  dsimp only
  split_ifs <;> simp [AxiosConfig.hasEntry_args, hasEntry_object_cons, hasEntry_nil, he]

theorem MutatorInput.hasEntry_config_cons {m : MutatorInput} :
    HasEntry (m.config :: args) (.property key (.literal value)) ↔
      HasEntry args (.property key (.literal value)) := by
  refine hasEntry_object_cons.trans (or_iff_right ?_)
  unfold headerEntries dataEntries queryEntries signalEntry
  simp only [List.mem_append]
  split_ifs <;> simp

/-! ### The calls of the five forms -/

theorem hasEntry_mutatorOptions {fields : Json.Fields} {hasSecondArg : Bool} :
    HasEntry (mutatorOptions (.literal fields) hasSecondArg).toList
      (.property key (.literal value)) ↔ (key, value) ∈ fields := by
  simp [mutatorOptions, hasEntry_object_cons, hasEntry_nil, mem_literals]

namespace Endpoint

variable {ctx : Context} {e : Endpoint} {exported generic : Bool}

theorem sendingArgs_axiosFlat :
    (e.axiosFlat ctx exported generic).sendingArgs = e.axiosCallArgs ctx :=
  RequestFunction.sendingArgs_of_not_awaits (e.operation.fetchArgs?_encodeStatements false)

theorem sendingArgs_axiosSingle (request : SingleRequest) :
    (e.axiosSingle ctx exported generic request).sendingArgs = e.axiosCallArgs ctx := by
  unfold axiosSingle
  dsimp only
  split
  · exact RequestFunction.sendingArgs_of_not_awaits (request.fetchArgs?_statements _)
  · exact RequestFunction.sendingArgs_of_not_awaits (e.operation.fetchArgs?_encodeStatements false)

theorem sendingArgs_mutatorFlat (mutator : Mutator) :
    (e.mutatorFlat ctx mutator exported).sendingArgs =
      e.mutatorConfig ctx :: (e.mutatorSecondArgument mutator).toList :=
  RequestFunction.sendingArgs_of_not_awaits (e.operation.fetchArgs?_encodeStatements false)

theorem sendingArgs_mutatorSingle (mutator : Mutator) (request : SingleRequest) :
    (e.mutatorSingle ctx mutator exported request).sendingArgs =
      e.mutatorConfig ctx ::
        ((e.operation.mutatorOptionsParam ctx.output).map fun _ => Expr.name "options").toList :=
  RequestFunction.sendingArgs_of_not_awaits (request.fetchArgs?_statements _)

theorem sendingArgs_fetchMutatorFunction (output : OutputConfig) (mutator : Mutator) :
    (e.fetchMutatorFunction output mutator).sendingArgs =
      [e.urlCall, e.fetchInit (e.operation.mutatorOptionsParam output).isSome] :=
  RequestFunction.sendingArgs_of_not_awaits (e.operation.fetchArgs?_encodeStatements false)

theorem sendingArgs_fetchFunction (output : OutputConfig) :
    (e.fetchFunction output).sendingArgs =
      [e.urlCall, e.fetchInit e.operation.overrides.requestOptions.isTaken] := by
  have h := List.findSome?_eq_none_iff.mpr (e.operation.fetchArgs?_encodeStatements false)
  rw [RequestFunction.sendingArgs, fetchFunction, List.findSome?_append, h]
  rfl

theorem not_hasEntry_fetchInit {spreadOptions : Bool} :
    ¬ HasEntry [e.urlCall, e.fetchInit spreadOptions] (.property key (.literal value)) := by
  unfold urlCall fetchInit
  simp only [hasEntry_call_cons, hasEntry_object_cons, hasEntry_nil, or_false, List.mem_append,
    mem_entryIf]
  split_ifs <;> simp

theorem hasEntry_axiosCallArgs {fields : Json.Fields}
    (ho : e.operation.overrides.requestOptions = .literal fields) :
    HasEntry (e.axiosCallArgs ctx) (.property key (.literal value)) ↔
      (e.configInput ctx).needsConfig = true ∧ (key, value) ∈ fields := by
  have hfields : (e.configInput ctx).requestOptions.fields = fields := by
    show e.operation.overrides.requestOptions.fields = fields
    rw [ho]; rfl
  rw [axiosCallArgs, hasEntry_axiosArgs (by simp), ConfigInput.literal_mem_spreadEntries, hfields]

/-- An option that an operation gives literally is written into the call that sends the request by
an axios function whose call has a config for another reason, by a function of a mutator that takes
a list of arguments, and by no other function. -/
theorem literal_option_written_iff {fields : Json.Fields} {via : Transport} {f : RequestFunction}
    (ho : e.operation.overrides.requestOptions = .literal fields) (hmem : (key, value) ∈ fields)
    (hf : e.requestOver ctx exported generic via = .ok f) :
    f.WritesOption key value ↔
      via = .axios ∧ (e.configInput ctx).needsConfig = true ∨
        via = .mutator ∧ e.operation.overrides.singleRequest = false := by
  unfold RequestFunction.WritesOption
  cases requestOver_eq_ok_iff.mp hf with
  | axiosFlat => rw [sendingArgs_axiosFlat, hasEntry_axiosCallArgs ho]; simp [hmem]
  | axiosSingle => rw [sendingArgs_axiosSingle, hasEntry_axiosCallArgs ho]; simp [hmem]
  | @mutatorFlat mutator hm hs =>
    have hsecond : e.mutatorSecondArgument mutator =
        mutatorOptions (.literal fields) mutator.hasSecondArg := by
      rw [mutatorSecondArgument, ho]; rfl
    rw [sendingArgs_mutatorFlat, hsecond]
    unfold mutatorConfig
    rw [MutatorInput.hasEntry_config_cons, hasEntry_mutatorOptions]
    simp [hmem, hs]
  | @mutatorSingle mutator _ hm hs =>
    rw [sendingArgs_mutatorSingle]
    unfold mutatorConfig
    rw [MutatorInput.hasEntry_config_cons]
    -- the second argument is the name of the caller's options, or there is none
    cases e.operation.mutatorOptionsParam ctx.output <;> simp [hs, hasEntry_nil]
  | fetch =>
    have hno : ¬ HasEntry (e.fetchSender ctx.output).sendingArgs
        (.property key (.literal value)) := by
      unfold fetchSender
      split
      · rw [sendingArgs_fetchMutatorFunction]; exact not_hasEntry_fetchInit
      · rw [sendingArgs_fetchFunction]; exact not_hasEntry_fetchInit
    simp [hno]

end Endpoint

/-- An operation with a literal option and the given query parameters. -/
def listPetsTimed (queryParams : Option Aggregate) : Endpoint where
  operation := {
    verb := .get
    operationName := "listPets"
    queryParams
    overrides := { requestOptions := .literal [("timeout", .int 5)] } }
  route := "/pets"
  pathRoute := "/pets"

/-- A literal option gets into the call along with query parameters, but not alone. -/
theorem writesOption_listPetsTimed :
    ((listPetsTimed (some { schema := { name := "ListPetsParams" } })).axiosFlat {} false
        true).WritesOption "timeout" (.int 5) ∧
      ¬ ((listPetsTimed none).axiosFlat {} false true).WritesOption "timeout" (.int 5) := by
  constructor
  · have hf : (listPetsTimed (some { schema := { name := "ListPetsParams" } })).requestOver {} false
        true .axios = .ok _ := rfl
    exact (Endpoint.literal_option_written_iff rfl List.mem_cons_self hf).mpr
      (.inl ⟨rfl, by decide⟩)
  · intro h
    have hf : (listPetsTimed none).requestOver {} false true .axios = .ok _ := rfl
    rcases (Endpoint.literal_option_written_iff rfl List.mem_cons_self hf).mp h with
      ⟨-, hconfig⟩ | ⟨hvia, -⟩
    · exact absurd hconfig (by decide)
    · exact nomatch hvia

end RequestGen
