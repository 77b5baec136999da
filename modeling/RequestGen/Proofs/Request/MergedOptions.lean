import RequestGen.Proofs.Code.Evaluation
import RequestGen.Proofs.Request.LiteralOptions

/-! # The caller's options in the config of a call

The config of an axios call is the caller's options, or an object literal that spreads them behind
what the generator sets by default and before what it merges with them. `KeepsOptions` says what
that leaves of the options: all of them, but for query parameters, headers and serializer, where
the operation has its own. `callerOptions_kept_iff` says that every config that is a literal at all
keeps them, also the one that carries the body of a deletion; it is none if a literal option is
written over a line end. -/

namespace RequestGen

open Code (Expr Entry Part Scope Value ownProperties parts?)

theorem parts?_entryIf {scope : Scope} {entry : Entry} {part : Part}
    (h : entry.part? scope = some part) (condition : Bool) :
    parts? scope (entryIf condition entry) = some (if condition then [part] else []) := by
  cases condition with
  | true => exact Code.parts?_cons h rfl
  | false => rfl

namespace ConfigInput

variable (c : ConfigInput) (scope : Scope)

/-- What a config keeps of the caller's options. -/
structure KeepsOptions (options config : String → Option Value) : Prop where
  /-- An option that the generator does not write itself has the caller's value. -/
  own : ∀ key value, options key = some value → (key = "params" → c.queryParams = none) →
    (key = "headers" → c.headers = none) →
    (key = "paramsSerializer" → c.serializerEntries = []) → config key = some value
  /-- Query parameters are those of the function, overridden one by one by the caller's. -/
  params : c.queryParams.isSome = true → ∃ params, config "params" = some (.object params) ∧
    ∀ key, params key =
      (((options "params").getD .undefined).own key).or ((scope.value "params").own key)
  /-- Headers are those of the function, overridden one by one by the caller's. -/
  headers : c.headers.isSome = true → ∃ headers, config "headers" = some (.object headers) ∧
    ∀ key, headers key =
      (((options "headers").getD .undefined).own key).or ((scope.value "headers").own key)

/-! ### The entries behind the caller's options -/

/-- The properties of `{...name, ...options?.name}`. -/
def mergedProperties (name : String) : String → Option Value :=
  ownProperties [.spread (scope.value name), .spread ((scope.value "options").member name)]

theorem mergedProperties_eq {options : String → Option Value}
    (ho : scope.value "options" = .object options) (name key : String) :
    mergedProperties scope name key =
      (((options name).getD .undefined).own key).or ((scope.value name).own key) := by
  rw [mergedProperties, ho]
  simp [ownProperties, Part.get?, Value.member, Value.own]

theorem part?_merged {name : String} (hkey : Code.readKey (Code.literalKey name) = some name) :
    (merged name).part? scope = some (.property name (.object (mergedProperties scope name))) :=
  Code.part?_property hkey rfl

/-- The parts of the caller's options, and of what is merged with them. -/
def callerParts : List Part :=
  .spread (scope.value "options") ::
    ((if c.queryParams.isSome then [.property "params" (.object (mergedProperties scope "params"))]
        else []) ++
      if c.headers.isSome then [.property "headers" (.object (mergedProperties scope "headers"))]
        else [])

variable {c scope}

theorem parts?_callerEntries (ht : c.requestOptions.isTaken = true) :
    parts? scope c.callerEntries = some (c.callerParts scope) := by
  have hparams : Code.readKey (Code.literalKey "params") = some "params" := by decide
  have hheaders : Code.readKey (Code.literalKey "headers") = some "headers" := by decide
  rw [callerEntries, if_pos ht, callerParts, List.cons_append]
  refine Code.parts?_cons (Code.part?_spread_name "options") ?_
  rw [Code.parts?_append, parts?_entryIf (part?_merged scope hparams),
    parts?_entryIf (part?_merged scope hheaders)]
  rfl

theorem ownProperties_callerParts {options : String → Option Value}
    (ho : scope.value "options" = .object options) (key : String) :
    ownProperties (c.callerParts scope) key =
      if key = "params" ∧ c.queryParams.isSome = true then
        some (.object (mergedProperties scope "params"))
      else if key = "headers" ∧ c.headers.isSome = true then
        some (.object (mergedProperties scope "headers"))
      else options key := by
  have hspread : (Part.spread (scope.value "options")).get? key = options key := by
    rw [Part.get?, ho, Value.own]
  rw [callerParts, ownProperties, hspread]
  cases c.queryParams.isSome <;> cases c.headers.isSome <;>
    by_cases hp : key = "params" <;> by_cases hh : key = "headers" <;>
    simp_all [ownProperties, Part.get?]

variable (c scope) in
theorem exists_serializerParts : ∃ parts, parts? scope c.serializerEntries = some parts ∧
    ∀ part ∈ parts, c.serializerEntries ≠ [] ∧
      ∃ value, part = .property "paramsSerializer" value := by
  have hkey : Code.readKey (Code.literalKey "paramsSerializer") = some "paramsSerializer" := by
    decide
  have hone (value : Expr) {v : Value} (hv : value.eval? scope = some v) :
      parts? scope [.property "paramsSerializer" value] = some [.property "paramsSerializer" v] :=
    Code.parts?_cons (Code.part?_property hkey hv) rfl
  unfold serializerEntries
  split
  · split
    · exact ⟨_, hone _ rfl, by simp⟩
    · split
      · split
        · exact ⟨_, hone _ rfl, by simp⟩
        · exact ⟨[], rfl, by simp⟩
      · exact ⟨[], rfl, by simp⟩
  · exact ⟨[], rfl, by simp⟩

theorem keepsOptions_append {options : String → Option Value} {front back : List Part}
    (ho : scope.value "options" = .object options)
    (hback : ∀ part ∈ back, c.serializerEntries ≠ [] ∧
      ∃ value, part = .property "paramsSerializer" value) :
    c.KeepsOptions scope options (ownProperties (front ++ (c.callerParts scope ++ back))) := by
  have hnone {key : String} (hkey : key = "paramsSerializer" → c.serializerEntries = []) :
      ownProperties back key = none := by
    refine Code.ownProperties_eq_none fun part hpart => ?_
    obtain ⟨hne, value, rfl⟩ := hback part hpart
    have hother : key ≠ "paramsSerializer" := fun h => hne (hkey h)
    simp [Part.get?, hother]
  have hown {key : String} (hkey : key = "paramsSerializer" → c.serializerEntries = []) :
      ownProperties (front ++ (c.callerParts scope ++ back)) key =
        (ownProperties (c.callerParts scope) key).or (ownProperties front key) := by
    rw [Code.ownProperties_append, Code.ownProperties_append, hnone hkey, Option.none_or]
  refine ⟨fun key value hvalue hparams hheaders hserializer => ?_, fun hquery => ?_,
    fun hheaders => ?_⟩
  · rw [hown hserializer, ownProperties_callerParts ho, if_neg, if_neg, hvalue, Option.some_or]
    · exact fun h => by simp [hheaders h.1] at h
    · exact fun h => by simp [hparams h.1] at h
  · refine ⟨mergedProperties scope "params", ?_, mergedProperties_eq scope ho "params"⟩
    rw [hown (by simp), ownProperties_callerParts ho, if_pos ⟨rfl, hquery⟩, Option.some_or]
  · refine ⟨mergedProperties scope "headers", ?_, mergedProperties_eq scope ho "headers"⟩
    rw [hown (by simp), ownProperties_callerParts ho, if_neg (by simp), if_pos ⟨rfl, hheaders⟩,
      Option.some_or]

/-! ### The entries before the caller's options -/

theorem exists_responseTypeParts : ∃ parts, parts? scope c.responseTypeEntries = some parts ∧
    parts.countP Part.setsPrototype = 0 := by
  have hkey : Code.readKey (Code.literalKey "responseType") = some "responseType" := by decide
  have hone (kind : String) (hkind : Code.readText s!"'{kind}'" = some kind) :
      parts? scope [.property "responseType" (.quoted kind)] =
        some [.property "responseType" (.text kind)] :=
    Code.parts?_cons (Code.part?_property hkey (Code.eval?_quoted hkind)) rfl
  unfold responseTypeEntries
  split
  · exact ⟨[], rfl, rfl⟩
  · split
    · exact ⟨_, hone "blob" (by decide), by decide⟩
    · split
      · exact ⟨_, hone "text" (by decide), by decide⟩
      · exact ⟨[], rfl, rfl⟩

variable (c) in
/-- The literal options that the config holds. -/
def writtenFields : Json.Fields := if c.needsConfig then c.requestOptions.fields else []

theorem isWritable_writtenFields : Code.isWritable (.obj c.writtenFields) = true ↔
    (c.needsConfig = true → Code.isWritable (.obj c.requestOptions.fields) = true) := by
  unfold writtenFields
  split
  · next h => simp [h]
  · next h => simp [h, Code.isWritable, Code.areWritableFields]

theorem spreadEntries_taken (ht : c.requestOptions.isTaken = true) : c.config.spreadEntries =
    (if c.needsConfig then c.responseTypeEntries else []) ++
      (Entry.literals c.writtenFields ++ (c.callerEntries ++ c.serializerEntries)) := by
  rw [spreadEntries_config, writtenFields]
  split
  · simp [entries, ownEntries, ht]
  · next h =>
    have hnone : c.queryParams.isSome = false ∧ c.headers.isSome = false := by
      simp only [needsConfig, Bool.or_eq_true, not_or] at h
      simp [h.1.1]
    simp [ht, callerEntries, serializerEntries, entryIf, Entry.literals, hnone]

/-! ### The config -/

theorem countP_setsPrototype_callerParts :
    (c.callerParts scope).countP Part.setsPrototype = 0 := by
  unfold callerParts
  cases c.queryParams.isSome <;> cases c.headers.isSome <;> simp [Part.setsPrototype]

section Config

variable {options : String → Option Value} (ht : c.requestOptions.isTaken = true)
  (ho : scope.value "options" = .object options)

include ht in
theorem exists_eval?_behind {before : List Entry} {front : List Part} (layout : Code.Layout)
    (hbefore : parts? scope before = some front) (hfront : front.countP Part.setsPrototype = 0) :
    ∃ defaults back,
      (∀ part ∈ back, c.serializerEntries ≠ [] ∧
        ∃ value, part = .property "paramsSerializer" value) ∧
      (Expr.object layout (before ++ c.config.spreadEntries)).eval? scope =
        (Code.literalParts? scope c.writtenFields).bind fun parts =>
          if parts.countP Part.setsPrototype ≤ 1 then
            some (.object (ownProperties
              ((front ++ defaults) ++ (parts ++ (c.callerParts scope ++ back)))))
          else none := by
  obtain ⟨defaults, hdefaults, hcount⟩ : ∃ parts,
      parts? scope (if c.needsConfig then c.responseTypeEntries else []) = some parts ∧
        parts.countP Part.setsPrototype = 0 := by
    split
    · exact exists_responseTypeParts
    · exact ⟨[], rfl, rfl⟩
  obtain ⟨back, hserializer, hback⟩ := exists_serializerParts c scope
  have hcountBack : back.countP Part.setsPrototype = 0 := by
    rw [List.countP_eq_zero]
    intro part hpart
    obtain ⟨-, value, rfl⟩ := hback part hpart
    simp [Part.setsPrototype]
  refine ⟨defaults, back, hback, ?_⟩
  rw [spreadEntries_taken ht, ← List.append_assoc, ← Code.parts?_literals]
  refine Code.eval?_object_around layout ?_ ?_ ?_ ?_
  · rw [Code.parts?_append, hbefore, hdefaults]; rfl
  · rw [Code.parts?_append, parts?_callerEntries ht, hserializer]; rfl
  · rw [List.countP_append, hfront, hcount]
  · rw [List.countP_append, countP_setsPrototype_callerParts, hcountBack]

include ho

theorem kept_options_iff (hn : c.needsConfig = false) :
    (∃ own, (Expr.name "options").eval? scope = some (.object own) ∧
        c.KeepsOptions scope options own) ↔
      (c.needsConfig = true → Code.isWritable (.obj c.requestOptions.fields) = true) := by
  refine iff_of_true ⟨options, congrArg some ho, ?_⟩ (by simp [hn])
  simp only [needsConfig, Bool.or_eq_false_iff] at hn
  exact ⟨fun key value h _ _ _ => h, by simp [hn.1.1.1], by simp [hn.1.1.2]⟩

include ht

theorem kept_object_iff {before : List Entry} {front : List Part} (layout : Code.Layout)
    (hbefore : parts? scope before = some front) (hfront : front.countP Part.setsPrototype = 0) :
    (∃ own, (Expr.object layout (before ++ c.config.spreadEntries)).eval? scope =
          some (.object own) ∧ c.KeepsOptions scope options own) ↔
      (c.needsConfig = true → Code.isWritable (.obj c.requestOptions.fields) = true) := by
  obtain ⟨defaults, back, hback, heval⟩ := exists_eval?_behind ht layout hbefore hfront
  rw [← isWritable_writtenFields, Code.isWritable_obj_iff scope, heval]
  constructor
  · rintro ⟨own, hown, -⟩
    obtain ⟨parts, hparts, hown⟩ := Option.bind_eq_some_iff.mp hown
    refine ⟨parts, hparts, ?_⟩
    by_contra hmany
    simp [hmany] at hown
  · rintro ⟨parts, hparts, hfew⟩
    refine ⟨_, by rw [hparts, Option.bind_some, if_pos hfew], ?_⟩
    rw [← List.append_assoc]
    exact keepsOptions_append ho hback

/-- The config of a call that takes the caller's options is an object that keeps them, unless it is
written with a literal option that is no code. -/
theorem kept_config_iff {config : Expr} (hconfig : c.config.args = [config]) :
    (∃ own, config.eval? scope = some (.object own) ∧ c.KeepsOptions scope options own) ↔
      (c.needsConfig = true → Code.isWritable (.obj c.requestOptions.fields) = true) := by
  cases hc : c.config with
  | absent => rw [hc] at hconfig; exact nomatch hconfig
  | forwarded =>
    have hn : c.needsConfig = false := by
      unfold ConfigInput.config at hc
      cases hn : c.needsConfig with
      | false => rfl
      | true =>
        rw [hn, if_pos rfl] at hc
        split at hc <;> exact nomatch hc
    rw [hc] at hconfig
    obtain rfl : Expr.name "options" = config := by simpa [AxiosConfig.args] using hconfig
    exact kept_options_iff ho hn
  | object entries =>
    rw [hc] at hconfig
    obtain rfl : Expr.object .tight entries = config := by
      simpa [AxiosConfig.args] using hconfig
    have hentries : entries = [] ++ c.config.spreadEntries := by rw [hc]; rfl
    rw [hentries]
    exact kept_object_iff ht ho .tight rfl rfl

end Config

theorem exists_args_config (ht : c.requestOptions.isTaken = true) :
    ∃ config, c.config.args = [config] := by
  cases hc : c.config with
  | absent =>
    have hspread := spreadEntries_taken ht
    rw [hc, callerEntries, if_pos ht] at hspread
    simp [AxiosConfig.spreadEntries] at hspread
  | forwarded => exact ⟨_, rfl⟩
  | object entries => exact ⟨_, rfl⟩

/-- The config of an axios call that takes the caller's options is its last argument. It comes to an
object that keeps them, whatever they are and whatever the method, the body and the rest of the
operation, exactly if the literal options can be written, should they be written. -/
theorem callerOptions_kept_iff (ht : c.requestOptions.isTaken = true) (route method : String)
    (body : Body) (forms : FormSupport) :
    ∃ config, (axiosArgs route method body forms c).getLast? = some config ∧
      ∀ (scope : Scope) (options : String → Option Value),
        scope.value "options" = .object options →
        ((∃ own, config.eval? scope = some (.object own) ∧ c.KeepsOptions scope options own) ↔
          (c.needsConfig = true → Code.isWritable (.obj c.requestOptions.fields) = true)) := by
  obtain ⟨config, hconfig⟩ := exists_args_config ht
  have hlast (first : List Expr) : (first ++ c.config.args).getLast? = some config := by
    rw [hconfig, List.getLast?_append_cons, List.getLast?_singleton]
  unfold axiosArgs
  generalize (if carriesBody method then body.payload forms else "") = payload
  dsimp only
  split
  · split
    · exact ⟨config, hlast [_], fun scope options ho => kept_config_iff ht ho hconfig⟩
    · -- the body is a property of the config
      refine ⟨_, rfl, fun scope options ho => ?_⟩
      have hkey : Code.readKey (Code.literalKey "data") = some "data" := by decide
      have hdata : parts? scope [.property "data" (.name payload)] =
          some [.property "data" (scope.value payload)] :=
        Code.parts?_cons (Code.part?_property hkey rfl) rfl
      exact kept_object_iff ht ho .tight hdata (by simp [Part.setsPrototype])
  · split
    · exact ⟨config, hlast [_, _], fun scope options ho => kept_config_iff ht ho hconfig⟩
    · exact ⟨config, hlast [_], fun scope options ho => kept_config_iff ht ho hconfig⟩

end ConfigInput

/-- The config of a text response with a literal option. -/
def notedConfig (note : String) : ConfigInput where
  response := { success := "string" }
  requestOptions := .literal [("note", .str note)]

/-- A scope in which the caller gives a timeout. -/
def timeoutScope : Scope where
  value name :=
    if name = "options" then .object fun key => if key = "timeout" then some (.text "5") else none
    else .undefined
  call _ _ := .undefined

/-- A note on one line leaves the caller's options in the config, one on two lines leaves none. -/
theorem timeout_kept_notedConfig : ∃ inline broken,
    (axiosArgs "/pets" "get" {} {} (notedConfig "ab")).getLast? = some inline ∧
    (axiosArgs "/pets" "get" {} {} (notedConfig "a\nb")).getLast? = some broken ∧
    (∃ own, inline.eval? timeoutScope = some (.object own) ∧
      own "timeout" = some (.text "5")) ∧
    broken.render = "\x7bnote: 'a\nb', ...options\x7d" ∧
    ¬ ∃ own, broken.eval? timeoutScope = some (.object own) ∧
      (notedConfig "a\nb").KeepsOptions timeoutScope
        (fun key => if key = "timeout" then some (.text "5") else none) own := by
  obtain ⟨inline, hinline, hkept⟩ :=
    (notedConfig "ab").callerOptions_kept_iff rfl "/pets" "get" {} {}
  obtain ⟨broken, hbroken, hlost⟩ :=
    (notedConfig "a\nb").callerOptions_kept_iff rfl "/pets" "get" {} {}
  refine ⟨inline, broken, hinline, hbroken, ?_, ?_, mt (hlost timeoutScope _ rfl).mp (by decide)⟩
  · obtain ⟨own, heval, hkeeps⟩ := (hkept timeoutScope _ rfl).mpr (by decide)
    exact ⟨own, heval, hkeeps.own "timeout" _ rfl (by decide) (by decide) (by decide)⟩
  · obtain rfl := Option.some.inj hbroken
    decide

end RequestGen
