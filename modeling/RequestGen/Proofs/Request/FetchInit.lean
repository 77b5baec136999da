import RequestGen.Proofs.Request.CallerOptions
import RequestGen.Proofs.Request.MergedOptions

/-! # The init object of a call over fetch

Method, body and headers of a call over fetch stand in an object literal behind a spread of the
caller's options. `Inits` says what that makes of the options: the function decides on method and
body, headers are merged one by one, and the rest is the caller's.

The headers of a request may come as an object with a property for each, as an object that keeps
them inside, or as a list of pairs (`Value.HasHeader`). A spread copies properties only. So
headers that are no properties get into the request where the function has no headers of its own,
and else only if it sends the same: `inits_keeps_headers_iff`. -/

namespace RequestGen

open Code (Expr Entry Part Scope Value ownProperties parts?)

/-- The headers that a value stands for, as headers of a request. -/
inductive Code.Value.HasHeader : Value → String → Value → Prop
  | object {own : String → Option Value} {name : String} {value : Value}
    (h : own name = some value) : HasHeader (.object own) name value
  | headers {entries : List (String × String)} {name text : String}
    (h : (name, text) ∈ entries) : HasHeader (.headers entries) name (.text text)
  | pair {items : List Value} {name : String} {value : Value}
    (h : .list [.text name, value] ∈ items) : HasHeader (.list items) name value

theorem Code.Value.hasHeader_object {own : String → Option Value} {name : String} {value : Value} :
    (Value.object own).HasHeader name value ↔ own name = some value :=
  ⟨fun | .object h => h, .object⟩

namespace Endpoint

variable (e : Endpoint) (scope : Scope)

/-- Whether the function has headers of its own to send. -/
def generatesHeaders : Bool := e.fetchSendsJson || e.operation.headers.isSome

/-- The header that the function has of its own: a header parameter, or the content type. -/
def generatedHeader (name : String) : Option Value :=
  (if e.operation.headers.isSome then (scope.value "headers").own name else none).or
    (if e.fetchSendsJson ∧ name = "Content-Type" then some (.text "application/json") else none)

/-- What the function sends as the body. -/
def bodyValue : Value :=
  let payload := scope.value (e.operation.body.payload e.operation.forms)
  if e.fetchSendsJson then scope.call "JSON.stringify" [payload] else payload

/-- What an init object is made of with these options of the caller. -/
structure Inits (options : Value) (init : String → Option Value) : Prop where
  method : init "method" = some (.text (Text.upperCase e.operation.verb.name))
  body : e.fetchCarriesBody = true → init "body" = some (e.bodyValue scope)
  headers : e.generatesHeaders = true → ∃ headers, init "headers" = some (.object headers) ∧
    ∀ name, headers name =
      ((options.member "headers").own name).or (e.generatedHeader scope name)
  /-- Any other property is that of the options. -/
  other : ∀ key, key ≠ "method" → (key = "body" → e.fetchCarriesBody = false) →
    (key = "headers" → e.generatesHeaders = false) → init key = options.own key

/-! ### Its parts -/

/-- The headers that the function sends. -/
def headerParts : List Part :=
  (if e.fetchSendsJson then [.property "Content-Type" (.text "application/json")] else []) ++
    ((if e.operation.headers.isSome then [.spread (scope.value "headers")] else []) ++
      [.spread ((scope.value "options").member "headers")])

def initParts : List Part :=
  .spread (scope.value "options") ::
    .property "method" (.text (Text.upperCase e.operation.verb.name)) ::
    ((if e.generatesHeaders then
        [.property "headers" (.object (ownProperties (e.headerParts scope)))] else []) ++
      if e.fetchCarriesBody then [.property "body" (e.bodyValue scope)] else [])

variable {e scope}

theorem fetchHeaders_true : e.fetchHeaders true =
    if e.generatesHeaders then
      entryIf e.fetchSendsJson (.property "Content-Type" (.quoted "application/json")) ++
        (entryIf e.operation.headers.isSome (.spread (.name "headers")) ++
          [.spread (.optionalMember "options" "headers")])
    else [] := by
  unfold fetchHeaders generatesHeaders
  cases e.fetchSendsJson <;> cases e.operation.headers.isSome <;> rfl

theorem isEmpty_fetchHeaders : (!(e.fetchHeaders true).isEmpty) = e.generatesHeaders := by
  rw [fetchHeaders_true]
  split
  · next h => simp [h]
  · next h => simp [h]

theorem readText_method (verb : Verb) : Code.readText s!"'{Text.upperCase verb.name}'" =
    some (Text.upperCase verb.name) := by
  cases verb <;> decide

theorem eval?_body :
    (if e.fetchSendsJson then
      Expr.call "JSON.stringify" [.name (e.operation.body.payload e.operation.forms)]
      else .name (e.operation.body.payload e.operation.forms)).eval? scope =
      some (e.bodyValue scope) := by
  unfold bodyValue
  split <;> rfl

theorem countP_setsPrototype_headerParts :
    (e.headerParts scope).countP Part.setsPrototype = 0 := by
  unfold headerParts
  cases e.fetchSendsJson <;> cases e.operation.headers.isSome <;> simp [Part.setsPrototype]

theorem countP_setsPrototype_initParts :
    (e.initParts scope).countP Part.setsPrototype = 0 := by
  unfold initParts
  cases e.generatesHeaders <;> cases e.fetchCarriesBody <;> simp [Part.setsPrototype]

theorem eval?_headers (h : e.generatesHeaders = true) :
    (Expr.object .spaced (e.fetchHeaders true)).eval? scope =
      some (.object (ownProperties (e.headerParts scope))) := by
  refine Code.eval?_object .spaced ?_ countP_setsPrototype_headerParts
  have hkey : Code.readKey (Code.literalKey "Content-Type") = some "Content-Type" := by decide
  have htype : Entry.part? scope (.property "Content-Type" (.quoted "application/json")) =
      some (.property "Content-Type" (.text "application/json")) :=
    Code.part?_property hkey (Code.eval?_quoted (by decide))
  rw [fetchHeaders_true, if_pos h, headerParts, Code.parts?_append, parts?_entryIf htype,
    Code.parts?_append, parts?_entryIf (Code.part?_spread_name "headers")]
  rfl

theorem eval?_fetchInit :
    (e.fetchInit true).eval? scope = some (.object (ownProperties (e.initParts scope))) := by
  refine Code.eval?_object .spaced ?_ countP_setsPrototype_initParts
  have hmethod : Code.readKey (Code.literalKey "method") = some "method" := by decide
  have hbody : Code.readKey (Code.literalKey "body") = some "body" := by decide
  have hheaders : Code.readKey (Code.literalKey "headers") = some "headers" := by decide
  have hown : parts? scope (entryIf e.generatesHeaders
      (.property "headers" (.object .spaced (e.fetchHeaders true)))) =
      some (if e.generatesHeaders then
        [.property "headers" (.object (ownProperties (e.headerParts scope)))] else []) := by
    cases h : e.generatesHeaders with
    | true => exact parts?_entryIf (Code.part?_property hheaders (eval?_headers h)) true
    | false => rfl
  have hmethodPart : Entry.part? scope
      (.property "method" (.quoted (Text.upperCase e.operation.verb.name))) =
        some (.property "method" (.text (Text.upperCase e.operation.verb.name))) :=
    Code.part?_property hmethod (Code.eval?_quoted (readText_method _))
  have hbodyPart := parts?_entryIf (Code.part?_property hbody (@eval?_body e scope))
  rw [isEmpty_fetchHeaders, List.append_assoc, List.append_assoc, Code.parts?_append,
    parts?_entryIf (Code.part?_spread_name "options"), Option.bind_some, Code.parts?_append,
    Code.parts?_cons hmethodPart rfl, Option.bind_some, Code.parts?_append, hown, hbodyPart]
  rfl

/-! ### What it holds -/

theorem ownProperties_headerParts (name : String) : ownProperties (e.headerParts scope) name =
    ((((scope.value "options").member "headers").own name).or (e.generatedHeader scope name)) := by
  unfold headerParts generatedHeader
  cases e.fetchSendsJson <;> cases e.operation.headers.isSome <;>
    by_cases hname : name = "Content-Type" <;> simp [ownProperties, Part.get?, hname]

theorem ownProperties_initParts (key : String) : ownProperties (e.initParts scope) key =
    if key = "body" ∧ e.fetchCarriesBody = true then some (e.bodyValue scope)
    else if key = "headers" ∧ e.generatesHeaders = true then
      some (.object (ownProperties (e.headerParts scope)))
    else if key = "method" then some (.text (Text.upperCase e.operation.verb.name))
    else (scope.value "options").own key := by
  unfold initParts
  cases e.generatesHeaders <;> cases e.fetchCarriesBody <;>
    by_cases hbody : key = "body" <;> by_cases hheaders : key = "headers" <;>
    by_cases hmethod : key = "method" <;> simp_all [ownProperties, Part.get?]

theorem inits_initParts :
    e.Inits scope (scope.value "options") (ownProperties (e.initParts scope)) := by
  refine ⟨?_, fun hbody => ?_, fun hheaders => ?_, fun key hmethod hbody hheaders => ?_⟩
  · rw [ownProperties_initParts]
    simp
  · rw [ownProperties_initParts, if_pos ⟨rfl, hbody⟩]
  · refine ⟨_, ?_, ownProperties_headerParts⟩
    rw [ownProperties_initParts, if_neg (by simp), if_pos ⟨rfl, hheaders⟩]
  · rw [ownProperties_initParts, if_neg, if_neg, if_neg hmethod]
    · exact fun h => by simp [hheaders h.1] at h
    · exact fun h => by simp [hbody h.1] at h

/-! ### The caller's headers -/

/-- The caller's headers are kept exactly if, where the function has headers of its own, each of
theirs is a property, or comes from the function anyway. -/
theorem Inits.keeps_headers_iff {options : Value} {init : String → Option Value}
    (h : e.Inits scope options init) :
    (∀ name value, (options.member "headers").HasHeader name value →
        ((init "headers").getD .undefined).HasHeader name value) ↔
      (e.generatesHeaders = true → ∀ name value, (options.member "headers").HasHeader name value →
        ((options.member "headers").own name).or (e.generatedHeader scope name) = some value) := by
  cases hg : e.generatesHeaders with
  | false =>
    have hkept : (init "headers").getD .undefined = options.member "headers" := by
      rw [h.other "headers" (by decide) (by simp) fun _ => hg, Value.member]
    simp [hkept]
  | true =>
    obtain ⟨headers, hinit, hheaders⟩ := h.headers hg
    simp only [hinit, Option.getD_some, Code.Value.hasHeader_object, hheaders, forall_const]

variable {ctx : Context} {exported generic : Bool}

theorem sendingArgs_fetchSender (output : OutputConfig) (h : e.takesOptions .fetch = true) :
    (e.fetchSender output).sendingArgs = [e.urlCall, e.fetchInit true] := by
  unfold fetchSender
  split
  · next mutator hm =>
    have htakes : e.takesOptions .mutator = true := by rw [← h]; simp [takesOptions, hm]
    rw [sendingArgs_fetchMutatorFunction, isSome_mutatorOptionsParam, htakes]
  · next hm =>
    have htaken : e.operation.overrides.requestOptions.isTaken = true := by
      rw [← h]; simp [takesOptions, hm]
    rw [sendingArgs_fetchFunction, htaken]

/-- A function over fetch that takes options, with a mutator or without, calls with an init object
made of them. Their headers are all in it exactly if the function has no headers of its own, or each
of theirs is a property, or comes from the function anyway. -/
theorem inits_keeps_headers_iff {f : RequestFunction}
    (hf : e.requestOver ctx exported generic .fetch = .ok f)
    (hopt : "options" ∈ f.params.flatMap Param.localNames) :
    ∃ init, f.sendingArgs = [e.urlCall, init] ∧ ∀ scope : Scope,
      ∃ own, init.eval? scope = some (.object own) ∧
        e.Inits scope (scope.value "options") own ∧
        ((∀ name value, ((scope.value "options").member "headers").HasHeader name value →
            ((own "headers").getD .undefined).HasHeader name value) ↔
          (e.generatesHeaders = true →
            ∀ name value, ((scope.value "options").member "headers").HasHeader name value →
              (((scope.value "options").member "headers").own name).or
                (e.generatedHeader scope name) = some value)) := by
  have htakes := (declares_options hf).mp hopt
  refine ⟨e.fetchInit true, ?_, fun scope => ?_⟩
  · cases requestOver_eq_ok_iff.mp hf with
    | fetch => exact sendingArgs_fetchSender ctx.output htakes
  · exact ⟨_, eval?_fetchInit, inits_initParts, inits_initParts.keeps_headers_iff⟩

end Endpoint

/-- A request with a JSON body. -/
def createPets : Endpoint where
  operation := {
    verb := .post
    operationName := "createPets"
    body := { definition := "CreatePetsBody", implementation := "createPetsBody" } }
  route := "/pets"
  pathRoute := "/pets"

/-- A scope in which the caller gives headers. -/
def headersScope (headers : Value) : Scope where
  value name :=
    if name = "options" then .object fun key => if key = "headers" then some headers else none
    else .undefined
  call _ _ := .undefined

def tracedObject : Value :=
  .object fun name => if name = "X-Trace" then some (.text "1") else none

def tracedHeaders : Value := .headers [("X-Trace", "1")]

/-- Of two callers that set `X-Trace`, the one whose headers are properties has it in the request,
and the one whose headers are kept inside an object has not. -/
theorem trace_lost_createPets : ∃ init kept lost,
    (createPets.fetchFunction {}).sendingArgs = [createPets.urlCall, init] ∧
    init.eval? (headersScope tracedObject) = some (.object kept) ∧
    ((kept "headers").getD .undefined).HasHeader "X-Trace" (.text "1") ∧
    init.eval? (headersScope tracedHeaders) = some (.object lost) ∧
    tracedHeaders.HasHeader "X-Trace" (.text "1") ∧
    ¬ ((lost "headers").getD .undefined).HasHeader "X-Trace" (.text "1") := by
  have hf : createPets.requestOver {} false true .fetch = .ok _ := rfl
  obtain ⟨init, hargs, hinit⟩ := Endpoint.inits_keeps_headers_iff hf (by decide)
  obtain ⟨kept, hkept, -, hkeeps⟩ := hinit (headersScope tracedObject)
  obtain ⟨lost, hlost, hinits, -⟩ := hinit (headersScope tracedHeaders)
  refine ⟨init, kept, lost, hargs, hkept, ?_, hlost, .headers (by simp), ?_⟩
  · refine hkeeps.mpr (fun _ name value h => ?_) "X-Trace" _ (.object rfl)
    have hown : tracedObject.own name = some value := Code.Value.hasHeader_object.mp h
    exact congrArg (Option.or · _) hown
  · obtain ⟨headers, hheaders, hown⟩ := hinits.headers (by decide)
    have hnone : headers "X-Trace" = none := (hown "X-Trace").trans rfl
    simp [hheaders, Code.Value.hasHeader_object, hnone]

end RequestGen
