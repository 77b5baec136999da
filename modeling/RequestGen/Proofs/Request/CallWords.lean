import Mathlib.Tactic.SplitIfs
import RequestGen.Proofs.Code.References
import RequestGen.Proofs.Request.LiteralOptions
import RequestGen.Proofs.Request.LocalNames

/-! # The words of a call

The arguments of a call are made of texts of the operation (`Endpoint.callTexts`) and of the words
that every call is written with (`callWords`). So a name that is foreign to both gets
into the arguments in one way only, as the caller's options: `mentions_axiosCallArgs` and the lemmas
about a mutator's arguments say where these stand. -/

namespace RequestGen

open Code (Expr Entry)

/-- The words that a call over axios or of a mutator may hold, but for `options`. -/
def callWords : List String :=
  ["params", "headers", "signal", "blob", "text", "qs", "stringify", "undefined", "formData",
    "formUrlEncoded", "data", "responseType", "paramsSerializer", "url", "method", "Content",
    "Type"] ++
    Verb.all.map fun verb => Text.upperCase verb.name

theorem isPlainName_of_mem_callWords : ∀ word ∈ callWords, IsPlainName word := by decide

/-- A name that no call holds of itself. -/
structure IsForeign (name : String) : Prop where
  plain : IsPlainName name
  notMem : name ∉ callWords

instance (name : String) : Decidable (IsForeign name) :=
  decidable_of_iff (IsPlainName name ∧ name ∉ callWords)
    ⟨fun h => ⟨h.1, h.2⟩, fun h => ⟨h.plain, h.notMem⟩⟩

theorem isForeign_options : IsForeign "options" := by decide

namespace IsForeign

variable {name : String} (hn : IsForeign name)

include hn

theorem word {word : String} (h : word ∈ callWords) : refersTo word name = false := by
  rw [refersTo_of_isNameChar hn.plain (isPlainName_of_mem_callWords word h).2,
    decide_eq_false_iff_not]
  rintro rfl
  exact hn.notMem h

theorem verb (verb : Verb) : refersTo (Text.upperCase verb.name) name = false := by
  refine hn.word (List.mem_append_right _ (List.mem_map.mpr ⟨verb, ?_, rfl⟩))
  cases verb <;> decide

theorem key {key : String} (h : key ∈ callWords) (hid : Naming.isIdentifier key = true) :
    refersTo (Code.literalKey key) name = false := by
  rw [Code.literalKey, if_pos hid]
  exact hn.word h

theorem contentType : refersTo (Code.literalKey "Content-Type") name = false := by
  have h : Code.literalKey "Content-Type" = "'" ++ ("Content" ++ "-" ++ "Type") ++ "'" := by decide
  rw [h, refersTo_append_mark hn.plain (by decide), refersTo_mark_append hn.plain (by decide),
    refersTo_append_mark_append hn.plain (by decide), hn.word (by decide), hn.word (by decide)]
  rfl

theorem queryWriter : refersTo "(params) => qs.stringify(params, " name = false := by
  have h : "(params) => qs.stringify(params, " =
      "(" ++ ("params" ++ ") => " ++ "qs" ++ "." ++ "stringify" ++ "(" ++ "params") ++ ", " := by
    decide
  rw [h, refersTo_append_mark hn.plain (by decide), refersTo_mark_append hn.plain (by decide),
    refersTo_append_mark_append hn.plain (by decide),
    refersTo_append_mark_append hn.plain (by decide),
    refersTo_append_mark_append hn.plain (by decide), hn.word (by decide), hn.word (by decide),
    hn.word (by decide)]
  rfl

end IsForeign

namespace Endpoint

/-- The texts of an operation that the call of its function holds as they are. Options and settings
that are given as values are here as the code writes them. -/
def callTexts (e : Endpoint) : List String :=
  let op := e.operation
  [e.route, op.body.implementation, op.body.contentType] ++
    op.urlArguments.map (·.passed) ++
    (op.serializer.map (·.name)).toList ++
    (op.overrides.serializerOptions.map fun o => Json.ascii (.obj (o.qs.getD []))).toList ++
    op.overrides.requestOptions.fields.flatMap fun (key, value) =>
      [Code.literalKey key, Code.literal value]

end Endpoint

@[simp] theorem any_entryIf (condition : Bool) (entry : Entry) (p : Entry → Bool) :
    (entryIf condition entry).any p = (condition && p entry) := by
  cases condition <;> simp [entryIf]

variable {name : String}

theorem mentions_literals {fields : Json.Fields}
    (h : ∀ field ∈ fields, refersTo (Code.literalKey field.1) name = false ∧
      refersTo (Code.literal field.2) name = false) :
    (Entry.literals fields).any (·.mentions name) = false := by
  rw [Entry.literals, List.any_map, List.any_eq_false]
  intro field hmem
  simp [Entry.literal, h field hmem]

theorem AxiosConfig.mentions_args (config : AxiosConfig) :
    config.args.any (·.mentions name) = config.spreadEntries.any (·.mentions name) := by
  cases config with
  | absent => rfl
  | forwarded => rfl
  | object entries => simp [args, spreadEntries]

theorem Body.payload_eq (b : Body) (forms : FormSupport) :
    b.payload forms = "formData" ∨ b.payload forms = "formUrlEncoded" ∨
      b.payload forms = b.implementation := by
  unfold payload
  split
  · next encoding _ => cases encoding <;> simp [FormEncoding.identifier]
  · exact .inr (.inr rfl)

section

variable (hn : IsForeign name)

include hn

theorem mentions_signalEntry (exactOptional : Bool) :
    (signalEntry exactOptional).mentions name = false := by
  have hsignal : refersTo "signal" name = false := hn.word (by decide)
  unfold signalEntry
  split <;> simp [hsignal]

theorem Body.not_refersTo_payload {b : Body} {forms : FormSupport}
    (h : refersTo b.implementation name = false) : refersTo (b.payload forms) name = false := by
  rcases b.payload_eq forms with hp | hp | hp <;> rw [hp]
  · exact hn.word (by decide)
  · exact hn.word (by decide)
  · exact h

/-! ### The config of an axios call -/

namespace ConfigInput

variable {c : ConfigInput}

theorem mentions_ownEntries : c.ownEntries.any (·.mentions name) = false := by
  have hparams : refersTo "params" name = false := hn.word (by decide)
  have hheaders : refersTo "headers" name = false := hn.word (by decide)
  unfold ownEntries
  split
  · rfl
  · simp [hparams, hheaders, mentions_signalEntry hn]

theorem mentions_responseTypeEntries :
    c.responseTypeEntries.any (·.mentions name) = false := by
  have hkey : refersTo (Code.literalKey "responseType") name = false :=
    hn.key (by decide) (by decide)
  have hblob : refersTo "blob" name = false := hn.word (by decide)
  have htext : refersTo "text" name = false := hn.word (by decide)
  unfold responseTypeEntries
  split_ifs <;> simp [hkey, hblob, htext]

theorem mentions_callerEntries :
    c.callerEntries.any (·.mentions name) =
      (c.requestOptions.isTaken && refersTo "options" name) := by
  have hmerged (key : String) (hkey : refersTo (Code.literalKey key) name = false)
      (hword : refersTo key name = false) :
      (merged key).mentions name = refersTo "options" name := by
    simp [merged, hkey, hword]
  have hparams := hmerged "params" (hn.key (by decide) (by decide)) (hn.word (by decide))
  have hheaders := hmerged "headers" (hn.key (by decide) (by decide)) (hn.word (by decide))
  unfold callerEntries
  split
  · next h =>
    simp only [List.cons_append, List.any_cons, List.any_append, Entry.mentions_spread,
      Expr.mentions_name, any_entryIf, hparams, hheaders, h, Bool.true_and]
    cases refersTo "options" name <;> simp
  · next h => simp [Bool.eq_false_iff.mpr h]

theorem mentions_serializerEntries
    (hs : ∀ s, c.serializer = some s → refersTo s.name name = false)
    (ho : ∀ o, c.serializerOptions = some o →
      refersTo (Json.ascii (.obj (o.qs.getD []))) name = false) :
    c.serializerEntries.any (·.mentions name) = false := by
  have hkey : refersTo (Code.literalKey "paramsSerializer") name = false :=
    hn.key (by decide) (by decide)
  have hwriter := hn.queryWriter
  unfold serializerEntries
  split
  · split
    · next s h => simp [hkey, hs s h]
    · split
      · next o h =>
        split
        · simp [hkey, hwriter, ho o h]
        · rfl
      · rfl
  · rfl

end ConfigInput

/-! ### The config of a mutator call -/

namespace MutatorInput

variable {m : MutatorInput}

theorem mentions_headerEntries (ht : refersTo m.body.contentType name = false) :
    m.headerEntries.any (·.mentions name) = false := by
  have hheaders : refersTo "headers" name = false := hn.word (by decide)
  have hkey : refersTo (Code.literalKey "headers") name = false :=
    hn.key (by decide) (by decide)
  have htype := hn.contentType
  unfold headerEntries
  split <;> simp [hheaders, hkey, htype, ht]

theorem mentions_dataEntries (hp : refersTo (m.body.payload m.forms) name = false) :
    m.dataEntries.any (·.mentions name) = false := by
  have hkey : refersTo (Code.literalKey "data") name = false :=
    hn.key (by decide) (by decide)
  unfold dataEntries
  split
  · simp [hkey, hp]
  · rfl

theorem mentions_config (hroute : refersTo m.route name = false)
    (hmethod : refersTo (Text.upperCase m.method) name = false)
    (ht : refersTo m.body.contentType name = false)
    (hp : refersTo (m.body.payload m.forms) name = false) :
    m.config.mentions name = false := by
  have hquery : (queryEntries m.response m.queryParams).any (·.mentions name) = false := by
    have hparams : refersTo "params" name = false := hn.word (by decide)
    have hblob : refersTo "blob" name = false := hn.word (by decide)
    have hkey : refersTo (Code.literalKey "responseType") name = false :=
      hn.key (by decide) (by decide)
    simp [queryEntries, hparams, hblob, hkey]
  have hurl : refersTo (Code.literalKey "url") name = false :=
    hn.key (by decide) (by decide)
  have hkey : refersTo (Code.literalKey "method") name = false :=
    hn.key (by decide) (by decide)
  unfold config
  simp only [Expr.mentions_object, List.any_append, mentions_headerEntries hn ht,
    mentions_dataEntries hn hp, hquery, any_entryIf, mentions_signalEntry hn]
  simp [hroute, hmethod, hurl, hkey]

end MutatorInput

/-! ### The calls of an operation -/

namespace Endpoint

variable {ctx : Context} {e : Endpoint}
  (hown : ∀ text ∈ e.callTexts, refersTo text name = false)

include hown

omit hn in
theorem not_refersTo_route : refersTo e.route name = false :=
  hown _ (by simp [callTexts])

theorem not_refersTo_callBody_payload (forms : FormSupport) :
    refersTo (e.operation.callBody.payload forms) name = false := by
  refine Body.not_refersTo_payload hn ?_
  unfold Operation.callBody
  split
  · exact hn.word (by decide : "data" ∈ callWords)
  · exact hown _ (by simp [callTexts])

omit hn in
theorem mentions_literalOptions :
    (Entry.literals e.operation.overrides.requestOptions.fields).any (·.mentions name) = false :=
  mentions_literals fun field hmem =>
    ⟨hown _ (List.mem_append_right _ (List.mem_flatMap.mpr ⟨field, hmem, by simp⟩)),
      hown _ (List.mem_append_right _ (List.mem_flatMap.mpr ⟨field, hmem, by simp⟩))⟩

/-- The entries of a config hold the caller's options if they are taken, and no other foreign
name. -/
theorem mentions_configEntries :
    (e.configInput ctx).entries.any (·.mentions name) =
      (e.operation.overrides.requestOptions.isTaken && refersTo "options" name) := by
  have hserializer : (e.configInput ctx).serializerEntries.any (·.mentions name) = false :=
    ConfigInput.mentions_serializerEntries hn
      (fun s hs => hown _ (by
        have hs : e.operation.serializer = some s := hs
        simp [callTexts, hs]))
      (fun o ho => hown _ (by
        have ho : e.operation.overrides.serializerOptions = some o := ho
        simp [callTexts, ho]))
  have hliterals :
      (Entry.literals (e.configInput ctx).requestOptions.fields).any (·.mentions name) = false :=
    mentions_literalOptions hown
  rw [ConfigInput.entries, List.any_append, List.any_append, List.any_append, List.any_append,
    ConfigInput.mentions_ownEntries hn, ConfigInput.mentions_responseTypeEntries hn,
    ConfigInput.mentions_callerEntries hn, hserializer, hliterals]
  simp only [Bool.false_or, Bool.or_false]
  rfl

theorem mentions_config :
    (e.configInput ctx).config.spreadEntries.any (·.mentions name) =
      (e.operation.overrides.requestOptions.isTaken && refersTo "options" name) := by
  have hentries : (e.configInput ctx).entries.any (·.mentions name) = _ :=
    mentions_configEntries hn hown
  have htaken : (e.configInput ctx).requestOptions = e.operation.overrides.requestOptions := rfl
  rw [ConfigInput.spreadEntries_config, htaken]
  split
  · exact hentries
  · cases e.operation.overrides.requestOptions.isTaken with
    | true => simp
    | false => rfl

/-- The arguments of an axios call hold the caller's options if they are taken, and no other
foreign name. -/
theorem mentions_axiosCallArgs :
    (e.axiosCallArgs ctx).any (·.mentions name) =
      (e.operation.overrides.requestOptions.isTaken && refersTo "options" name) := by
  have hroute := not_refersTo_route hown
  have hpayload : refersTo (if carriesBody e.operation.verb.name then
      e.operation.callBody.payload e.operation.forms else "") name = false := by
    split
    · exact not_refersTo_callBody_payload hn hown e.operation.forms
    · exact refersTo_empty hn.plain
  have hdata : refersTo (Code.literalKey "data") name = false :=
    hn.key (by decide) (by decide)
  have hundefined : refersTo "undefined" name = false := hn.word (by decide)
  have hconfig : (e.configInput ctx).config.spreadEntries.any (·.mentions name) = _ :=
    mentions_config hn hown
  unfold axiosCallArgs axiosArgs
  generalize (if carriesBody e.operation.verb.name then
    e.operation.callBody.payload e.operation.forms else "") = payload at hpayload
  dsimp only
  split_ifs <;>
    simp [hroute, hpayload, hdata, hundefined, hconfig, AxiosConfig.mentions_args]

theorem mentions_mutatorConfig : (e.mutatorConfig ctx).mentions name = false := by
  refine MutatorInput.mentions_config hn (not_refersTo_route hown) (hn.verb e.operation.verb) ?_
    (not_refersTo_callBody_payload hn hown e.operation.forms)
  show refersTo e.operation.callBody.contentType name = false
  unfold Operation.callBody
  split <;> exact hown _ (by simp [callTexts])

omit hn in
/-- The second argument of a mutator is, or ends with, the caller's options if the mutator takes
them. -/
theorem mentions_mutatorSecondArgument {mutator : Mutator}
    (hm : e.operation.mutator = some mutator) :
    (e.mutatorSecondArgument mutator).toList.any (·.mentions name) =
      (e.takesOptions .mutator && refersTo "options" name) := by
  unfold mutatorSecondArgument takesOptions mutatorOptions
  rw [hm]
  cases ho : e.operation.overrides.requestOptions with
  | drop => rfl
  | forward => cases hsecond : mutator.hasSecondArg <;> simp [RequestOptions.isTaken, hsecond]
  | literal fields =>
    have hliterals := mentions_literalOptions hown
    rw [ho] at hliterals
    have hliterals : (Entry.literals fields).any (·.mentions name) = false := hliterals
    cases hsecond : mutator.hasSecondArg <;>
      simp [RequestOptions.isTaken, hliterals, hsecond]

end Endpoint

end

end RequestGen
