import Mathlib.Data.List.Nodup
import Mathlib.Data.List.Pairwise
import RequestGen.Proofs.Code.QuotedTexts
import RequestGen.Proofs.Request.ConfigEntries

/-! # The properties that a config names

The config of an axios call is an object of what the call sets by default, of the literal options,
and of what the call sets in any case, in this order; the body of a deletion comes first. No two of
the call's own entries name one property. Literal options are only asked whether one of them is the
kind of the response, so every other entry of the call may get the name of a literal option.
`names_once_iff` says when no property is named twice, and when no literal option is shadowed by an
entry of the call's own behind it. -/

namespace RequestGen

open Code (Expr Entry propertyName)

/-! ### Names of entries -/

/-- The name of the property that an entry sets. A spread names none. -/
def Code.Entry.propertyName? : Entry → Option String
  | .shorthand name => some name
  | .property key _ => some (propertyName key)
  | .spread _ => none

def Code.Entry.isLiteral : Entry → Bool
  | .property _ (.literal _) => true
  | _ => false

/-- The names of the properties that an object literal sets by name, in order. -/
def propertyNames (entries : List Entry) : List String := entries.filterMap Entry.propertyName?

/-- Whether an entry of the call's own sets the property of a literal option. -/
def Shadows (own option : Entry) : Prop :=
  own.isLiteral = false ∧ option.isLiteral = true ∧
    ∃ name, own.propertyName? = some name ∧ option.propertyName? = some name

/-- Whether no object among the arguments names a property twice. -/
def NamesOnce (args : List Expr) : Prop :=
  ∀ layout entries, .object layout entries ∈ args → (propertyNames entries).Nodup

/-- Whether no object among the arguments has a literal option and behind it an entry of the call's
own that shadows it. -/
def ShadowsNone (args : List Expr) : Prop :=
  ∀ layout entries, .object layout entries ∈ args →
    entries.Pairwise fun earlier later => ¬ Shadows later earlier

theorem propertyNames_append (front back : List Entry) :
    propertyNames (front ++ back) = propertyNames front ++ propertyNames back :=
  List.filterMap_append

theorem propertyNames_literals (fields : Json.Fields) :
    propertyNames (Entry.literals fields) = fields.map fun field => propertyName field.1 := by
  rw [propertyNames, Entry.literals, List.filterMap_map]
  exact congrFun List.filterMap_eq_map fields

theorem mem_propertyNames {name : String} {entries : List Entry} :
    name ∈ propertyNames entries ↔ ∃ entry ∈ entries, entry.propertyName? = some name :=
  List.mem_filterMap

theorem names_sublist {entries : List Entry} {name : String} (hlength : entries.length ≤ 1)
    (h : ∀ entry ∈ entries, ∀ other, entry.propertyName? = some other → other = name) :
    (propertyNames entries).Sublist [name] := by
  match entries with
  | [] => exact List.nil_sublist _
  | [entry] =>
    rw [propertyNames, List.filterMap_cons, List.filterMap_nil]
    cases hname : entry.propertyName? with
    | none => exact List.nil_sublist _
    | some other =>
      rw [h entry List.mem_cons_self other hname]

theorem names_entryIf_sublist {entry : Entry} {name : String}
    (h : ∀ other, entry.propertyName? = some other → other = name) (condition : Bool) :
    (propertyNames (entryIf condition entry)).Sublist [name] := by
  refine names_sublist ?_ ?_
  · unfold entryIf
    split <;> simp
  · intro e he
    obtain ⟨-, rfl⟩ := mem_entryIf.mp he
    exact h

theorem nodup_between_iff {front middle back : List String} (h : (front ++ back).Nodup) :
    (front ++ (middle ++ back)).Nodup ↔
      middle.Nodup ∧ ∀ name ∈ middle, name ∉ front ∧ name ∉ back := by
  have hperm : (front ++ (middle ++ back)).Perm (middle ++ (front ++ back)) := by
    rw [← List.append_assoc, ← List.append_assoc]
    exact List.perm_append_comm.append_right back
  rw [hperm.nodup_iff, List.nodup_append]
  constructor
  · rintro ⟨hmiddle, -, hapart⟩
    refine ⟨hmiddle, ?_⟩
    intro name hname
    constructor
    · intro hfront
      exact hapart name hname name (List.mem_append_left _ hfront) rfl
    · intro hback
      exact hapart name hname name (List.mem_append_right _ hback) rfl
  · rintro ⟨hmiddle, hapart⟩
    refine ⟨hmiddle, h, ?_⟩
    rintro name hname _ hother rfl
    rcases List.mem_append.mp hother with hfront | hback
    · exact (hapart name hname).1 hfront
    · exact (hapart name hname).2 hback

/-! ### The objects of a call -/

/-- The entry of the body of a deletion. -/
def bodyEntries (method payload : String) : List Entry :=
  if method = "delete" ∧ payload ≠ "" then [.property "data" (.name payload)] else []

theorem forall_object_axiosArgs {P : List Entry → Prop} (hnil : P [])
    (hoptions : P [.spread (.name "options")]) (c : ConfigInput) (route method : String)
    (body : Body) (forms : FormSupport) :
    (∀ layout entries, .object layout entries ∈ axiosArgs route method body forms c → P entries) ↔
      P (bodyEntries method (body.payload forms) ++ c.config.spreadEntries) := by
  by_cases h : method = "delete" ∧ body.payload forms ≠ ""
  · obtain ⟨rfl, hbody⟩ := h
    rw [axiosArgs_delete c route hbody]
    simp [bodyEntries, hbody]
  · obtain ⟨front, hfront, hargs⟩ := exists_axiosArgs_eq c route h
    rw [hargs, bodyEntries, if_neg h, List.nil_append]
    cases c.config with
    | absent => simp [AxiosConfig.args, AxiosConfig.spreadEntries, hfront, hnil]
    | forwarded => simp [AxiosConfig.args, AxiosConfig.spreadEntries, hfront, hoptions]
    | object entries => simp [AxiosConfig.args, AxiosConfig.spreadEntries, hfront]

namespace ConfigInput

variable (c : ConfigInput)

/-- The property that the call sets in front of the literal options. -/
def SetsDefault (name : String) : Prop :=
  name = "responseType" ∧ c.responseKind?.isSome = true ∧
    Json.Fields.has c.requestOptions.fields "responseType" = false

/-- The properties that the call sets behind the literal options. -/
inductive SetsBehind : String → Prop where
  | params (h : c.queryParams.isSome = true) : SetsBehind "params"
  | headers (h : c.headers.isSome = true) : SetsBehind "headers"
  | serializer (h : c.queryParams.isSome = true) (hvalue : c.serializerValue?.isSome = true) :
      SetsBehind "paramsSerializer"

theorem SetsBehind.mem {c : ConfigInput} {name : String} (h : c.SetsBehind name) :
    name ∈ ["params", "headers", "paramsSerializer"] := by
  cases h <;> simp

/-- The names of the literal options. -/
def optionNames : List String := c.requestOptions.fields.map fun field => propertyName field.1

variable {c}

theorem mem_names_responseTypeEntries {name : String} :
    name ∈ propertyNames c.responseTypeEntries ↔ c.SetsDefault name := by
  have hkey : propertyName "responseType" = "responseType" := by decide
  rw [mem_propertyNames]
  constructor
  · rintro ⟨entry, hentry, hname⟩
    obtain ⟨hown, kind, hkind, rfl⟩ := mem_responseTypeEntries_iff.mp hentry
    refine ⟨?_, by simp [hkind], hown⟩
    exact (Option.some.inj hname).symm.trans hkey
  · rintro ⟨rfl, hkind, hown⟩
    obtain ⟨kind, hkind⟩ := Option.isSome_iff_exists.mp hkind
    exact ⟨_, mem_responseTypeEntries_iff.mpr ⟨hown, kind, hkind, rfl⟩, congrArg some hkey⟩

theorem mem_names_behind (ht : c.requestOptions.isTaken = true) {name : String} :
    name ∈ propertyNames (c.callerEntries ++ c.serializerEntries) ↔ c.SetsBehind name := by
  have hparams : propertyName "params" = "params" := by decide
  have hheaders : propertyName "headers" = "headers" := by decide
  have hserializer : propertyName "paramsSerializer" = "paramsSerializer" := by decide
  rw [propertyNames_append, List.mem_append, mem_propertyNames, mem_propertyNames]
  constructor
  · rintro (⟨entry, hentry, hname⟩ | ⟨entry, hentry, hname⟩)
    · rcases (mem_callerEntries_iff.mp hentry).2 with rfl | ⟨hquery, rfl⟩ | ⟨hheader, rfl⟩
      · exact nomatch hname
      · obtain rfl := hparams.symm.trans (Option.some.inj hname)
        exact .params hquery
      · obtain rfl := hheaders.symm.trans (Option.some.inj hname)
        exact .headers hheader
    · obtain ⟨hquery, value, hvalue, rfl⟩ := mem_serializerEntries_iff.mp hentry
      obtain rfl := hserializer.symm.trans (Option.some.inj hname)
      exact .serializer hquery (by simp [hvalue])
  · intro h
    cases h with
    | params hquery =>
      exact .inl ⟨_, mem_callerEntries_iff.mpr ⟨ht, .inr (.inl ⟨hquery, rfl⟩)⟩,
        congrArg some hparams⟩
    | headers hheader =>
      exact .inl ⟨_, mem_callerEntries_iff.mpr ⟨ht, .inr (.inr ⟨hheader, rfl⟩)⟩,
        congrArg some hheaders⟩
    | serializer hquery hvalue =>
      obtain ⟨value, hvalue⟩ := Option.isSome_iff_exists.mp hvalue
      exact .inr ⟨_, mem_serializerEntries_iff.mpr ⟨hquery, value, hvalue, rfl⟩,
        congrArg some hserializer⟩

/-! ### The call's own names -/

variable (c)

theorem names_responseTypeEntries_sublist :
    (propertyNames c.responseTypeEntries).Sublist ["responseType"] := by
  refine names_sublist ?_ ?_
  · unfold responseTypeEntries
    split_ifs <;> simp
  · intro entry hentry other hother
    exact (mem_names_responseTypeEntries.mp
      (mem_propertyNames.mpr ⟨entry, hentry, hother⟩)).1

theorem names_serializerEntries_sublist :
    (propertyNames c.serializerEntries).Sublist ["paramsSerializer"] := by
  have hkey : propertyName "paramsSerializer" = "paramsSerializer" := by decide
  refine names_sublist ?_ ?_
  · unfold serializerEntries
    repeat' split
    all_goals simp
  · intro entry hentry other hother
    obtain ⟨-, value, -, rfl⟩ := mem_serializerEntries_iff.mp hentry
    exact (Option.some.inj hother).symm.trans hkey

theorem names_callerEntries_sublist :
    (propertyNames c.callerEntries).Sublist ["params", "headers"] := by
  have hkey {key : String} (h : propertyName key = key) :
      ∀ other, (merged key).propertyName? = some other → other = key :=
    fun other hother => (Option.some.inj hother).symm.trans h
  unfold callerEntries
  split
  · have hfront : propertyNames (.spread (.name "options") ::
        entryIf c.queryParams.isSome (merged "params") ++
          entryIf c.headers.isSome (merged "headers")) =
        propertyNames (entryIf c.queryParams.isSome (merged "params")) ++
          propertyNames (entryIf c.headers.isSome (merged "headers")) := by
      rw [← propertyNames_append]
      rfl
    rw [hfront]
    exact (names_entryIf_sublist (hkey (by decide)) _).append
      (names_entryIf_sublist (hkey (by decide)) _)
  · exact List.nil_sublist _

theorem name_signalEntry (other : String)
    (h : (signalEntry c.exactOptional).propertyName? = some other) : other = "signal" := by
  unfold signalEntry at h
  split at h
  · exact nomatch h
  · exact (Option.some.inj h).symm

theorem names_ownEntries_sublist :
    (propertyNames c.ownEntries).Sublist ["params", "headers", "signal"] := by
  have hname (name : String) : ∀ other, (Entry.shorthand name).propertyName? = some other →
      other = name :=
    fun other hother => (Option.some.inj hother).symm
  unfold ownEntries
  split
  · exact List.nil_sublist _
  · rw [propertyNames_append, propertyNames_append]
    exact ((names_entryIf_sublist (hname "params") _).append
      (names_entryIf_sublist (hname "headers") _)).append
        (names_entryIf_sublist c.name_signalEntry _)

end ConfigInput

section Body

variable {method payload : String}

theorem mem_names_bodyEntries {name : String} : name ∈ propertyNames (bodyEntries method payload) ↔
    name = "data" ∧ method = "delete" ∧ payload ≠ "" := by
  have hkey : propertyName "data" = "data" := by decide
  unfold bodyEntries
  split
  · next h => simp [propertyNames, Entry.propertyName?, hkey, h]
  · next h =>
    constructor
    · intro hname
      exact nomatch hname
    · exact fun hname => absurd hname.2 h

variable (method payload) in
theorem names_bodyEntries_sublist :
    (propertyNames (bodyEntries method payload)).Sublist ["data"] := by
  refine names_sublist ?_ ?_
  · unfold bodyEntries
    split <;> simp
  · intro entry hentry other hother
    exact (mem_names_bodyEntries.mp (mem_propertyNames.mpr ⟨entry, hentry, hother⟩)).1

end Body

theorem nodup_names_around (c : ConfigInput) (method payload : String) :
    (propertyNames (bodyEntries method payload ++ (c.ownEntries ++ c.responseTypeEntries)) ++
      propertyNames (c.callerEntries ++ c.serializerEntries)).Nodup := by
  rw [propertyNames_append, propertyNames_append, propertyNames_append]
  cases ht : c.requestOptions.isTaken with
  | true =>
    have hown : c.ownEntries = [] := by
      rw [ConfigInput.ownEntries, ht, if_pos rfl]
    have hsub := ((names_bodyEntries_sublist method payload).append
      c.names_responseTypeEntries_sublist).append
        (c.names_callerEntries_sublist.append c.names_serializerEntries_sublist)
    rw [hown]
    exact hsub.nodup (by decide)
  | false =>
    have hcaller : c.callerEntries = [] := by
      rw [ConfigInput.callerEntries, ht, if_neg Bool.false_ne_true]
    have hsub := ((names_bodyEntries_sublist method payload).append
      (c.names_ownEntries_sublist.append c.names_responseTypeEntries_sublist)).append
        c.names_serializerEntries_sublist
    rw [hcaller]
    exact hsub.nodup (by decide)

/-! ### Literal options among them -/

theorem pairwise_of_own {entries : List Entry} (h : ∀ entry ∈ entries, entry.isLiteral = false) :
    entries.Pairwise fun earlier later => ¬ Shadows later earlier := by
  refine List.pairwise_of_forall_mem_list ?_
  intro earlier hearlier later _ hshadows
  exact absurd ((h earlier hearlier).symm.trans hshadows.2.1) (by decide)

theorem pairwise_between_iff {front options behind : List Entry}
    (hfront : ∀ entry ∈ front, entry.isLiteral = false)
    (hoptions : ∀ entry ∈ options, entry.isLiteral = true)
    (hbehind : ∀ entry ∈ behind, entry.isLiteral = false) :
    (front ++ (options ++ behind)).Pairwise (fun earlier later => ¬ Shadows later earlier) ↔
      ∀ name ∈ propertyNames options, name ∉ propertyNames behind := by
  have hsame : options.Pairwise fun earlier later => ¬ Shadows later earlier := by
    refine List.pairwise_of_forall_mem_list ?_
    intro earlier _ later hlater hshadows
    exact absurd ((hoptions later hlater).symm.trans hshadows.1) (by decide)
  rw [List.pairwise_append, List.pairwise_append]
  constructor
  · rintro ⟨-, ⟨-, -, hnone⟩, -⟩ name hname hbehind'
    obtain ⟨option, hoption, hoptionName⟩ := mem_propertyNames.mp hname
    obtain ⟨own, hown, hownName⟩ := mem_propertyNames.mp hbehind'
    exact hnone option hoption own hown
      ⟨hbehind own hown, hoptions option hoption, name, hownName, hoptionName⟩
  · intro h
    refine ⟨pairwise_of_own hfront, ⟨hsame, pairwise_of_own hbehind, ?_⟩, ?_⟩
    · rintro option hoption own hown ⟨-, -, name, hownName, hoptionName⟩
      exact h name (mem_propertyNames.mpr ⟨option, hoption, hoptionName⟩)
        (mem_propertyNames.mpr ⟨own, hown, hownName⟩)
    · intro entry hentry later _ hshadows
      exact absurd ((hfront entry hentry).symm.trans hshadows.2.1) (by decide)

theorem isLiteral_of_mem_literals {fields : Json.Fields} :
    ∀ entry ∈ Entry.literals fields, entry.isLiteral = true := by
  intro entry hentry
  obtain ⟨field, -, rfl⟩ := mem_literals_iff.mp hentry
  rfl

theorem isLiteral_of_mem_front {c : ConfigInput} {method payload : String} :
    ∀ entry ∈ bodyEntries method payload ++ (c.ownEntries ++ c.responseTypeEntries),
      entry.isLiteral = false := by
  intro entry hentry
  rcases List.mem_append.mp hentry with hbody | hentry
  · unfold bodyEntries at hbody
    split at hbody
    · rw [List.mem_singleton.mp hbody]
      rfl
    · exact nomatch hbody
  rcases List.mem_append.mp hentry with hown | hkind
  · rcases (ConfigInput.mem_ownEntries_iff.mp hown).2 with ⟨-, rfl⟩ | ⟨-, rfl⟩ | ⟨-, rfl⟩
    · rfl
    · rfl
    · unfold signalEntry
      split <;> rfl
  · obtain ⟨-, kind, -, rfl⟩ := ConfigInput.mem_responseTypeEntries_iff.mp hkind
    rfl

theorem isLiteral_of_mem_behind {c : ConfigInput} :
    ∀ entry ∈ c.callerEntries ++ c.serializerEntries, entry.isLiteral = false := by
  intro entry hentry
  rcases List.mem_append.mp hentry with hcaller | hserializer
  · rcases (ConfigInput.mem_callerEntries_iff.mp hcaller).2 with rfl | ⟨-, rfl⟩ | ⟨-, rfl⟩ <;> rfl
  · obtain ⟨-, value, hvalue, rfl⟩ := ConfigInput.mem_serializerEntries_iff.mp hserializer
    unfold ConfigInput.serializerValue? at hvalue
    split at hvalue
    · rw [← Option.some.inj hvalue]
      rfl
    · obtain ⟨options, -, rfl⟩ := Option.map_eq_some_iff.mp hvalue
      rfl

/-! ### The config -/

section Config

variable (c : ConfigInput) (method payload : String)

theorem entries_around : bodyEntries method payload ++ c.entries =
    (bodyEntries method payload ++ (c.ownEntries ++ c.responseTypeEntries)) ++
      (Entry.literals c.requestOptions.fields ++ (c.callerEntries ++ c.serializerEntries)) := by
  simp [ConfigInput.entries]

theorem nodup_names_unneeded (hn : ¬ c.needsConfig = true) :
    (propertyNames (bodyEntries method payload ++ c.config.spreadEntries)).Nodup := by
  have hsignal : (propertyNames c.config.spreadEntries).Sublist ["signal"] := by
    rw [ConfigInput.spreadEntries_config, if_neg hn]
    split
    · exact List.nil_sublist _
    · exact names_entryIf_sublist c.name_signalEntry _
  rw [propertyNames_append]
  exact ((names_bodyEntries_sublist method payload).append hsignal).nodup (by decide)

theorem isLiteral_of_mem_unneeded (hn : ¬ c.needsConfig = true) :
    ∀ entry ∈ bodyEntries method payload ++ c.config.spreadEntries, entry.isLiteral = false := by
  intro entry hentry
  rcases List.mem_append.mp hentry with hbody | hentry
  · exact isLiteral_of_mem_front (c := c) entry (List.mem_append_left _ hbody)
  rw [ConfigInput.spreadEntries_config, if_neg hn] at hentry
  split at hentry
  · rw [List.mem_singleton.mp hentry]
    rfl
  · obtain ⟨-, rfl⟩ := mem_entryIf.mp hentry
    unfold signalEntry
    split <;> rfl

variable {c}

theorem isTaken_of_mem_optionNames {name : String} (h : name ∈ c.optionNames) :
    c.requestOptions.isTaken = true := by
  unfold ConfigInput.optionNames at h
  cases ho : c.requestOptions with
  | drop =>
    rw [ho] at h
    exact nomatch h
  | forward => rfl
  | literal fields => rfl

theorem mem_names_front (ht : c.requestOptions.isTaken = true) {name : String} :
    name ∈ propertyNames (bodyEntries method payload ++ (c.ownEntries ++ c.responseTypeEntries)) ↔
      (name = "data" ∧ method = "delete" ∧ payload ≠ "") ∨ c.SetsDefault name := by
  have hown : c.ownEntries = [] := by
    rw [ConfigInput.ownEntries, ht, if_pos rfl]
  rw [hown, List.nil_append, propertyNames_append, List.mem_append, mem_names_bodyEntries,
    ConfigInput.mem_names_responseTypeEntries]

end Config

/-- An object that a call is given names no property twice exactly if the literal options, where
there is a config to hold them, have names of their own: none is the body of a deletion, the kind of
the response or what the call sets behind them. It is the last of these that shadow a literal
option. -/
theorem names_once_iff (c : ConfigInput) (route method : String) (body : Body)
    (forms : FormSupport) :
    (NamesOnce (axiosArgs route method body forms c) ↔
      (c.needsConfig = true → c.optionNames.Nodup ∧ ∀ name ∈ c.optionNames,
        ¬ (name = "data" ∧ method = "delete" ∧ body.payload forms ≠ "") ∧
        ¬ c.SetsDefault name ∧ ¬ c.SetsBehind name)) ∧
    (ShadowsNone (axiosArgs route method body forms c) ↔
      (c.needsConfig = true → ∀ name ∈ c.optionNames, ¬ c.SetsBehind name)) := by
  rw [NamesOnce, ShadowsNone,
    forall_object_axiosArgs (P := fun entries => (propertyNames entries).Nodup) (by decide)
      (by decide),
    forall_object_axiosArgs (P := fun entries =>
      entries.Pairwise fun earlier later => ¬ Shadows later earlier) (by simp) (by simp)]
  generalize body.payload forms = payload
  by_cases hn : c.needsConfig = true
  · have hnames : propertyNames (Entry.literals c.requestOptions.fields) = c.optionNames :=
      propertyNames_literals _
    rw [ConfigInput.spreadEntries_config, if_pos hn, entries_around,
      pairwise_between_iff isLiteral_of_mem_front isLiteral_of_mem_literals
        isLiteral_of_mem_behind, propertyNames_append (_ ++ (_ ++ _)),
      propertyNames_append (Entry.literals _),
      nodup_between_iff (nodup_names_around c method payload), hnames, forall_prop_of_true hn,
      forall_prop_of_true hn]
    constructor
    · refine and_congr_right fun _ => forall₂_congr fun name hname => ?_
      have ht := isTaken_of_mem_optionNames hname
      rw [mem_names_front method payload ht, ConfigInput.mem_names_behind ht, not_or, and_assoc]
    · refine forall₂_congr fun name hname => ?_
      rw [ConfigInput.mem_names_behind (isTaken_of_mem_optionNames hname)]
  · exact ⟨iff_of_true (nodup_names_unneeded c method payload hn) fun h => absurd h hn,
      iff_of_true (pairwise_of_own (isLiteral_of_mem_unneeded c method payload hn))
        fun h => absurd h hn⟩

/-- Query parameters with settings for their serializer, and a literal option. -/
def serializedConfig (option : String) : ConfigInput where
  response := { success := "Pets" }
  queryParams := some { schema := { name := "ListPetsParams" } }
  requestOptions := .literal [(option, .obj [("indexes", .null)])]
  serializerOptions := some { qs := some [("arrayFormat", .str "repeat")] }

/-- A literal serializer is shadowed by the generated one, another option by nothing. -/
theorem paramsSerializer_named_twice :
    ¬ NamesOnce (axiosArgs "/pets" "get" {} {} (serializedConfig "paramsSerializer")) ∧
      ¬ ShadowsNone (axiosArgs "/pets" "get" {} {} (serializedConfig "paramsSerializer")) ∧
      NamesOnce (axiosArgs "/pets" "get" {} {} (serializedConfig "formSerializer")) := by
  have hnames (option : String) : (serializedConfig option).optionNames = [propertyName option] :=
    rfl
  have hoption : propertyName "paramsSerializer" = "paramsSerializer" := by decide
  have hother : propertyName "formSerializer" = "formSerializer" := by decide
  have hbehind : (serializedConfig "paramsSerializer").SetsBehind "paramsSerializer" :=
    .serializer rfl rfl
  have hmem : "paramsSerializer" ∈ (serializedConfig "paramsSerializer").optionNames := by
    rw [hnames, hoption]
    exact List.mem_singleton_self _
  refine ⟨?_, ?_, ?_⟩
  · intro honce
    have h := (names_once_iff _ _ _ _ _).1.mp honce
    exact ((h rfl).2 _ hmem).2.2 hbehind
  · intro hnone
    have h := (names_once_iff _ _ _ _ _).2.mp hnone
    exact h rfl _ hmem hbehind
  · refine (names_once_iff _ _ _ _ _).1.mpr ?_
    intro _
    rw [hnames, hother]
    refine ⟨List.nodup_singleton _, ?_⟩
    intro name hname
    obtain rfl := List.mem_singleton.mp hname
    exact ⟨by simp, fun h => absurd h.1 (by decide), fun h => absurd h.mem (by decide)⟩

end RequestGen
