import RequestGen.Proofs.Request.LiteralOptions

/-! # The config among the arguments of a call

The config is the last argument of an axios call, behind the body where the method has a place for
one. A deletion has none, so its body is an entry of the object that holds the config. The entries
of the config follow it there one by one and in order (`ListsEntries`), as they stand between the
braces of the config's own text (`entriesText`), and nothing else does (`config_behind_body`).

A config is only written for the sake of parameters, of a blob or of a plain string as result. So a
text response is asked for as text in these cases alone (`asks_for_text_iff`). -/

namespace RequestGen

open Code (Expr Entry Layout)

/-! ### Entries and their texts -/

/-- The text without its first and its last character. -/
def Text.inside (text : String) : String := String.ofList text.toList.tail.dropLast

/-- The entries that the text of a config holds: an object without its braces, and the caller's
options spread. -/
def entriesText (config : String) : String :=
  if config = "options" then "...options" else Text.inside config

/-- The entries that a config argument comes to when it is written into an object. -/
inductive ListsEntries : List Expr → List Entry → Prop where
  | absent : ListsEntries [] []
  | options : ListsEntries [.name "options"] [.spread (.name "options")]
  | object {entries : List Entry} (h : entries ≠ []) :
      ListsEntries [.object .tight entries] entries

theorem Text.commaListOfNonempty_pair {text : String} (htext : text ≠ "") {texts : List String}
    (htexts : ∀ other ∈ texts, other ≠ "") :
    commaListOfNonempty [text, commaList texts] = commaList (text :: texts) := by
  cases texts with
  | nil =>
    have hfilter : [text, commaList []].filter (· ≠ "") = [text] := by
      simp [htext, commaList]
    rw [commaListOfNonempty, hfilter]
  | cons next texts =>
    have hlist := commaList_cons_ne_empty (htexts next List.mem_cons_self) texts
    have hfilter : [text, commaList (next :: texts)].filter (· ≠ "") =
        [text, commaList (next :: texts)] := by
      simp [htext, hlist]
    rw [commaListOfNonempty, hfilter, commaList_cons_cons, commaList_singleton,
      commaList_cons_cons]

theorem Text.toList_between_braces (text : String) :
    ("\x7b" ++ text ++ "\x7d").toList = '\x7b' :: (text.toList ++ ['\x7d']) := by
  rw [String.toList_append, String.toList_append]
  rfl

theorem Text.inside_braces (text : String) : inside ("\x7b" ++ text ++ "\x7d") = text := by
  rw [inside, toList_between_braces, List.tail_cons, List.dropLast_concat, String.ofList_toList]

theorem Text.braces_ne_options (text : String) : "\x7b" ++ text ++ "\x7d" ≠ "options" := by
  intro h
  have hhead : "options".toList.head? = some '\x7b' := by
    rw [← h, toList_between_braces]
    rfl
  exact absurd hhead (by decide)

theorem ListsEntries.entriesText_render {args : List Expr} {entries : List Entry}
    (h : ListsEntries args entries) :
    entriesText (Code.renderArgs args) = Text.commaList (Code.renderEntries entries) := by
  cases h with
  | absent => rfl
  | options => decide
  | object hne =>
    have hargs : Code.renderArgs [.object .tight entries] =
        "\x7b" ++ Text.commaList (Code.renderEntries entries) ++ "\x7d" :=
      Text.commaList_singleton _
    rw [hargs, entriesText, if_neg (Text.braces_ne_options _), Text.inside_braces]

namespace ConfigInput

variable {c : ConfigInput}

theorem listsEntries_config : ListsEntries c.config.args c.config.spreadEntries := by
  cases hc : c.config with
  | absent => exact .absent
  | forwarded => exact .options
  | object entries =>
    refine .object ?_
    rintro rfl
    -- a config without entries is left out
    unfold config at hc
    split at hc
    · split at hc
      · exact nomatch hc
      · next hne => exact hne (AxiosConfig.object.inj hc)
    · split_ifs at hc
      exact nomatch AxiosConfig.object.inj hc

theorem shorthand_mem_spreadEntries {name : String}
    (h : Entry.shorthand name ∈ c.config.spreadEntries) :
    name = "params" ∨ name = "headers" ∨ name = "signal" := by
  have hsignal (h : Entry.shorthand name = signalEntry c.exactOptional) : name = "signal" := by
    unfold signalEntry at h
    split at h
    · exact absurd h (by simp)
    · exact Entry.shorthand.inj h
  rw [spreadEntries_config] at h
  split at h
  · simp only [entries, List.mem_append, mem_ownEntries_iff, mem_responseTypeEntries_iff,
      mem_callerEntries_iff, mem_serializerEntries_iff, mem_literals_iff] at h
    rcases h with (((⟨-, h⟩ | ⟨-, kind, -, h⟩) | ⟨field, -, h⟩) | ⟨-, h⟩) | ⟨-, e, -, h⟩
    · rcases h with ⟨-, h⟩ | ⟨-, h⟩ | ⟨-, h⟩
      · exact .inl (Entry.shorthand.inj h)
      · exact .inr (.inl (Entry.shorthand.inj h))
      · exact .inr (.inr (hsignal h))
    · exact absurd h (by simp)
    · simp [Entry.literal] at h
    · simp [merged] at h
    · exact absurd h (by simp)
  · split at h
    · exact absurd (List.mem_singleton.mp h) (by simp)
    · exact .inr (.inr (hsignal (mem_entryIf.mp h).2))

theorem render_ne_empty {entry : Entry} (h : entry ∈ c.config.spreadEntries) :
    entry.render ≠ "" := by
  intro hempty
  cases entry with
  | shorthand name =>
    rcases shorthand_mem_spreadEntries h with rfl | rfl | rfl <;> exact absurd hempty (by decide)
  | property key value =>
    have hkey : Code.literalKey key ++ ": " = "" := (String.append_eq_empty_iff.mp hempty).1
    exact absurd (String.append_eq_empty_iff.mp hkey).2 (by decide)
  | spread value =>
    have hdots : "..." = "" := (String.append_eq_empty_iff.mp hempty).1
    exact absurd hdots (by decide)

end ConfigInput

/-! ### The place of the config -/

section Arguments

variable (c : ConfigInput) (route : String) {method : String} {body : Body} {forms : FormSupport}

theorem axiosArgs_delete (hbody : body.payload forms ≠ "") :
    axiosArgs route "delete" body forms c = [.template route,
      .object .tight
        (.property "data" (.name (body.payload forms)) :: c.config.spreadEntries)] := by
  have hcarries : carriesBody "delete" = true := by decide
  simp [axiosArgs, hcarries, hbody]

/-- No argument in front of the config is an object, unless the config goes into that of a body. -/
theorem exists_axiosArgs_eq (h : ¬ (method = "delete" ∧ body.payload forms ≠ "")) :
    ∃ front, (∀ layout entries, .object layout entries ∉ front) ∧
      axiosArgs route method body forms c = front ++ c.config.args := by
  unfold axiosArgs
  dsimp only
  split
  · next hdelete =>
    have hbody : body.payload forms = "" := by
      by_contra hbody
      exact h ⟨hdelete, hbody⟩
    refine ⟨[.template route], by simp, ?_⟩
    simp [hbody]
  · split
    · exact ⟨[.template route, .name _], by simp, rfl⟩
    · exact ⟨[.template route], by simp, rfl⟩

end Arguments

/-- A deletion with a body is given its route and one object: the body, and behind it the entries of
the config. Its text is that of the config, opened and put behind the body. The other methods with a
body are given the config behind the body, which is `undefined` if there is none. -/
theorem config_behind_body (c : ConfigInput) (route : String) (body : Body) (forms : FormSupport) :
    (body.payload forms ≠ "" →
      ∃ entries, ListsEntries c.config.args entries ∧
        axiosArgs route "delete" body forms c = [.template route,
          .object .tight (.property "data" (.name (body.payload forms)) :: entries)] ∧
        Code.renderArgs (axiosArgs route "delete" body forms c) =
          "`" ++ route ++ "`, \x7b" ++ Text.commaListOfNonempty
            ["data: " ++ body.payload forms, entriesText c.config.render] ++ "\x7d") ∧
    ∀ method ∈ ["post", "put", "patch"], axiosArgs route method body forms c =
      .template route ::
        .name (if body.payload forms = "" then "undefined" else body.payload forms) ::
          c.config.args := by
  constructor
  · intro hbody
    refine ⟨_, ConfigInput.listsEntries_config, axiosArgs_delete c route hbody, ?_⟩
    have hdata : "data: " ++ body.payload forms ≠ "" := by
      intro hempty
      exact hbody (String.append_eq_empty_iff.mp hempty).2
    have htexts : ∀ text ∈ Code.renderEntries c.config.spreadEntries, text ≠ "" := by
      intro text htext
      rw [Code.renderEntries_eq_map] at htext
      obtain ⟨entry, hentry, rfl⟩ := List.mem_map.mp htext
      exact ConfigInput.render_ne_empty hentry
    rw [AxiosConfig.render, ConfigInput.listsEntries_config.entriesText_render,
      Text.commaListOfNonempty_pair hdata htexts, axiosArgs_delete c route hbody]
    show Text.commaList ["`" ++ route ++ "`", "\x7b" ++ Text.commaList (_ :: _) ++ "\x7d"] = _
    have hmark : "`, \x7b" = "`" ++ ", " ++ "\x7b" := by decide
    rw [Text.commaList_cons_cons, Text.commaList_singleton, hmark]
    simp only [String.append_assoc]
    rfl
  · intro method hmethod
    simp only [List.mem_cons, List.not_mem_nil, or_false] at hmethod
    rcases hmethod with rfl | rfl | rfl <;> rfl

/-- A config with a literal option that looks like the end of the config. -/
def bracedConfig : ConfigInput where
  response := { isBlob := true }
  requestOptions := .literal [("note", .str "\x7d, \x7b")]

theorem config_behind_deletePet :
    ({ implementation := "deletePet" } : Body).payload {} ≠ "" ∧
      (∃ entries, ListsEntries bracedConfig.config.args entries ∧
        Code.renderArgs (axiosArgs "/pets" "delete" { implementation := "deletePet" } {}
          bracedConfig) = "`/pets`, \x7bdata: deletePet, responseType: 'blob', " ++
            "note: '\x7d, \x7b', ...options\x7d") ∧
      "post" ∈ ["post", "put", "patch"] ∧
      axiosArgs "/pets" "post" {} {} bracedConfig =
        .template "/pets" :: .name "undefined" :: bracedConfig.config.args := by
  have hbody : ({ implementation := "deletePet" } : Body).payload {} ≠ "" := by decide
  have hpost : "post" ∈ ["post", "put", "patch"] := List.mem_cons_self
  obtain ⟨entries, hentries, -, htext⟩ :=
    (config_behind_body bracedConfig "/pets" { implementation := "deletePet" } {}).1 hbody
  refine ⟨hbody, ⟨entries, hentries, htext.trans (by decide)⟩, hpost, ?_⟩
  exact (config_behind_body bracedConfig "/pets" {} {}).2 "post" hpost

/-! ### Text responses -/

namespace ConfigInput

variable {c : ConfigInput}

theorem responseKind?_eq_text_iff : c.responseKind? = some "text" ↔
    c.response.isBlob = false ∧ c.response.contentTypes.head? = some "text/plain" := by
  unfold responseKind?
  split_ifs <;> simp_all

theorem quoted_mem_entries {key kind : String} :
    Entry.property key (.quoted kind) ∈ c.entries ↔ key = "responseType" ∧
      Json.Fields.has c.requestOptions.fields "responseType" = false ∧
      c.responseKind? = some kind := by
  rw [property_mem_entries_iff (by simp) (by simp) (by simp), mem_responseTypeEntries_iff,
    mem_literals_iff]
  constructor
  · rintro (⟨hown, kind', hkind, h⟩ | ⟨field, -, h⟩)
    · obtain ⟨rfl, hquoted⟩ := Entry.property.inj h
      obtain rfl := Expr.quoted.inj hquoted
      exact ⟨rfl, hown, hkind⟩
    · exact absurd (Entry.property.inj h).2 (by simp)
  · rintro ⟨rfl, hown, hkind⟩
    exact .inl ⟨hown, kind, hkind, rfl⟩

end ConfigInput

/-- A text response is asked for as text exactly if nothing else is asked for, literally or for a
blob, and the call has a config for the sake of parameters or of a plain string as result. -/
theorem asks_for_text_iff (c : ConfigInput) (route method : String) (body : Body)
    (forms : FormSupport) :
    HasEntry (axiosArgs route method body forms c)
        (.property "responseType" (.quoted "text")) ↔
      (c.response.isBlob = false ∧ c.response.contentTypes.head? = some "text/plain" ∧
        Json.Fields.has c.requestOptions.fields "responseType" = false) ∧
      (c.queryParams.isSome = true ∨ c.headers.isSome = true ∨ c.response.success = "string") := by
  rw [hasEntry_axiosArgs (by simp), ConfigInput.spreadEntries_config]
  have hneeds : c.needsConfig = true ↔ c.queryParams.isSome = true ∨ c.headers.isSome = true ∨
      c.response.isBlob = true ∨ c.response.success = "string" := by
    simp [ConfigInput.needsConfig, or_assoc]
  split
  · next h =>
    rw [ConfigInput.quoted_mem_entries, ConfigInput.responseKind?_eq_text_iff]
    rw [hneeds] at h
    constructor
    · rintro ⟨-, hown, hblob, htext⟩
      refine ⟨⟨hblob, htext, hown⟩, ?_⟩
      simpa [hblob] using h
    · rintro ⟨⟨hblob, htext, hown⟩, -⟩
      exact ⟨rfl, hown, hblob, htext⟩
  · next h =>
    rw [hneeds] at h
    constructor
    · intro hmem
      unfold signalEntry at hmem
      split_ifs at hmem <;> simp at hmem
    · rintro ⟨-, hparams | hheaders | hstring⟩
      · exact absurd (.inl hparams) h
      · exact absurd (.inr (.inl hheaders)) h
      · exact absurd (.inr (.inr (.inr hstring))) h

example : (Entry.property "responseType" (.quoted "text")).render = "responseType: 'text'" := by
  decide

/-- A text response of a named type is not asked for as text. -/
example : (axiosArgs "/greeting" "get" {} {}
    { response := { success := "Greeting", contentTypes := ["text/plain"] } }) =
      [.template "/greeting", .name "options"] := by
  rfl

end RequestGen
