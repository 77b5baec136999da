import RequestGen.Proofs.Record.NormalForms

/-! # Records that are read and written

Every record's shape is regular, and writing what was read of a normal form gives the normal form
back: each field is written under its key, with the value that it was read from. -/

namespace RequestGen

open Shape

/-! ### Fields of regular records -/

namespace Field

/-- The shape of the field is regular, and its fallback, if it has one, a normal form. -/
structure Regular (f : Field Shape) : Prop where
  shape : f.shape.Regular
  fallback : ∀ v, f.fallback = some v → f.shape.Normal v

namespace Regular

variable {key : String} {shape : Shape}

theorem mandatory (h : shape.Regular) : (Field.mandatory key shape).Regular :=
  ⟨h, nofun⟩

theorem withFallback {fallback : Json} {otherKey : Option String} (h : shape.Regular)
    (hfallback : shape.Normal fallback) :
    Regular { key, shape, fallback := some fallback, otherKey } :=
  ⟨h, fun _ hv => Option.some.inj hv ▸ hfallback⟩

theorem text {fallback : String} : (Field.text key fallback).Regular :=
  withFallback .text rfl

theorem flag {fallback : Bool} : (Field.flag key fallback).Regular :=
  withFallback .flag rfl

theorem optional (h : shape.Regular) : (Field.optional key shape).Regular :=
  withFallback (.optional h) rfl

theorem list (h : shape.Regular) : (Field.list key shape).Regular :=
  withFallback (.list h) rfl

theorem defaulted (h : shape.Regular) (hdefaults : shape.Normal shape.defaults) :
    (Field.defaulted key shape).Regular :=
  withFallback h hdefaults

end Regular

end Field

namespace Shape

variable {name : String} {fields : List (Field Shape)}

theorem Regular.ofFields (hkeys : (fields.map (·.key)).Nodup)
    (h : List.Forall Field.Regular fields) : Regular (.record name fields) :=
  have hall := List.forall_iff_forall_mem.mp h
  .record hkeys (fun f hf => (hall f hf).shape) fun f hf => (hall f hf).fallback

theorem Regular.normal_defaults (h : Regular (.record name fields))
    (hgiven : ∀ f ∈ fields, f.fallback.isSome) :
    (Shape.record name fields).Normal (Shape.record name fields).defaults := by
  cases h with
  | record hkeys _ hfallbacks =>
    refine (normal_record_iff hkeys).mpr ⟨_, rfl, ?_⟩
    show List.Forall₂ _ fields (fields.map fun f => (f.key, f.fallback.getD .null))
    rw [List.forall₂_map_right_iff, List.forall₂_same]
    intro f hf
    obtain ⟨v, hv⟩ := Option.isSome_iff_exists.mp (hgiven f hf)
    exact ⟨rfl, hfallbacks f hf _ (by rw [hv]; rfl)⟩

end Shape

/-! ### Fields that are written -/

namespace Shape

variable {name : String} {fields : List (Field Shape)} {v : Json}

theorem Regular.keys (h : Regular (.record name fields)) : (fields.map (·.key)).Nodup := by
  cases h with
  | record hkeys _ _ => exact hkeys

theorem Regular.eq_obj (h : Regular (.record name fields))
    (hv : (Shape.record name fields).Normal v) :
    v = .obj (fields.map fun f => (f.key, v.field f.key)) ∧
      ∀ f ∈ fields, f.shape.Normal (v.field f.key) := by
  obtain ⟨pairs, rfl, hpairs⟩ := (normal_record_iff h.keys).mp hv
  have hkey (f : Field Shape) (pair : String × Json)
      (hpair : pair.1 = f.key ∧ f.shape.Normal pair.2) : pair.1 = f.key :=
    hpair.1
  exact ⟨congrArg Json.obj (eq_map_field h.keys hpairs hkey),
    fun f hf => (field_of_forall₂ h.keys hpairs hkey hf).2⟩

theorem Regular.comesTo {input : Json.Fields} {n : Json} (h : Regular (.record name fields))
    (hcheck : (Shape.record name fields).check (.obj input) = .ok n) {f : Field Shape}
    (hf : f ∈ fields) : FieldComesTo input f (f.key, n.field f.key) := by
  obtain ⟨given, pairs, hinput, rfl, hpairs, -⟩ := check_record_eq_ok_iff.mp hcheck
  obtain rfl := Json.obj.inj hinput
  exact field_of_forall₂ h.keys hpairs (fun _ _ hpair => hpair.1) hf

end Shape

namespace Json

variable {w : Json}

theorem str_toText (h : Normal .text w) : .str w.toText = w := by
  obtain ⟨s, rfl⟩ := normal_text_iff.mp h
  rfl

theorem bool_toFlag (h : Normal .flag w) : .bool w.toFlag = w := by
  obtain ⟨b, rfl⟩ := normal_flag_iff.mp h
  rfl

theorem str_name_ofName? {α : Type} {name : α → String} {ofName? : String → Option α}
    (hread : ∀ a, ofName? (name a) = some a) {all : List α} {fallback : α}
    (h : ∃ s ∈ all.map name, w = .str s) :
    .str (name ((ofName? w.toText).getD fallback)) = w := by
  obtain ⟨s, hs, rfl⟩ := h
  obtain ⟨a, -, rfl⟩ := List.mem_map.mp hs
  rw [toText, hread, Option.getD_some]

end Json

namespace Field

/-- What is written for a field of a value is what the value has there, if that is a normal form. -/
structure Written (v : Json) (f : Field Shape) (pair : String × Json) : Prop where
  key : pair.1 = f.key
  value : f.shape.Normal (v.field f.key) → pair.2 = v.field f.key

namespace Written

variable {α : Type} {v : Json} {key : String} {shape : Shape} {fallback : Option Json}
  {otherKey : Option String} {read : Json → α} {write : α → Json}

theorem text : Written v ⟨key, .text, fallback, otherKey⟩ (key, .str (v.textAt key)) :=
  ⟨rfl, Json.str_toText⟩

theorem flag : Written v ⟨key, .flag, fallback, otherKey⟩ (key, .bool (v.flagAt key)) :=
  ⟨rfl, Json.bool_toFlag⟩

theorem any : Written v ⟨key, .any, fallback, otherKey⟩ (key, v.field key) :=
  ⟨rfl, fun _ => rfl⟩

theorem list (h : ∀ {w}, shape.Normal w → write (read w) = w) :
    Written v ⟨key, .list shape, fallback, otherKey⟩ (key, .ofList write (v.listAt read key)) := by
  refine ⟨rfl, fun hnormal => ?_⟩
  obtain ⟨items, hitems, hall⟩ := normal_list_iff.mp hnormal
  dsimp only at hitems
  have hsame : items.map (write ∘ read) = items :=
    (List.map_congr_left fun item hi => h (hall item hi)).trans (List.map_id items)
  show Json.ofList write ((v.field key).toItems.map read) = v.field key
  rw [hitems, Json.ofList, Json.toItems, List.map_map, hsame]

theorem nullable (read : Json → α) (hnull : write (read .null) = .null)
    (h : ∀ {w}, shape.Normal w → write (read w) = w) :
    Written v ⟨key, .optional shape, fallback, otherKey⟩ (key, write (read (v.field key))) := by
  refine ⟨rfl, fun hnormal => ?_⟩
  dsimp only at hnormal ⊢
  rcases normal_optional_iff.mp hnormal with hvalue | hnormal
  · rw [hvalue, hnull]
  · exact h hnormal

theorem optionalText :
    Written v ⟨key, .optional .text, fallback, otherKey⟩ (key, .ofText? (v.text?At key)) := by
  refine nullable Json.toText? rfl fun hw => ?_
  obtain ⟨s, rfl⟩ := normal_text_iff.mp hw
  rfl

theorem optionalFlag :
    Written v ⟨key, .optional .flag, fallback, otherKey⟩ (key, .ofFlag? (v.flag?At key)) := by
  refine nullable Json.toFlag? rfl fun hw => ?_
  obtain ⟨b, rfl⟩ := normal_flag_iff.mp hw
  rfl

theorem optionalMapping : Written v ⟨key, .optional .mapping, fallback, otherKey⟩
    (key, .ofOption Json.obj (v.field key).toFields?) := by
  refine nullable Json.toFields? rfl fun hw => ?_
  obtain ⟨fields, rfl⟩ := normal_mapping_iff.mp hw
  rfl

theorem optional (h : ∀ {w}, shape.Normal w → write (read w) = w) :
    Written v ⟨key, .optional shape, fallback, otherKey⟩
      (key, .ofOption write (v.optionAt read key)) := by
  refine nullable (Json.toOption read) rfl fun {w} hw => ?_
  cases w with
  | null => rfl
  | _ => exact h hw

end Written

end Field

theorem Shape.Regular.obj_eq {name : String} {fields : List (Field Shape)} {v : Json}
    {pairs : Json.Fields} (h : Regular (.record name fields))
    (hv : (Shape.record name fields).Normal v)
    (hpairs : List.Forall₂ (Field.Written v) fields pairs) : .obj pairs = v := by
  obtain ⟨hobj, hnormal⟩ := h.eq_obj hv
  have hsame : pairs = fields.map fun f => (f.key, v.field f.key) := by
    rw [← List.forall₂_eq_eq_eq, List.forall₂_map_right_iff]
    refine (forall₂_imp_of_mem hpairs fun f hf pair _ hwritten => ?_).flip
    exact Prod.ext hwritten.key (hwritten.value (hnormal f hf))
  rw [hsame, ← hobj]

/-! ### The records of an operation -/

variable {v : Json}

namespace Import

theorem regular : shape.Regular :=
  .ofFields (by decide) ⟨.mandatory .text, .optional .text, .optional .text, .flag, .flag, .flag⟩

theorem toJson_ofJson (h : shape.Normal v) : (ofJson v).toJson = v :=
  regular.obj_eq h <| .cons .text <| .cons .optionalText <| .cons .optionalText <|
    .cons .flag <| .cons .flag <| .cons .flag .nil

end Import

namespace ModelType

theorem regular : shape.Regular :=
  .ofFields (by decide) ⟨.mandatory .text, .text, .list Import.regular⟩

theorem toJson_ofJson (h : shape.Normal v) : (ofJson v).toJson = v :=
  regular.obj_eq h <| .cons .text <| .cons .text <| .cons (.list Import.toJson_ofJson) .nil

end ModelType

namespace Argument

theorem regular : shape.Regular :=
  .ofFields (by decide) ⟨.mandatory .text, .mandatory .text, .mandatory .text,
    .withFallback .any rfl, .flag, .withFallback (.oneOf _) rfl, .text,
    .withFallback (.optional ModelType.regular) rfl⟩

theorem toJson_ofJson (h : shape.Normal v) : (ofJson v).toJson = v :=
  regular.obj_eq h <| .cons .text <| .cons .text <| .cons .text <| .cons .any <| .cons .flag <|
    .cons ⟨rfl, fun h => Json.str_name_ofName? ArgumentKind.ofName?_name (normal_oneOf_iff.mp h)⟩ <|
    .cons .text <| .cons (.optional ModelType.toJson_ofJson) .nil

end Argument

namespace PathParam

theorem regular : shape.Regular :=
  .ofFields (by decide) ⟨.mandatory .text, .mandatory .text, .mandatory .text,
    .withFallback .any rfl, .flag, .list Import.regular⟩

theorem toJson_ofJson (h : shape.Normal v) : (ofJson v).toJson = v :=
  regular.obj_eq h <| .cons .text <| .cons .text <| .cons .text <| .cons .any <| .cons .flag <|
    .cons (.list Import.toJson_ofJson) .nil

end PathParam

namespace Aggregate

theorem regular : shape.Regular :=
  .ofFields (by decide) ⟨⟨ModelType.regular, nofun⟩, .list ModelType.regular, .flag⟩

theorem toJson_ofJson (h : shape.Normal v) : (ofJson v).toJson = v :=
  regular.obj_eq h <| .cons ⟨rfl, ModelType.toJson_ofJson⟩ <|
    .cons (.list ModelType.toJson_ofJson) <| .cons .flag .nil

end Aggregate

namespace Body

theorem regular : shape.Regular :=
  .ofFields (by decide)
    ⟨.text, .text, .list Import.regular, .optional .text, .optional .text, .text⟩

theorem toJson_ofJson (h : shape.Normal v) : (ofJson v).toJson = v :=
  regular.obj_eq h <| .cons .text <| .cons .text <| .cons (.list Import.toJson_ofJson) <|
    .cons .optionalText <| .cons .optionalText <| .cons .text .nil

end Body

namespace StatusType

theorem regular : shape.Regular :=
  .ofFields (by decide) ⟨.mandatory .text, .mandatory .text, .text⟩

theorem toJson_ofJson (h : shape.Normal v) : (ofJson v).toJson = v :=
  regular.obj_eq h <| .cons .text <| .cons .text <| .cons .text .nil

end StatusType

namespace Response

theorem regular_definition : definitionShape.Regular :=
  .ofFields (by decide) ⟨.text, .text⟩

theorem regular_types : typesShape.Regular :=
  .ofFields (by decide) ⟨.list StatusType.regular, .list StatusType.regular⟩

theorem regular : shape.Regular :=
  .ofFields (by decide) ⟨.list Import.regular,
    .defaulted regular_definition (regular_definition.normal_defaults (by decide)),
    .defaulted regular_types (regular_types.normal_defaults (by decide)),
    .list .text, .flag⟩

theorem toJson_ofJson (h : shape.Normal v) : (ofJson v).toJson = v :=
  regular.obj_eq h <| .cons (.list Import.toJson_ofJson) <|
    .cons ⟨rfl, fun h => regular_definition.obj_eq h <| .cons .text <| .cons .text .nil⟩ <|
    .cons ⟨rfl, fun h => regular_types.obj_eq h <| .cons (.list StatusType.toJson_ofJson) <|
      .cons (.list StatusType.toJson_ofJson) .nil⟩ <|
    .cons (.list Json.str_toText) <| .cons .flag .nil

end Response

namespace Mutator

theorem regular : shape.Regular :=
  .ofFields (by decide) ⟨.mandatory .text, .text, .flag, .flag, .text, .flag, .flag, .flag,
    .optional .text⟩

theorem toJson_ofJson (h : shape.Normal v) : (ofJson v).toJson = v :=
  regular.obj_eq h <| .cons .text <| .cons .text <| .cons .flag <| .cons .flag <| .cons .text <|
    .cons .flag <| .cons .flag <| .cons .flag <| .cons .optionalText .nil

end Mutator

namespace SerializerOptions

theorem regular : shape.Regular :=
  .ofFields (by decide) (.optional .mapping)

theorem toJson_ofJson (h : shape.Normal v) : (ofJson v).toJson = v :=
  regular.obj_eq h <| .cons .optionalMapping .nil

end SerializerOptions

theorem RequestOptions.toJson_ofJson (h : Shape.flagOrMapping.Normal v) :
    (ofJson v).toJson = v := by
  rcases normal_flagOrMapping_iff.mp h with ⟨fields, rfl⟩ | ⟨b, rfl⟩
  · rfl
  · cases b <;> rfl

namespace Overrides

theorem regular_formData : formDataShape.Regular :=
  .ofFields (by decide) .flag

theorem regular : shape.Regular :=
  .ofFields (by decide) ⟨.withFallback .flagOrMapping rfl,
    .defaulted regular_formData (regular_formData.normal_defaults (by decide)), .flag, .flag,
    .optional SerializerOptions.regular⟩

theorem toJson_ofJson (h : shape.Normal v) : (ofJson v).toJson = v :=
  regular.obj_eq h <| .cons ⟨rfl, RequestOptions.toJson_ofJson⟩ <|
    .cons ⟨rfl, fun h => regular_formData.obj_eq h <| .cons .flag .nil⟩ <| .cons .flag <|
    .cons .flag <| .cons (.optional SerializerOptions.toJson_ofJson) .nil

end Overrides

namespace Operation

theorem toLower_verb : ∀ name ∈ Verb.all.map (·.name), name.toLower = name := by
  decide +kernel

theorem regular_fields : List.Forall Field.Regular recordFields :=
  ⟨.mandatory (.oneOfAnyCase toLower_verb), .text, .mandatory .text, .text, .list .text,
    .defaulted Response.regular (Response.regular.normal_defaults (by decide)),
    .defaulted Body.regular (Body.regular.normal_defaults (by decide)),
    .optional Aggregate.regular, .optional Aggregate.regular, .list PathParam.regular,
    .list Argument.regular, .optional Mutator.regular, .optional Mutator.regular,
    .optional Mutator.regular, .optional Mutator.regular,
    .defaulted Overrides.regular (Overrides.regular.normal_defaults (by decide)), .flag⟩

theorem regular : shape.Regular :=
  .ofFields (by decide) regular_fields

theorem str_verb (h : (Shape.oneOfAnyCase (Verb.all.map (·.name))).Normal v) :
    .str (((Verb.ofName? v.toText).getD .get).name) = v := by
  obtain ⟨s, rfl, hmem, hs⟩ := checkName_eq_ok_iff.mp h
  rw [← Json.str.inj hs] at hmem
  exact Json.str_name_ofName? Verb.ofName?_name ⟨s, hmem, rfl⟩

/-- Each field of an operation is written as it was read, whatever other fields there are. -/
theorem written (v : Json) :
    List.Forall₂ (Field.Written v) recordFields (Operation.ofJson v).toFields :=
  .cons ⟨rfl, str_verb⟩ <| .cons .text <| .cons .text <| .cons .text <|
    .cons (.list Json.str_toText) <| .cons ⟨rfl, Response.toJson_ofJson⟩ <|
    .cons ⟨rfl, Body.toJson_ofJson⟩ <| .cons (.optional Aggregate.toJson_ofJson) <|
    .cons (.optional Aggregate.toJson_ofJson) <| .cons (.list PathParam.toJson_ofJson) <|
    .cons (.list Argument.toJson_ofJson) <| .cons (.optional Mutator.toJson_ofJson) <|
    .cons (.optional Mutator.toJson_ofJson) <| .cons (.optional Mutator.toJson_ofJson) <|
    .cons (.optional Mutator.toJson_ofJson) <| .cons ⟨rfl, Overrides.toJson_ofJson⟩ <|
    .cons .flag .nil

theorem toJson_ofJson (h : shape.Normal v) : (ofJson v).toJson = v :=
  regular.obj_eq h (written v)

end Operation

namespace Endpoint

theorem regular : shape.Regular :=
  .ofFields (by decide) <| List.forall_append.mpr
    ⟨Operation.regular_fields, .mandatory .text, .mandatory .text⟩

theorem toJson_ofJson (h : shape.Normal v) : (ofJson v).toJson = v :=
  regular.obj_eq h <| List.rel_append (Operation.written v) <| .cons .text <| .cons .text .nil

end Endpoint

/-! ### The operation of an endpoint -/

theorem lookup_filter_key {p : String → Bool} {key : String} (h : p key = true)
    (fields : Json.Fields) :
    (fields.filter fun field => p field.1).lookup key = fields.lookup key := by
  induction fields with
  | nil => rfl
  | cons field fields ih =>
    rw [List.filter_cons]
    by_cases hkey : key = field.1
    · rw [if_pos (hkey ▸ h), hkey, List.lookup_cons_self, List.lookup_cons_self]
    · have hother (rest : Json.Fields) : (field :: rest).lookup key = rest.lookup key := by
        rw [List.lookup_cons, beq_eq_false_iff_ne.mpr hkey]
      split
      · rw [hother, hother, ih]
      · rw [hother, ih]

namespace Endpoint

/-- The keys of what an endpoint has besides its operation. -/
def routeKeys : List String := ["route", "path_route"]

/-- The value without the routes. -/
def withoutRoutes : Json → Json
  | .obj fields => .obj (fields.filter fun field => field.1 ∉ routeKeys)
  | v => v

/-- What is written of an endpoint but its routes, checked as an operation. -/
def toVerbOptions (e : Endpoint) : Checked Operation :=
  (Operation.shape.check (withoutRoutes e.toJson)).map Operation.ofJson

theorem withoutRoutes_toJson (e : Endpoint) : withoutRoutes e.toJson = e.operation.toJson :=
  rfl

theorem field_withoutRoutes {key : String} (hkey : key ∉ routeKeys) :
    (withoutRoutes v).field key = v.field key := by
  unfold withoutRoutes
  split
  · next fields =>
    have hlookup := lookup_filter_key (p := fun key => key ∉ routeKeys) (decide_eq_true hkey) fields
    exact congrArg (·.getD Json.null) hlookup
  · rfl

theorem ofJson_withoutRoutes : Operation.ofJson (withoutRoutes v) = Operation.ofJson v := by
  unfold Operation.ofJson
  -- no field of an operation is called like a route
  simp (disch := decide) only [Json.textAt, Json.flagAt, Json.listAt, Json.optionAt,
    field_withoutRoutes]

theorem normal_withoutRoutes (h : shape.Normal v) : Operation.shape.Normal (withoutRoutes v) := by
  have hwhole : withoutRoutes v = (ofJson v).operation.toJson :=
    (congrArg withoutRoutes (toJson_ofJson h)).symm.trans (withoutRoutes_toJson _)
  rw [hwhole, Operation.shape, normal_record_iff Operation.regular.keys]
  -- the endpoint has each of these fields too, and in normal form
  refine ⟨_, rfl, forall₂_imp_of_mem (Operation.written v) fun f hf pair _ hwritten =>
    ⟨hwritten.key, ?_⟩⟩
  have hnormal := (regular.eq_obj h).2 f (List.mem_append_left _ hf)
  rw [hwritten.value hnormal]
  exact hnormal

theorem toVerbOptions_ofJson (h : shape.Normal v) :
    (ofJson v).toVerbOptions = .ok (ofJson v).operation := by
  have hcheck : Operation.shape.check (withoutRoutes v) = .ok (withoutRoutes v) :=
    normal_withoutRoutes h
  rw [toVerbOptions, toJson_ofJson h, hcheck]
  exact congrArg Except.ok ofJson_withoutRoutes

end Endpoint

/-! ### The records of a job -/

namespace CompilerOptions

theorem regular : shape.Regular :=
  .ofFields (by decide) ⟨.flag, .optional .flag, .optional .flag, .optional .text⟩

theorem toJson_ofJson (h : shape.Normal v) : (ofJson v).toJson = v :=
  regular.obj_eq h <| .cons .flag <| .cons .optionalFlag <| .cons .optionalFlag <|
    .cons .optionalText .nil

end CompilerOptions

namespace TsConfig

theorem regular : shape.Regular :=
  .ofFields (by decide) (.optional CompilerOptions.regular)

theorem toJson_ofJson (h : shape.Normal v) : (ofJson v).toJson = v :=
  regular.obj_eq h <| .cons (.optional CompilerOptions.toJson_ofJson) .nil

end TsConfig

namespace OutputConfig

theorem regular : shape.Regular :=
  .ofFields (by decide) ⟨.withFallback (.oneOf _) rfl, .withFallback (.oneOf _) rfl,
    .optional .text, .optional .text, .optional TsConfig.regular, .flag, .flag, .flag,
    .optional Mutator.regular⟩

theorem str_httpClient {names : List String} (h : (Shape.oneOf names).Normal v) :
    .str (HttpClient.ofName v.toText).name = v := by
  obtain ⟨s, -, rfl⟩ := normal_oneOf_iff.mp h
  show Json.str (HttpClient.ofName s).name = .str s
  unfold HttpClient.ofName
  split
  · next hs => rw [hs]; rfl
  · split
    · next hs => rw [hs]; rfl
    · rfl

theorem toJson_ofJson (h : shape.Normal v) : (ofJson v).toJson = v :=
  regular.obj_eq h <|
    .cons ⟨rfl, fun h => Json.str_name_ofName? Style.ofName?_name (normal_oneOf_iff.mp h)⟩ <|
    .cons ⟨rfl, str_httpClient⟩ <| .cons .optionalText <| .cons .optionalText <|
    .cons (.optional TsConfig.toJson_ofJson) <| .cons .flag <| .cons .flag <| .cons .flag <|
    .cons (.optional Mutator.toJson_ofJson) .nil

end OutputConfig

namespace Dependency

theorem regular : shape.Regular :=
  .ofFields (by decide) ⟨.list Import.regular, .mandatory .text⟩

theorem toJson_ofJson (h : shape.Normal v) : (ofJson v).toJson = v :=
  regular.obj_eq h <| .cons (.list Import.toJson_ofJson) <| .cons .text .nil

end Dependency

namespace Job

theorem regular : shape.Regular :=
  .ofFields (by decide) ⟨.mandatory .text, .optional .text, .optional .text,
    .defaulted OutputConfig.regular (OutputConfig.regular.normal_defaults (by decide)),
    .list Endpoint.regular⟩

theorem toJson_ofJson {raw : Json} (h : shape.Normal v) : (ofJson raw v).toJson = v :=
  regular.obj_eq h <| .cons .text <| .cons .optionalText <| .cons .optionalText <|
    .cons ⟨rfl, OutputConfig.toJson_ofJson⟩ <| .cons (.list Endpoint.toJson_ofJson) .nil

end Job

/-- Every record, with what is written of it after it was read. Parts that are only read with the
record around them are written as they are. -/
def Shape.dumps : List (Shape × (Json → Json)) :=
  [(Import.shape, Import.toJson ∘ Import.ofJson),
    (ModelType.shape, ModelType.toJson ∘ ModelType.ofJson),
    (Argument.shape, Argument.toJson ∘ Argument.ofJson),
    (PathParam.shape, PathParam.toJson ∘ PathParam.ofJson),
    (Aggregate.shape, Aggregate.toJson ∘ Aggregate.ofJson), (Body.shape, Body.toJson ∘ Body.ofJson),
    (Response.definitionShape, id), (StatusType.shape, StatusType.toJson ∘ StatusType.ofJson),
    (Response.typesShape, id), (Response.shape, Response.toJson ∘ Response.ofJson),
    (Mutator.shape, Mutator.toJson ∘ Mutator.ofJson), (Overrides.formDataShape, id),
    (SerializerOptions.shape, SerializerOptions.toJson ∘ SerializerOptions.ofJson),
    (Overrides.shape, Overrides.toJson ∘ Overrides.ofJson),
    (Operation.shape, Operation.toJson ∘ Operation.ofJson),
    (CompilerOptions.shape, CompilerOptions.toJson ∘ CompilerOptions.ofJson),
    (TsConfig.shape, TsConfig.toJson ∘ TsConfig.ofJson),
    (OutputConfig.shape, OutputConfig.toJson ∘ OutputConfig.ofJson),
    (Dependency.shape, Dependency.toJson ∘ Dependency.ofJson),
    (Endpoint.shape, Endpoint.toJson ∘ Endpoint.ofJson),
    (Job.shape, fun v => (Job.ofJson v v).toJson)]

theorem Shape.map_fst_dumps : Shape.dumps.map Prod.fst = Shape.catalogue :=
  rfl

/-- What is written of a record is the normal form that was read, and it is accepted again. -/
theorem Shape.dump_of_check : ∀ record ∈ Shape.dumps, ∀ v n, record.1.check v = .ok n →
    record.2 n = n ∧ record.1.check (record.2 n) = .ok (record.2 n) := by
  have hrecords : ∀ record ∈ Shape.dumps, record.1.Regular ∧
      ∀ {n}, record.1.Normal n → record.2 n = n :=
    List.forall_iff_forall_mem.mp
      ⟨⟨Import.regular, Import.toJson_ofJson⟩, ⟨ModelType.regular, ModelType.toJson_ofJson⟩,
        ⟨Argument.regular, Argument.toJson_ofJson⟩, ⟨PathParam.regular, PathParam.toJson_ofJson⟩,
        ⟨Aggregate.regular, Aggregate.toJson_ofJson⟩, ⟨Body.regular, Body.toJson_ofJson⟩,
        ⟨Response.regular_definition, fun _ => rfl⟩, ⟨StatusType.regular, StatusType.toJson_ofJson⟩,
        ⟨Response.regular_types, fun _ => rfl⟩, ⟨Response.regular, Response.toJson_ofJson⟩,
        ⟨Mutator.regular, Mutator.toJson_ofJson⟩, ⟨Overrides.regular_formData, fun _ => rfl⟩,
        ⟨SerializerOptions.regular, SerializerOptions.toJson_ofJson⟩,
        ⟨Overrides.regular, Overrides.toJson_ofJson⟩, ⟨Operation.regular, Operation.toJson_ofJson⟩,
        ⟨CompilerOptions.regular, CompilerOptions.toJson_ofJson⟩,
        ⟨TsConfig.regular, TsConfig.toJson_ofJson⟩,
        ⟨OutputConfig.regular, OutputConfig.toJson_ofJson⟩,
        ⟨Dependency.regular, Dependency.toJson_ofJson⟩, ⟨Endpoint.regular, Endpoint.toJson_ofJson⟩,
        ⟨Job.regular, Job.toJson_ofJson⟩⟩
  intro record hrecord v n h
  obtain ⟨hregular, hwritten⟩ := hrecords record hrecord
  have hnormal : record.1.Normal n := hregular.normal_of_check h
  rw [hwritten hnormal]
  exact ⟨rfl, hnormal⟩

end RequestGen
