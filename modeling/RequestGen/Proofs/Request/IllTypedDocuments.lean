import RequestGen.Proofs.ListOutcomes
import RequestGen.Proofs.Reference.NonTexts
import RequestGen.Proofs.Request.ParameterDocuments

/-! # Documents of the wrong shape

Nothing checks the shape of a document below its paths before the names of parameters are read from
it. `Endpoint.IllTyped` lists the places where its shape matters, and these are all:
the names cannot be read, for another reason than that a reference cannot be followed, exactly if
one of them is of the wrong kind (`ParameterNames.misreads_read_iff`). -/

namespace RequestGen

open Reference (Leads HasNonText refOf?)

/-- A truth value or a number: what has neither fields nor items nor characters. -/
def Json.IsScalar : Json → Prop
  | .bool _ | .int _ | .float _ => True
  | _ => False

/-- The value stands for the object: references lead to it, and it has none. -/
def Reference.StandsFor (ctx : Context) (value : Json) (fields : Json.Fields) : Prop :=
  Leads ctx value fields ∧ Json.Fields.get? fields "$ref" = none

open Reference (StandsFor)

/-- A parameter of a query or a header has a name that counts as present but is no text. -/
def HasNonTextName (fields : Json.Fields) : Prop :=
  ∃ location name, (location = "query" ∨ location = "header") ∧
    Json.Fields.get? fields "in" = some (.str location) ∧
    Json.Fields.get? fields "name" = some name ∧ name.truthy = true ∧ ∀ text, name ≠ .str text

namespace Endpoint

/-- The fields of the endpoint's operation in the current document; it has none if it is not
there. -/
def DescribedBy (ctx : Context) (e : Endpoint) (fields : Json.Fields) : Prop :=
  ∃ item itemFields, ParameterNames.pathItem ctx e.pathRoute = .ok item ∧
    StandsFor ctx item itemFields ∧
    ParameterNames.orEmpty ((Json.Fields.get? itemFields e.operation.verb.name).getD .null) =
      .obj fields

/-- The items of the list of the operation's parameters. -/
def HasParameters (ctx : Context) (e : Endpoint) (parameters : List Json) : Prop :=
  ∃ fields, e.DescribedBy ctx fields ∧ Json.Fields.get? fields "parameters" = some (.arr parameters)

/-- A place of the current document that the names of the parameters are read from is of the wrong
kind. -/
inductive IllTyped (ctx : Context) (e : Endpoint) : Prop where
  /-- The path item is no object, nor a list or a text with `$ref` in it, which counts as a
  reference. -/
  | item {item : Json} (hitem : ParameterNames.pathItem ctx e.pathRoute = .ok item)
      (hobject : ∀ fields, item ≠ .obj fields) (href : ParameterNames.holdsRef item ≠ .ok true)
  | itemReference {item : Json} {fields : Json.Fields}
      (hitem : ParameterNames.pathItem ctx e.pathRoute = .ok item) (hleads : Leads ctx item fields)
      (hnonText : HasNonText fields)
  | operation {item operation : Json} {fields : Json.Fields}
      (hitem : ParameterNames.pathItem ctx e.pathRoute = .ok item)
      (hstands : StandsFor ctx item fields)
      (hoperation : Json.Fields.get? fields e.operation.verb.name = some operation)
      (htruthy : operation.truthy = true) (hobject : ∀ fields, operation ≠ .obj fields)
  | parameters {fields : Json.Fields} {parameters : Json} (hfields : e.DescribedBy ctx fields)
      (hparameters : Json.Fields.get? fields "parameters" = some parameters)
      (htruthy : parameters.truthy = true) (hscalar : parameters.IsScalar)
  | parameterReference {before after : List Json} {parameter : Json} {fields : Json.Fields}
      (hparameters : e.HasParameters ctx (before ++ parameter :: after))
      (hbefore : ∀ other ∈ before, ∃ fields, StandsFor ctx other fields)
      (hleads : Leads ctx parameter fields) (hnonText : HasNonText fields)
  | name {parameters : List Json} {parameter : Json} {fields : Json.Fields}
      (hparameters : e.HasParameters ctx parameters)
      (hall : ∀ other ∈ parameters, ∃ fields, StandsFor ctx other fields)
      (hparameter : parameter ∈ parameters) (hstands : StandsFor ctx parameter fields)
      (hname : HasNonTextName fields)

end Endpoint

/-! ### Outcomes -/

/-- The outcome is a fault that is not about following a reference. -/
def Misreads {α : Type} (x : Except Fault α) : Prop :=
  ∃ fault, x = .error fault ∧ ∀ error, fault ≠ .reference error

section
variable {α β : Type} {x : Except Fault α} {f : α → Except Fault β} {a : α} {fault : Fault}

theorem not_misreads_ok : ¬Misreads (.ok a : Except Fault α) := fun ⟨_, h, _⟩ => nomatch h

theorem misreads_error_iff :
    Misreads (.error fault : Except Fault α) ↔ ∀ error, fault ≠ .reference error := by
  refine ⟨?_, fun h => ⟨fault, rfl, h⟩⟩
  rintro ⟨other, h, hother⟩
  exact Except.error.inj h ▸ hother

theorem misreads_bind_iff :
    Misreads (x >>= f) ↔ Misreads x ∨ ∃ a, x = .ok a ∧ Misreads (f a) := by
  cases x with
  | error fault =>
    show Misreads (.error fault : Except Fault β) ↔ _
    rw [misreads_error_iff, misreads_error_iff]
    exact ⟨.inl, fun h => h.elim id fun ⟨_, h, _⟩ => nomatch h⟩
  | ok a =>
    refine ⟨fun h => .inr ⟨a, rfl, h⟩, fun h => ?_⟩
    rcases h with h | ⟨b, h, hb⟩
    · exact absurd h not_misreads_ok
    · exact Except.ok.inj h ▸ hb

theorem misreads_map_iff {g : α → β} : Misreads (x.map g) ↔ Misreads x := by
  cases x with
  | error fault => exact misreads_error_iff.trans misreads_error_iff.symm
  | ok a => exact ⟨fun h => absurd h not_misreads_ok, fun h => absurd h not_misreads_ok⟩

end

section
variable {ctx : Context} {value : Json} {fields : Json.Fields}

theorem Reference.standsFor_self (h : Json.Fields.get? fields "$ref" = none) :
    StandsFor ctx (.obj fields) fields := ⟨Reference.leads_self ctx fields, h⟩

theorem Reference.exists_resolve_iff_standsFor :
    (∃ resolved, resolve ctx value = .ok resolved ∧ resolved.schema = fields) ↔
      StandsFor ctx value fields := by
  rw [StandsFor, ← Reference.exists_resolve_iff_leads]
  constructor
  · rintro ⟨⟨_, imports⟩, h, rfl⟩
    exact ⟨imports, h⟩
  · rintro ⟨imports, h⟩
    exact ⟨_, h, rfl⟩

theorem misreads_resolve_iff :
    Misreads (resolve ctx value) ↔ ∃ fields, Leads ctx value fields ∧ HasNonText fields := by
  rw [← Reference.resolve_eq_noMembers_iff]
  constructor
  · rintro ⟨fault, h, hreference⟩
    rcases Reference.exists_of_resolve_eq_error h with ⟨error, rfl⟩ | rfl
    · exact absurd rfl (hreference error)
    · exact h
  · exact fun h => ⟨_, h, nofun⟩

theorem Reference.exists_obj_of_leads (h : Leads ctx value fields) :
    ∃ given, value = .obj given := by
  obtain ⟨locations, key, hchain, -⟩ := h
  cases hchain with
  | refl => exact ⟨fields, rfl⟩
  | step hn =>
    cases value with
    | obj given => exact ⟨given, rfl⟩
    | _ => exact absurd rfl hn.refOf?_ne_none

theorem resolve_of_ne_obj (h : ∀ fields, value ≠ .obj fields) :
    resolve ctx value = .error (.reference (.notObject value)) := by
  unfold resolve Reference.follow
  cases value with
  | obj fields => exact absurd rfl (h fields)
  | _ => rfl

end

namespace ParameterNames

variable {ctx : Context} {e : Endpoint} {item : Json} {fields : Json.Fields} {method : String}

/-! ### The path item -/

theorem dereference_obj : dereference ctx (.obj fields) =
    if Json.Fields.has fields "$ref" then
      (resolve ctx (.obj fields)).map fun resolved => .obj resolved.schema
    else .ok (.obj fields) := by
  have href : holdsRef (.obj fields) = .ok (Json.Fields.has fields "$ref") := rfl
  unfold dereference
  rw [href]
  cases Json.Fields.has fields "$ref" with
  | false => rfl
  | true =>
    show (resolve ctx (.obj fields) >>= _) = _
    cases resolve ctx (.obj fields) <;> rfl

theorem get?_eq_none_of_has (h : ¬Json.Fields.has fields "$ref" = true) :
    Json.Fields.get? fields "$ref" = none := by
  simpa [Json.Fields.has] using h

theorem misreads_dereference_obj_iff :
    Misreads (dereference ctx (.obj fields)) ↔
      ∃ target, Leads ctx (.obj fields) target ∧ HasNonText target := by
  rw [dereference_obj]
  split
  · rw [misreads_map_iff, misreads_resolve_iff]
  · next hhas =>
    have hend := get?_eq_none_of_has hhas
    refine ⟨fun h => absurd h not_misreads_ok, ?_⟩
    rintro ⟨target, hleads, ref, href, -⟩
    rw [Reference.eq_of_leads hend hleads] at href
    exact nomatch hend.symm.trans href

theorem dereference_obj_eq_ok_iff {place : Json} :
    dereference ctx (.obj fields) = .ok place ↔
      ∃ target, StandsFor ctx (.obj fields) target ∧ place = .obj target := by
  rw [dereference_obj]
  split
  · constructor
    · intro h
      obtain ⟨resolved, hresolve, rfl⟩ := exists_of_map_eq_ok h
      exact ⟨_, Reference.exists_resolve_iff_standsFor.mp ⟨resolved, hresolve, rfl⟩, rfl⟩
    · rintro ⟨target, hstands, rfl⟩
      obtain ⟨resolved, hresolve, rfl⟩ := Reference.exists_resolve_iff_standsFor.mpr hstands
      rw [hresolve]
      rfl
  · next hhas =>
    have hend := get?_eq_none_of_has hhas
    constructor
    · intro h
      exact ⟨fields, Reference.standsFor_self hend, (Except.ok.inj h).symm⟩
    · rintro ⟨target, hstands, rfl⟩
      rw [Reference.eq_of_leads hend hstands.1]

/-! ### The operation and its parameters -/

theorem listedFor_obj : listedFor (.obj fields) method =
    (member (orEmpty ((Json.Fields.get? fields method).getD .null)) "parameters" >>=
      fun parameters => if parameters.truthy then listed parameters else .ok []) := rfl

theorem orEmpty_cases (v : Json) : (∃ fields, orEmpty v = .obj fields) ∨
    orEmpty v = v ∧ v.truthy = true ∧ ∀ fields, v ≠ .obj fields := by
  unfold orEmpty
  split
  · next htruthy =>
    cases v with
    | obj fields => exact .inl ⟨fields, rfl⟩
    | _ => exact .inr ⟨rfl, htruthy, nofun⟩
  · exact .inl ⟨[], rfl⟩

theorem listedFor_obj_of_orEmpty {inner : Json.Fields}
    (h : orEmpty ((Json.Fields.get? fields method).getD .null) = .obj inner) :
    listedFor (.obj fields) method =
      if ((Json.Fields.get? inner "parameters").getD .null).truthy then
        listed ((Json.Fields.get? inner "parameters").getD .null)
      else .ok [] := by
  rw [listedFor_obj, h]
  rfl

theorem misreads_listed_iff {v : Json} (htruthy : v.truthy = true) :
    Misreads (listed v) ↔ v.IsScalar := by
  cases v with
  | null => exact nomatch htruthy
  | bool _ | int _ | float _ => exact ⟨fun _ => trivial, fun _ => ⟨.wrongKind, rfl, nofun⟩⟩
  | _ => exact ⟨fun h => absurd h not_misreads_ok, False.elim⟩

theorem misreads_listedFor_obj_iff :
    Misreads (listedFor (.obj fields) method) ↔
      (∃ operation, Json.Fields.get? fields method = some operation ∧ operation.truthy = true ∧
        ∀ fields, operation ≠ .obj fields) ∨
      ∃ inner parameters, orEmpty ((Json.Fields.get? fields method).getD .null) = .obj inner ∧
        Json.Fields.get? inner "parameters" = some parameters ∧ parameters.truthy = true ∧
        parameters.IsScalar := by
  rcases orEmpty_cases ((Json.Fields.get? fields method).getD .null)
    with ⟨inner, hinner⟩ | ⟨hsame, htruthy, hobject⟩
  · rw [listedFor_obj_of_orEmpty hinner]
    constructor
    · intro h
      split at h
      · next htruthy =>
        cases hparameters : Json.Fields.get? inner "parameters" with
        | none =>
          rw [hparameters] at htruthy
          exact nomatch htruthy
        | some parameters =>
          rw [hparameters] at htruthy h
          exact .inr ⟨inner, parameters, hinner, hparameters, htruthy,
            (misreads_listed_iff htruthy).mp h⟩
      · exact absurd h not_misreads_ok
    · rintro (⟨operation, hoperation, htruthy, hobject⟩ |
        ⟨other, parameters, hother, hparameters, htruthy, hscalar⟩)
      · rw [hoperation, Option.getD_some, orEmpty, if_pos htruthy] at hinner
        exact absurd hinner (hobject inner)
      · obtain rfl := Json.obj.inj (hinner.symm.trans hother)
        rw [hparameters, Option.getD_some, if_pos htruthy]
        exact (misreads_listed_iff htruthy).mpr hscalar
  · have hoperation : ∃ operation, Json.Fields.get? fields method = some operation ∧
        operation.truthy = true ∧ ∀ fields, operation ≠ .obj fields := by
      cases hget : Json.Fields.get? fields method with
      | none =>
        rw [hget] at htruthy
        exact nomatch htruthy
      | some operation =>
        rw [hget] at htruthy hobject
        exact ⟨operation, rfl, htruthy, hobject⟩
    refine ⟨fun _ => .inl hoperation, fun _ => ?_⟩
    rw [listedFor_obj, hsame]
    generalize (Json.Fields.get? fields method).getD .null = operation at hobject
    cases operation with
    | obj fields => exact absurd rfl (hobject fields)
    | _ => exact ⟨.noMembers, rfl, nofun⟩

theorem exists_of_listedFor_obj_eq_ok {parameters : List Json}
    (h : listedFor (.obj fields) method = .ok parameters) :
    (∃ inner, orEmpty ((Json.Fields.get? fields method).getD .null) = .obj inner ∧
      Json.Fields.get? inner "parameters" = some (.arr parameters)) ∨
    ∀ parameter ∈ parameters, ∃ text, parameter = .str text := by
  rcases orEmpty_cases ((Json.Fields.get? fields method).getD .null)
    with ⟨inner, hinner⟩ | ⟨hsame, -, hobject⟩
  · rw [listedFor_obj_of_orEmpty hinner] at h
    split at h
    · cases hparameters : Json.Fields.get? inner "parameters" with
      | none =>
        rw [hparameters] at h
        exact nomatch h
      | some given =>
        rw [hparameters, Option.getD_some] at h
        cases given with
        | arr items =>
          obtain rfl := Except.ok.inj h
          exact .inl ⟨inner, hinner, hparameters⟩
        | obj fields =>
          obtain rfl := Except.ok.inj h
          refine .inr fun parameter hp => ?_
          obtain ⟨field, -, rfl⟩ := List.mem_map.mp hp
          exact ⟨field.1, rfl⟩
        | str text =>
          obtain rfl := Except.ok.inj h
          refine .inr fun parameter hp => ?_
          obtain ⟨c, -, rfl⟩ := List.mem_map.mp hp
          exact ⟨_, rfl⟩
        | _ => exact nomatch h
    · obtain rfl := Except.ok.inj h
      exact .inr nofun
  · rw [listedFor_obj, hsame] at h
    generalize (Json.Fields.get? fields method).getD .null = operation at h hobject
    cases operation with
    | obj fields => exact absurd rfl (hobject fields)
    | _ => exact nomatch h

theorem listedFor_obj_of_get? {inner : Json.Fields} {parameters : List Json}
    (hinner : orEmpty ((Json.Fields.get? fields method).getD .null) = .obj inner)
    (h : Json.Fields.get? inner "parameters" = some (.arr parameters)) :
    listedFor (.obj fields) method = .ok parameters := by
  rw [listedFor_obj_of_orEmpty hinner, h, Option.getD_some]
  cases parameters <;> rfl

/-! ### The parameters and their names -/

variable {parameters : List Json}

theorem misreads_targets_iff : Misreads (targets ctx parameters) ↔
    ∃ before parameter after fields, parameters = before ++ parameter :: after ∧
      (∀ other ∈ before, ∃ fields, StandsFor ctx other fields) ∧
      Leads ctx parameter fields ∧ HasNonText fields := by
  have hstands (other : Json) : (∃ fields, StandsFor ctx other fields) ↔
      ∃ fields, (resolve ctx other).map (·.schema) = .ok fields := by
    constructor
    · rintro ⟨fields, h⟩
      obtain ⟨resolved, hresolve, rfl⟩ := Reference.exists_resolve_iff_standsFor.mpr h
      exact ⟨_, by rw [hresolve]; rfl⟩
    · rintro ⟨fields, h⟩
      obtain ⟨resolved, hresolve, rfl⟩ := exists_of_map_eq_ok h
      exact ⟨_, Reference.exists_resolve_iff_standsFor.mp ⟨resolved, hresolve, rfl⟩⟩
  simp only [hstands]
  unfold Misreads targets
  simp only [mapM_eq_error_iff]
  constructor
  · rintro ⟨fault, ⟨before, parameter, after, rfl, hbefore, hparameter⟩, hreference⟩
    obtain ⟨fields, hleads, hnonText⟩ := misreads_resolve_iff.mp
      ⟨fault, eq_error_of_map_eq_error hparameter, hreference⟩
    exact ⟨before, parameter, after, fields, rfl, hbefore, hleads, hnonText⟩
  · rintro ⟨before, parameter, after, fields, rfl, hbefore, hleads, hnonText⟩
    obtain ⟨fault, hresolve, hreference⟩ := misreads_resolve_iff.mpr ⟨fields, hleads, hnonText⟩
    exact ⟨fault, ⟨before, parameter, after, rfl, hbefore, by rw [hresolve]; rfl⟩, hreference⟩

theorem mem_targets_iff {objects : List Json.Fields} (h : targets ctx parameters = .ok objects) :
    fields ∈ objects ↔ ∃ parameter ∈ parameters, StandsFor ctx parameter fields := by
  have hall := forall₂_of_mapM_eq_ok h
  constructor
  · intro hmem
    obtain ⟨parameter, hp, htarget⟩ := exists_of_forall₂_right hall hmem
    obtain ⟨resolved, hresolve, hschema⟩ := exists_of_map_eq_ok htarget
    exact ⟨parameter, hp, Reference.exists_resolve_iff_standsFor.mp ⟨resolved, hresolve, hschema⟩⟩
  · rintro ⟨parameter, hp, hstands⟩
    obtain ⟨resolved, hresolve, rfl⟩ := Reference.exists_resolve_iff_standsFor.mpr hstands
    obtain ⟨object, ho, htarget⟩ := exists_of_forall₂_right hall.flip hp
    rw [hresolve] at htarget
    obtain rfl := Except.ok.inj htarget
    exact ho

theorem misreads_text_iff {v : Json} : Misreads (text v) ↔ ∀ text, v ≠ .str text := by
  cases v with
  | str s => exact ⟨fun h => absurd h not_misreads_ok, fun h => absurd rfl (h s)⟩
  | _ => exact ⟨fun _ => nofun, fun _ => ⟨.wrongKind, rfl, nofun⟩⟩

theorem misreads_mapM_text_iff {names : List Json} :
    Misreads (names.mapM text) ↔ ∃ name ∈ names, ∀ text, name ≠ .str text := by
  induction names with
  | nil => exact ⟨fun h => absurd h not_misreads_ok, nofun⟩
  | cons name names ih =>
    have hcons : (name :: names).mapM text =
        (text name >>= fun s => (names.mapM text).map (s :: ·)) := by
      rw [List.mapM_cons]
      cases text name with
      | error fault => rfl
      | ok s => cases names.mapM text <;> rfl
    rw [hcons, misreads_bind_iff, misreads_text_iff]
    simp only [misreads_map_iff, ih, List.exists_mem_cons_iff]
    cases name with
    | str s => simp [text]
    | _ => simp

theorem nameIn?_eq_some_iff {location : String} {name : Json} :
    nameIn? location fields = some name ↔ Json.Fields.get? fields "in" = some (.str location) ∧
      Json.Fields.get? fields "name" = some name ∧ name.truthy = true := by
  have hlocation : ((Json.Fields.get? fields "in").getD .null).isText location = true ↔
      Json.Fields.get? fields "in" = some (.str location) := by
    cases Json.Fields.get? fields "in" with
    | none => exact ⟨nofun, nofun⟩
    | some v => cases v <;> simp [Json.isText]
  unfold nameIn?
  by_cases h : ((Json.Fields.get? fields "in").getD .null).isText location = true
  · rw [if_pos h, Option.filter_eq_some_iff]
    exact ⟨fun hname => ⟨hlocation.mp h, hname⟩, fun hname => hname.2⟩
  · rw [if_neg h]
    exact ⟨nofun, fun hname => absurd (hlocation.mpr hname.1) h⟩

theorem misreads_or_exists_mapM_text (names : List Json) :
    Misreads (names.mapM text) ∨ ∃ texts, names.mapM text = .ok texts := by
  by_cases h : ∃ name ∈ names, ∀ text, name ≠ .str text
  · exact .inl (misreads_mapM_text_iff.mpr h)
  · refine .inr (exists_mapM_eq_ok fun name hname => ?_)
    obtain ⟨s, rfl⟩ : ∃ s, name = .str s := by
      by_contra hnone
      exact h ⟨name, hname, fun s hs => hnone ⟨s, hs⟩⟩
    exact ⟨s, rfl⟩

theorem misreads_texts_iff {objects : List Json.Fields} :
    Misreads (ofTargets e objects).texts ↔ ∃ fields ∈ objects, HasNonTextName fields := by
  have hnames (location : String) :
      Misreads ((objects.filterMap (nameIn? location)).mapM text) ↔
        ∃ fields ∈ objects, ∃ name, Json.Fields.get? fields "in" = some (.str location) ∧
          Json.Fields.get? fields "name" = some name ∧ name.truthy = true ∧
          ∀ text, name ≠ .str text := by
    simp only [misreads_mapM_text_iff, List.mem_filterMap, nameIn?_eq_some_iff]
    constructor
    · rintro ⟨name, ⟨fields, hfields, hin, hname, htruthy⟩, hnonText⟩
      exact ⟨fields, hfields, name, hin, hname, htruthy, hnonText⟩
    · rintro ⟨fields, hfields, name, hin, hname, htruthy, hnonText⟩
      exact ⟨name, ⟨fields, hfields, hin, hname, htruthy⟩, hnonText⟩
  have hpath : ¬Misreads ((ofTargets e objects).path.mapM text) := by
    rw [misreads_mapM_text_iff]
    rintro ⟨name, hname, hnonText⟩
    obtain ⟨argument, -, rfl⟩ := List.mem_map.mp hname
    exact hnonText _ rfl
  unfold texts
  simp only [misreads_bind_iff]
  constructor
  · rintro (hquery | ⟨query, -, hheader | ⟨header, -, h | ⟨path, -, h⟩⟩⟩)
    · obtain ⟨fields, hfields, name, hname⟩ := (hnames "query").mp hquery
      exact ⟨fields, hfields, "query", name, .inl rfl, hname⟩
    · obtain ⟨fields, hfields, name, hname⟩ := (hnames "header").mp hheader
      exact ⟨fields, hfields, "header", name, .inr rfl, hname⟩
    · exact absurd h hpath
    · exact absurd h not_misreads_ok
  · rintro ⟨fields, hfields, location, name, rfl | rfl, hname⟩
    · exact .inl ((hnames "query").mpr ⟨fields, hfields, name, hname⟩)
    · refine (misreads_or_exists_mapM_text _).imp_right fun ⟨query, hquery⟩ => ?_
      exact ⟨query, hquery, .inl ((hnames "header").mpr ⟨fields, hfields, name, hname⟩)⟩

/-! ### All places -/

theorem read_eq (hitem : pathItem ctx e.pathRoute = .ok item) : read ctx e =
    (dereference ctx item >>= fun place => listedFor place e.operation.verb.name >>=
      fun parameters => targets ctx parameters >>= fun objects => (ofTargets e objects).texts) := by
  unfold read
  rw [collect_eq, parameters_eq hitem]
  cases dereference ctx item with
  | error fault => rfl
  | ok place =>
    simp only [bind, Except.bind]
    cases listedFor place e.operation.verb.name with
    | error fault => rfl
    | ok parameters =>
      dsimp only
      cases targets ctx parameters <;> rfl

theorem misreads_dereference_of_ne_obj (hobject : ∀ fields, item ≠ .obj fields)
    {f : List Json → Except Fault NameTexts} :
    Misreads (dereference ctx item >>= fun place => listedFor place method >>= f) ↔
      holdsRef item ≠ .ok true := by
  unfold dereference
  cases href : holdsRef item with
  | error fault =>
    refine ⟨fun _ => nofun, fun _ => ⟨fault, rfl, ?_⟩⟩
    cases item with
    | obj fields => exact absurd rfl (hobject fields)
    | arr | str => exact nomatch href
    | _ =>
      rw [← Except.error.inj href]
      exact nofun
  | ok holds =>
    cases holds with
    | true =>
      refine ⟨fun h => ?_, fun h => absurd rfl h⟩
      obtain ⟨fault, h, hreference⟩ := h
      change ((resolve ctx item >>= _) >>= _) = _ at h
      rw [resolve_of_ne_obj hobject] at h
      exact absurd (Except.error.inj h).symm (hreference _)
    | false =>
      refine ⟨fun _ => nofun, fun _ => ⟨.noMembers, ?_, nofun⟩⟩
      cases item with
      | obj fields => exact absurd rfl (hobject fields)
      | _ => rfl

theorem misreads_read_obj_iff (hitem : pathItem ctx e.pathRoute = .ok (.obj fields)) :
    Misreads (read ctx e) ↔
      (∃ target, Leads ctx (.obj fields) target ∧ HasNonText target) ∨
      ∃ target, StandsFor ctx (.obj fields) target ∧
        (Misreads (listedFor (.obj target) e.operation.verb.name) ∨
          ∃ parameters, listedFor (.obj target) e.operation.verb.name = .ok parameters ∧
            (Misreads (targets ctx parameters) ∨
              ∃ objects, targets ctx parameters = .ok objects ∧
                ∃ object ∈ objects, HasNonTextName object)) := by
  rw [read_eq hitem]
  simp only [misreads_bind_iff, misreads_dereference_obj_iff, dereference_obj_eq_ok_iff,
    misreads_texts_iff]
  refine or_congr Iff.rfl ⟨?_, ?_⟩
  · rintro ⟨_, ⟨target, hstands, rfl⟩, h⟩
    exact ⟨target, hstands, h⟩
  · rintro ⟨target, hstands, h⟩
    exact ⟨_, ⟨target, hstands, rfl⟩, h⟩

theorem illTyped_of_misreads (hitem : pathItem ctx e.pathRoute = .ok (.obj fields))
    (h : Misreads (read ctx e)) : e.IllTyped ctx := by
  rcases (misreads_read_obj_iff hitem).mp h with
    ⟨target, hleads, hnonText⟩ | ⟨target, hstands, hlisting | ⟨parameters, hlisted, h⟩⟩
  · exact .itemReference hitem hleads hnonText
  · rcases misreads_listedFor_obj_iff.mp hlisting with
      ⟨operation, hoperation, htruthy, hobject⟩ |
      ⟨inner, parameters, hinner, hget, htruthy, hscalar⟩
    · exact .operation hitem hstands hoperation htruthy hobject
    · exact .parameters ⟨_, target, hitem, hstands, hinner⟩ hget htruthy hscalar
  · -- what is listed but no item of a list is a text, and leads nowhere
    have hparameters {parameter : Json} {object : Json.Fields} (hp : parameter ∈ parameters)
        (hleads : Leads ctx parameter object) : e.HasParameters ctx parameters := by
      rcases exists_of_listedFor_obj_eq_ok hlisted with ⟨inner, hinner, hget⟩ | htexts
      · exact ⟨inner, ⟨_, target, hitem, hstands, hinner⟩, hget⟩
      · obtain ⟨text, rfl⟩ := htexts parameter hp
        obtain ⟨given, hgiven⟩ := Reference.exists_obj_of_leads hleads
        exact nomatch hgiven
    rcases h with htargets | ⟨objects, htargets, object, hobject, hname⟩
    · obtain ⟨before, parameter, after, object, rfl, hbefore, hleads, hnonText⟩ :=
        misreads_targets_iff.mp htargets
      exact .parameterReference (hparameters (by simp) hleads) hbefore hleads hnonText
    · obtain ⟨parameter, hp, hstandsFor⟩ := (mem_targets_iff htargets).mp hobject
      refine .name (hparameters hp hstandsFor.1) (fun other ho => ?_) hp hstandsFor hname
      have hall := forall₂_of_mapM_eq_ok htargets
      obtain ⟨object, -, htarget⟩ := exists_of_forall₂_right hall.flip ho
      obtain ⟨resolved, hresolve, hschema⟩ := exists_of_map_eq_ok htarget
      exact ⟨object, Reference.exists_resolve_iff_standsFor.mp ⟨resolved, hresolve, hschema⟩⟩

theorem exists_targets_eq_ok
    (h : ∀ parameter ∈ parameters, ∃ fields, StandsFor ctx parameter fields) :
    ∃ objects, targets ctx parameters = .ok objects := by
  refine exists_mapM_eq_ok fun parameter hp => ?_
  obtain ⟨fields, hstands⟩ := h parameter hp
  obtain ⟨resolved, hresolve, rfl⟩ := Reference.exists_resolve_iff_standsFor.mpr hstands
  exact ⟨resolved.schema, by rw [hresolve]; rfl⟩

theorem misreads_of_hasParameters (hparameters : e.HasParameters ctx parameters)
    (h : Misreads (targets ctx parameters) ∨
      ∃ objects, targets ctx parameters = .ok objects ∧
        ∃ object ∈ objects, HasNonTextName object) : Misreads (read ctx e) := by
  obtain ⟨inner, ⟨item, target, hitem, hstands, hinner⟩, hget⟩ := hparameters
  obtain ⟨given, rfl⟩ := Reference.exists_obj_of_leads hstands.1
  exact (misreads_read_obj_iff hitem).mpr
    (.inr ⟨target, hstands, .inr ⟨_, listedFor_obj_of_get? hinner hget, h⟩⟩)

theorem misreads_of_illTyped (h : e.IllTyped ctx) : Misreads (read ctx e) := by
  cases h with
  | item hitem hobject href =>
    rw [read_eq hitem, misreads_dereference_of_ne_obj hobject]
    exact href
  | itemReference hitem hleads hnonText =>
    obtain ⟨given, rfl⟩ := Reference.exists_obj_of_leads hleads
    exact (misreads_read_obj_iff hitem).mpr (.inl ⟨_, hleads, hnonText⟩)
  | operation hitem hstands hoperation htruthy hobject =>
    obtain ⟨given, rfl⟩ := Reference.exists_obj_of_leads hstands.1
    exact (misreads_read_obj_iff hitem).mpr (.inr ⟨_, hstands, .inl
      (misreads_listedFor_obj_iff.mpr (.inl ⟨_, hoperation, htruthy, hobject⟩))⟩)
  | parameters hfields hparameters htruthy hscalar =>
    obtain ⟨item, target, hitem, hstands, hinner⟩ := hfields
    obtain ⟨given, rfl⟩ := Reference.exists_obj_of_leads hstands.1
    exact (misreads_read_obj_iff hitem).mpr (.inr ⟨_, hstands, .inl
      (misreads_listedFor_obj_iff.mpr (.inr ⟨_, _, hinner, hparameters, htruthy, hscalar⟩))⟩)
  | parameterReference hparameters hbefore hleads hnonText =>
    exact misreads_of_hasParameters hparameters
      (.inl (misreads_targets_iff.mpr ⟨_, _, _, _, rfl, hbefore, hleads, hnonText⟩))
  | name hparameters hall hparameter hstands hname =>
    obtain ⟨objects, htargets⟩ := exists_targets_eq_ok hall
    exact misreads_of_hasParameters hparameters (.inr ⟨objects, htargets, _,
      (mem_targets_iff htargets).mpr ⟨_, hparameter, hstands⟩, hname⟩)

/-- The names cannot be read, for another reason than that a reference cannot be followed, exactly
if a place that they are read from is of the wrong kind. -/
theorem misreads_read_iff (hitem : pathItem ctx e.pathRoute = .ok item) :
    Misreads (read ctx e) ↔ e.IllTyped ctx := by
  refine ⟨fun h => ?_, misreads_of_illTyped⟩
  by_cases hobject : ∀ fields, item ≠ .obj fields
  · rw [read_eq hitem, misreads_dereference_of_ne_obj hobject] at h
    exact .item hitem hobject h
  · obtain ⟨fields, rfl⟩ : ∃ fields, item = .obj fields := by
      by_contra hnone
      exact hobject fun fields heq => hnone ⟨fields, heq⟩
    exact illTyped_of_misreads hitem h

end ParameterNames

end RequestGen
