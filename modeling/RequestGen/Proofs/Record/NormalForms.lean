import Mathlib.Data.List.Nodup
import RequestGen.Proofs.ListOutcomes
import RequestGen.Record.Catalogue

/-! # Normal forms

A value that a check leaves as it is is a normal form of the shape. What a check makes of a value is
one (`Shape.Regular.normal_of_check`) if the shape is regular: the keys of each record in it are
different, what its fields fall back to are normal forms, and names that are read in any case are
written in small letters. -/

namespace RequestGen

/-! ### Checks that succeed -/

theorem Except.map_eq_ok_iff {ε α β : Type} {x : Except ε α} {f : α → β} {b : β} :
    x.map f = .ok b ↔ ∃ a, x = .ok a ∧ f a = b := by
  cases x with
  | error _ => exact ⟨nofun, nofun⟩
  | ok a => exact ⟨fun h => ⟨a, rfl, Except.ok.inj h⟩, fun ⟨_, h, hf⟩ => by cases h; exact hf ▸ rfl⟩

namespace Checked

variable {α β γ : Type}

theorem both_eq_ok_iff {f : α → β → γ} {x : Checked α} {y : Checked β} {c : γ} :
    both f x y = .ok c ↔ ∃ a b, x = .ok a ∧ y = .ok b ∧ f a b = c := by
  cases x <;> cases y <;> simp [both]

theorem within_eq_ok_iff {key : String} {x : Checked α} {a : α} :
    within key x = .ok a ↔ x = .ok a := by
  cases x <;> simp [within]

end Checked

theorem lookup_eq_some_of_mem {pairs : Json.Fields} {key : String} {value : Json}
    (hkeys : (pairs.map Prod.fst).Nodup) (h : (key, value) ∈ pairs) :
    pairs.get? key = some value := by
  rw [Json.Fields.get?]
  induction pairs with
  | nil => exact absurd h List.not_mem_nil
  | cons pair pairs ih =>
    obtain ⟨hnew, hkeys⟩ := List.nodup_cons.mp hkeys
    rcases List.mem_cons.mp h with rfl | h
    · exact List.lookup_cons_self
    · have hne : key ≠ pair.1 := fun heq => hnew (heq ▸ List.mem_map_of_mem h)
      rw [List.lookup_cons, beq_eq_false_iff_ne.mpr hne]
      exact ih hkeys h

theorem forall₂_imp_of_mem {α β : Type} {R S : α → β → Prop} {l : List α} {m : List β}
    (h : List.Forall₂ R l m) (himp : ∀ a ∈ l, ∀ b ∈ m, R a b → S a b) : List.Forall₂ S l m := by
  induction h with
  | nil => exact .nil
  | cons hab _ ih =>
    refine .cons (himp _ List.mem_cons_self _ List.mem_cons_self hab) (ih fun a ha b hb => ?_)
    exact himp a (List.mem_cons_of_mem _ ha) b (List.mem_cons_of_mem _ hb)

namespace Shape

variable {shape : Shape} {name : String} {fields : List (Field Shape)} {v n : Json}

theorem checkItems_eq_ok_iff {check : Json → Checked Json} {i : Nat} {items normal : List Json} :
    checkItems check i items = .ok normal ↔
      List.Forall₂ (fun item n => check item = .ok n) items normal := by
  induction items generalizing i normal with
  | nil =>
    rw [checkItems, List.forall₂_nil_left_iff, Except.ok.injEq]
    exact eq_comm
  | cons item items ih =>
    rw [checkItems, Checked.both_eq_ok_iff, List.forall₂_cons_left_iff]
    constructor
    · rintro ⟨n, rest, hitem, hitems, rfl⟩
      exact ⟨n, rest, Checked.within_eq_ok_iff.mp hitem, ih.mp hitems, rfl⟩
    · rintro ⟨n, rest, hitem, hitems, rfl⟩
      exact ⟨n, rest, Checked.within_eq_ok_iff.mpr hitem, ih.mpr hitems, rfl⟩

theorem given_none {input : Json.Fields} {key : String} :
    given input key none = input.get? key := by
  unfold given
  cases input.get? key <;> rfl

/-- What a field comes to: what is given for it, in normal form, or else its fallback. -/
def FieldComesTo (input : Json.Fields) (f : Field Shape) (pair : String × Json) : Prop :=
  pair.1 = f.key ∧
    ((∃ v, given input f.key f.otherKey = some v ∧ f.shape.check v = .ok pair.2) ∨
      (given input f.key f.otherKey = none ∧ f.fallback = some pair.2))

theorem checkField_eq_ok_iff {f : Field Shape} {input : Json.Fields} {pair : String × Json} :
    checkField f input = .ok pair ↔ FieldComesTo input f pair := by
  obtain ⟨key, shape, fallback, otherKey⟩ := f
  obtain ⟨k, n⟩ := pair
  unfold FieldComesTo
  rw [checkField.eq_def]
  dsimp only
  cases hgiven : given input key otherKey with
  | some v =>
    rw [Except.map_eq_ok_iff]
    simp only [Checked.within_eq_ok_iff, Prod.mk.injEq]
    constructor
    · rintro ⟨n, hn, rfl, rfl⟩
      exact ⟨rfl, .inl ⟨v, rfl, hn⟩⟩
    · rintro ⟨rfl, ⟨_, heq, hn⟩ | ⟨hnone, -⟩⟩
      · exact ⟨n, Option.some.inj heq ▸ hn, rfl, rfl⟩
      · exact nomatch hnone
  | none =>
    cases fallback with
    | none => simp
    | some w => simp [eq_comm]

theorem checkFields_eq_ok_iff {input pairs : Json.Fields} :
    checkFields fields input = .ok pairs ↔ List.Forall₂ (FieldComesTo input) fields pairs := by
  induction fields generalizing pairs with
  | nil =>
    rw [checkFields, List.forall₂_nil_left_iff, Except.ok.injEq]
    exact eq_comm
  | cons f fields ih =>
    rw [checkFields, Checked.both_eq_ok_iff, List.forall₂_cons_left_iff]
    simp only [checkField_eq_ok_iff, ih, eq_comm (a := pairs)]

theorem unknownFields_eq_ok_iff {used : List String} {input : Json.Fields} :
    unknownFields used input = .ok () ↔ ∀ pair ∈ input, pair.1 ∈ used := by
  unfold unknownFields
  split
  · next hnone =>
    rw [List.filter_eq_nil_iff] at hnone
    exact iff_of_true rfl (by simpa using hnone)
  · next unknown hne =>
    refine iff_of_false nofun fun hall => hne ?_
    rw [List.filter_eq_nil_iff]
    simpa using hall

theorem check_record_eq_ok_iff : (record name fields).check v = .ok n ↔
    ∃ input pairs, v = .obj input ∧ n = .obj pairs ∧
      List.Forall₂ (FieldComesTo input) fields pairs ∧
      ∀ pair ∈ input, pair.1 ∈ fields.map fun f => usedKey input f.key f.otherKey := by
  rw [check.eq_def]
  dsimp only
  constructor
  · intro h
    split at h
    · next input =>
      obtain ⟨pairs, _, hpairs, hknown, rfl⟩ := Checked.both_eq_ok_iff.mp h
      exact ⟨input, pairs, rfl, rfl, checkFields_eq_ok_iff.mp hpairs,
        unknownFields_eq_ok_iff.mp hknown⟩
    · exact nomatch h
  · rintro ⟨input, pairs, rfl, rfl, hpairs, hknown⟩
    exact Checked.both_eq_ok_iff.mpr ⟨pairs, (), checkFields_eq_ok_iff.mpr hpairs,
      unknownFields_eq_ok_iff.mpr hknown, rfl⟩

/-! ### Normal forms -/

/-- Checking the value leaves it as it is. -/
def Normal (shape : Shape) (v : Json) : Prop := shape.check v = .ok v

theorem check_text_eq_ok_iff : check .text v = .ok n ↔ ∃ s, v = .str s ∧ n = .str s := by
  rw [check.eq_def]
  cases v <;> simp [complain, eq_comm]

theorem check_mapping_eq_ok_iff :
    check .mapping v = .ok n ↔ ∃ fields, v = .obj fields ∧ n = .obj fields := by
  rw [check.eq_def]
  cases v <;> simp [complain, eq_comm]

theorem checkFlag_eq_ok_iff : checkFlag v = .ok n ↔ ∃ b, flagOf v = .ok b ∧ n = .bool b := by
  unfold checkFlag
  cases flagOf v <;> simp [complain, eq_comm]

theorem checkFlagOrMapping_eq_ok_iff : checkFlagOrMapping v = .ok n ↔
    (∃ fields, v = .obj fields ∧ n = .obj fields) ∨ ∃ b, flagOf v = .ok b ∧ n = .bool b := by
  rw [checkFlagOrMapping.eq_def]
  split
  · next fields => simp [flagOf, eq_comm]
  · next hobj =>
    have hnone : ¬ ∃ fields, v = .obj fields ∧ n = .obj fields := by
      rintro ⟨fields, hv, -⟩
      exact hobj fields hv
    rw [or_iff_right hnone]
    cases flagOf v <;> simp [eq_comm]

theorem checkName_eq_ok_iff {names : List String} {normal : String → String} :
    checkName names normal v = .ok n ↔
      ∃ s, v = .str s ∧ normal s ∈ names ∧ n = .str (normal s) := by
  cases v with
  | str s =>
    rw [checkName]
    split
    · next h => simp [h, eq_comm]
    · next h => simp [h, complain]
  | _ => simp [checkName, complain]

theorem normal_text_iff : Normal .text v ↔ ∃ s, v = .str s := by
  rw [Normal, check_text_eq_ok_iff]
  exact exists_congr fun s => and_self_iff

theorem normal_mapping_iff : Normal .mapping v ↔ ∃ fields, v = .obj fields := by
  rw [Normal, check_mapping_eq_ok_iff]
  exact exists_congr fun fields => and_self_iff

theorem normal_bool (b : Bool) : Normal .flag (.bool b) := rfl

theorem normal_flag_iff : Normal .flag v ↔ ∃ b, v = .bool b := by
  constructor
  · intro h
    obtain ⟨b, -, hv⟩ := checkFlag_eq_ok_iff.mp h
    exact ⟨b, hv⟩
  · rintro ⟨b, rfl⟩
    exact normal_bool b

theorem normal_flagOrMapping_iff :
    Normal .flagOrMapping v ↔ (∃ fields, v = .obj fields) ∨ ∃ b, v = .bool b := by
  constructor
  · intro h
    rcases checkFlagOrMapping_eq_ok_iff.mp h with ⟨fields, hv, -⟩ | ⟨b, -, hv⟩
    · exact .inl ⟨fields, hv⟩
    · exact .inr ⟨b, hv⟩
  · rintro (⟨fields, rfl⟩ | ⟨b, rfl⟩) <;> rfl

theorem normal_oneOf_iff {names : List String} :
    Normal (.oneOf names) v ↔ ∃ s ∈ names, v = .str s := by
  have hcheck : Normal (.oneOf names) v ↔ checkName names id v = .ok v := Iff.rfl
  rw [hcheck, checkName_eq_ok_iff]
  exact exists_congr fun s => ⟨fun h => h.2, fun h => ⟨h.2, h⟩⟩

theorem normal_optional_iff : Normal (.optional shape) v ↔ v = .null ∨ shape.Normal v := by
  unfold Normal
  rw [check.eq_def]
  cases v <;> simp

theorem check_list_eq_ok_iff : (list shape).check v = .ok n ↔
    ∃ items normal, v = .arr items ∧ n = .arr normal ∧
      List.Forall₂ (fun item n => shape.check item = .ok n) items normal := by
  rw [check.eq_def]
  dsimp only
  constructor
  · intro h
    split at h
    · next items =>
      obtain ⟨normal, hitems, rfl⟩ := Except.map_eq_ok_iff.mp h
      exact ⟨items, normal, rfl, rfl, checkItems_eq_ok_iff.mp hitems⟩
    · exact nomatch h
  · rintro ⟨items, normal, rfl, rfl, hitems⟩
    exact Except.map_eq_ok_iff.mpr ⟨normal, checkItems_eq_ok_iff.mpr hitems, rfl⟩

theorem normal_list_iff : Normal (.list shape) v ↔
    ∃ items, v = .arr items ∧ ∀ item ∈ items, shape.Normal item := by
  rw [Normal, check_list_eq_ok_iff]
  constructor
  · rintro ⟨items, normal, rfl, hsame, hitems⟩
    obtain rfl := Json.arr.inj hsame
    exact ⟨_, rfl, fun item hi => List.forall₂_same.mp hitems item hi⟩
  · rintro ⟨items, rfl, hitems⟩
    exact ⟨items, items, rfl, rfl, List.forall₂_same.mpr hitems⟩

section Pairs

variable {R : Field Shape → String × Json → Prop} {pairs : Json.Fields}
  (hkeys : (fields.map (·.key)).Nodup) (h : List.Forall₂ R fields pairs)
  (hR : ∀ f pair, R f pair → pair.1 = f.key)

include hkeys h hR

theorem get?_of_forall₂ : ∀ pair ∈ pairs, pairs.get? pair.1 = some pair.2 := by
  have hsame : fields.map (·.key) = pairs.map Prod.fst := by
    rw [← List.forall₂_eq_eq_eq, List.forall₂_map_left_iff, List.forall₂_map_right_iff]
    exact h.imp fun f pair hpair => (hR f pair hpair).symm
  exact fun pair hpair => lookup_eq_some_of_mem (hsame ▸ hkeys) hpair

theorem forall₂_field :
    List.Forall₂ (fun f pair => R f pair ∧ pair = (f.key, Json.field (.obj pairs) f.key)) fields
      pairs := by
  refine forall₂_imp_of_mem h fun f _ pair hpair hfield => ⟨hfield, Prod.ext (hR f pair hfield) ?_⟩
  show pair.2 = (pairs.get? f.key).getD .null
  rw [← hR f pair hfield, get?_of_forall₂ hkeys h hR pair hpair, Option.getD_some]

theorem field_of_forall₂ {f : Field Shape} (hf : f ∈ fields) :
    R f (f.key, Json.field (.obj pairs) f.key) := by
  obtain ⟨pair, -, hpair, hsame⟩ := exists_of_forall₂_right (forall₂_field hkeys h hR).flip hf
  exact hsame ▸ hpair

theorem eq_map_field : pairs = fields.map fun f => (f.key, Json.field (.obj pairs) f.key) := by
  rw [← List.forall₂_eq_eq_eq, List.forall₂_map_right_iff]
  exact (forall₂_field hkeys h hR).flip.imp fun pair f hpair => hpair.2

end Pairs

theorem normal_record_iff (hkeys : (fields.map (·.key)).Nodup) : (record name fields).Normal v ↔
    ∃ pairs, v = .obj pairs ∧
      List.Forall₂ (fun f pair => pair.1 = f.key ∧ f.shape.Normal pair.2) fields pairs := by
  rw [Normal, check_record_eq_ok_iff]
  constructor
  · rintro ⟨input, pairs, rfl, hsame, hpairs, -⟩
    -- no fallback is taken, as the fields that come out are those that went in
    obtain rfl := Json.obj.inj hsame
    refine ⟨_, rfl, forall₂_imp_of_mem hpairs fun f _ pair hpair ⟨hkey, hvalue⟩ => ⟨hkey, ?_⟩⟩
    have hgiven : given input f.key f.otherKey = some pair.2 := by
      rw [given, ← hkey, get?_of_forall₂ hkeys hpairs (fun _ _ h => h.1) pair hpair]
    rcases hvalue with ⟨w, hw, hcheck⟩ | ⟨hnone, -⟩
    · rw [hgiven] at hw
      exact Option.some.inj hw ▸ hcheck
    · exact nomatch hgiven.symm.trans hnone
  · rintro ⟨pairs, rfl, hpairs⟩
    have hget := get?_of_forall₂ hkeys hpairs fun _ _ h => h.1
    refine ⟨pairs, pairs, rfl, rfl, ?_, fun pair hpair => ?_⟩
    · refine forall₂_imp_of_mem hpairs fun f _ pair hpair ⟨hkey, hvalue⟩ => ⟨hkey, .inl ?_⟩
      exact ⟨pair.2, by rw [given, ← hkey, hget pair hpair], hvalue⟩
    · -- a field that is present is read by its own key
      obtain ⟨f, hf, hkey⟩ := exists_of_forall₂_right hpairs hpair
      have hused : usedKey pairs f.key f.otherKey = pair.1 := by
        rw [usedKey, Json.Fields.has, ← hkey.1, hget pair hpair]
        rfl
      exact List.mem_map.mpr ⟨f, hf, hused⟩

/-- The shapes that a check normalizes once and for all. -/
inductive Regular : Shape → Prop where
  | text : Regular .text
  | flag : Regular .flag
  | any : Regular .any
  | mapping : Regular .mapping
  | flagOrMapping : Regular .flagOrMapping
  | oneOf (names : List String) : Regular (.oneOf names)
  | oneOfAnyCase {names : List String} (h : ∀ name ∈ names, name.toLower = name) :
      Regular (.oneOfAnyCase names)
  | optional {shape : Shape} (h : Regular shape) : Regular (.optional shape)
  | list {shape : Shape} (h : Regular shape) : Regular (.list shape)
  | record {name : String} {fields : List (Field Shape)} (hkeys : (fields.map (·.key)).Nodup)
      (hshapes : ∀ f ∈ fields, Regular f.shape)
      (hfallbacks : ∀ f ∈ fields, ∀ v, f.fallback = some v → f.shape.Normal v) :
      Regular (.record name fields)

/-- What a check makes of a value is a normal form. -/
theorem Regular.normal_of_check (hshape : shape.Regular) (h : shape.check v = .ok n) :
    shape.Normal n := by
  induction hshape generalizing v n with
  | text =>
    obtain ⟨s, -, rfl⟩ := check_text_eq_ok_iff.mp h
    exact rfl
  | flag =>
    obtain ⟨b, -, rfl⟩ := checkFlag_eq_ok_iff.mp h
    exact rfl
  | any => exact rfl
  | mapping =>
    obtain ⟨fields, -, rfl⟩ := check_mapping_eq_ok_iff.mp h
    exact rfl
  | flagOrMapping =>
    rcases checkFlagOrMapping_eq_ok_iff.mp h with ⟨fields, -, rfl⟩ | ⟨b, -, rfl⟩ <;> exact rfl
  | oneOf names =>
    obtain ⟨s, -, hmem, rfl⟩ := checkName_eq_ok_iff.mp h
    exact checkName_eq_ok_iff.mpr ⟨s, rfl, hmem, rfl⟩
  | oneOfAnyCase hnames =>
    obtain ⟨s, -, hmem, rfl⟩ := checkName_eq_ok_iff.mp h
    -- a name of the list is written in small letters
    have hsmall := hnames _ hmem
    exact checkName_eq_ok_iff.mpr ⟨s.toLower, rfl, hsmall.symm ▸ hmem, by rw [hsmall]⟩
  | optional hshape ih =>
    rw [normal_optional_iff]
    rw [check.eq_def] at h
    cases v with
    | null => exact .inl (Except.ok.inj h).symm
    | _ => exact .inr (ih h)
  | list hshape ih =>
    obtain ⟨items, normal, -, rfl, hitems⟩ := check_list_eq_ok_iff.mp h
    refine normal_list_iff.mpr ⟨normal, rfl, fun n hn => ?_⟩
    obtain ⟨item, -, hitem⟩ := exists_of_forall₂_right hitems hn
    exact ih hitem
  | record hkeys hshapes hfallbacks ih =>
    obtain ⟨input, pairs, -, rfl, hpairs, -⟩ := check_record_eq_ok_iff.mp h
    rw [normal_record_iff hkeys]
    refine ⟨pairs, rfl, forall₂_imp_of_mem hpairs fun f hf pair _ ⟨hkey, hvalue⟩ => ⟨hkey, ?_⟩⟩
    rcases hvalue with ⟨w, -, hcheck⟩ | ⟨-, hfallback⟩
    · exact ih f hf hcheck
    · exact hfallbacks f hf _ hfallback

end Shape

end RequestGen
