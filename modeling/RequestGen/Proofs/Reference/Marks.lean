import Mathlib.Data.Finset.Card
import Mathlib.Data.Finset.Prod
import RequestGen.Proofs.Reference.Passes

/-! # How long references are followed

A pass that goes on leaves a new mark behind, and only a reference that occurs in the start value or
in a document can make one (`Known`). So a run ends, and it has at most one pass more than there are
pointers in these references, counted once for each document that can be selected
(`resolve_runs_within`). The fuel of `resolve` is never used up. -/

namespace RequestGen

namespace Reference

/-- The text of a reference, if it is one. -/
def text? : Json → Option String
  | .str text => some text
  | _ => none

mutual

/-- The texts of the references that a value holds, at any depth. -/
def refTexts : Json → List String
  | .arr items => refTextsOfItems items
  | .obj fields => refTextsOfFields fields
  | _ => []

def refTextsOfItems : List Json → List String
  | [] => []
  | item :: items => refTexts item ++ refTextsOfItems items

def refTextsOfFields : List (String × Json) → List String
  | [] => []
  | (key, value) :: fields =>
    (if key = "$ref" then (text? value).toList else []) ++ refTexts value ++ refTextsOfFields fields

end

mutual

theorem length_refTexts_le : ∀ value : Json, (refTexts value).length ≤ count value
  | .arr items => by simpa only [refTexts, count] using length_refTextsOfItems_le items
  | .obj fields => by simpa only [refTexts, count] using length_refTextsOfFields_le fields
  | .null | .bool _ | .int _ | .float _ | .str _ => by simp [refTexts, count]

theorem length_refTextsOfItems_le :
    ∀ items : List Json, (refTextsOfItems items).length ≤ countItems items
  | [] => by simp [refTextsOfItems]
  | item :: items => by
    have hitem := length_refTexts_le item
    have hitems := length_refTextsOfItems_le items
    simp only [refTextsOfItems, countItems, List.length_append]
    omega

theorem length_refTextsOfFields_le :
    ∀ fields : List (String × Json), (refTextsOfFields fields).length ≤ countFields fields
  | [] => by simp [refTextsOfFields]
  | (key, value) :: fields => by
    have hvalue := length_refTexts_le value
    have hfields := length_refTextsOfFields_le fields
    have hkey : (if key = "$ref" then (text? value).toList else []).length ≤
        if key = "$ref" then 1 else 0 := by
      split
      · cases text? value <;> simp
      · exact Nat.le_refl 0
    simp only [refTextsOfFields, countFields, List.length_append]
    omega

end

section
variable {fields specs : Json.Fields} {key text : String} {value found : Json}

theorem get?_eq_some_iff : Json.Fields.get? fields key = some value ↔
    ∃ before after, fields = before ++ (key, value) :: after ∧ ∀ field ∈ before, key ≠ field.1 := by
  simp [Json.Fields.get?, List.lookup_eq_some_iff]

theorem refTextsOfFields_append (before after : Json.Fields) :
    refTextsOfFields (before ++ after) = refTextsOfFields before ++ refTextsOfFields after := by
  induction before with
  | nil => rfl
  | cons field before ih => simp [refTextsOfFields, ih]

theorem refTexts_subset_of_get? (h : Json.Fields.get? fields key = some value) :
    refTexts value ⊆ refTextsOfFields fields := by
  obtain ⟨before, after, rfl, -⟩ := get?_eq_some_iff.mp h
  intro text ht
  simp [refTextsOfFields_append, refTextsOfFields, ht]

theorem mem_refTexts_of_refOf? (h : refOf? value = some (.str text)) : text ∈ refTexts value := by
  cases value with
  | obj fields =>
    obtain ⟨before, after, rfl, -⟩ := get?_eq_some_iff.mp h
    simp [refTexts, refTextsOfFields_append, refTextsOfFields, text?]
  | _ => exact nomatch h

theorem refTexts_subset_of_walk {tokens : List String} (h : walk value tokens = some found) :
    refTexts found ⊆ refTexts value := by
  induction tokens generalizing value with
  | nil =>
    cases value <;> exact Option.some.inj h ▸ List.Subset.refl _
  | cons token tokens ih =>
    cases value with
    | obj fields =>
      obtain ⟨next, hnext, hwalk⟩ := Option.bind_eq_some_iff.mp h
      exact List.Subset.trans (ih hwalk) (refTexts_subset_of_get? hnext)
    | _ => exact nomatch h

theorem refTexts_subset_of_value? {l : Location} (h : l.value? specs = some value) :
    refTexts value ⊆ specs.flatMap fun document => refTexts document.2 := by
  unfold Location.value? at h
  cases hd : Json.Fields.get? specs l.specKey with
  | none =>
    rw [hd] at h
    exact nomatch h
  | some document =>
    rw [hd, Option.getD_some] at h
    have hwalk : walk document l.tokens = some value := by
      cases document with
      | null => exact nomatch h
      | _ => exact h
    obtain ⟨before, after, rfl, -⟩ := get?_eq_some_iff.mp hd
    intro text ht
    simp [refTexts_subset_of_walk hwalk ht]

end

section
variable {ctx : Context} {start : Json}

/-- The keys under which a document can be selected: those of the loaded ones and the current. -/
def specKeys (ctx : Context) : Finset String := insert ctx.specKey (ctx.specs.map (·.1)).toFinset

/-- The texts of the references in the start value and in the documents. -/
def textsAround (ctx : Context) (start : Json) : List String :=
  refTexts start ++ ctx.specs.flatMap fun document => refTexts document.2

/-- The pointers that occur in these references. -/
def pointers (ctx : Context) (start : Json) : Finset (List String) :=
  ((textsAround ctx start).map fun text => (ofText text).tokens).toFinset

/-- The marks of all pointers in all documents. -/
def marks (ctx : Context) (start : Json) : Finset (String × String) :=
  (specKeys ctx ×ˢ pointers ctx start).image fun (key, tokens) => Location.mark ⟨key, tokens⟩

theorem card_marks_le : (marks ctx start).card ≤ (specKeys ctx ×ˢ pointers ctx start).card :=
  Finset.card_image_le

theorem length_textsAround_le :
    (textsAround ctx start).length ≤ count start + countFields ctx.specs := by
  have hdocuments : ∀ specs : Json.Fields,
      (specs.flatMap fun document => refTexts document.2).length ≤ countFields specs := by
    intro specs
    induction specs with
    | nil => simp
    | cons document specs ih =>
      have hdocument := length_refTexts_le document.2
      simp only [List.flatMap_cons, List.length_append, countFields]
      omega
  have hstart := length_refTexts_le start
  have := hdocuments ctx.specs
  simp only [textsAround, List.length_append]
  omega

theorem card_marks_le_bound : (marks ctx start).card ≤ bound ctx.specs start := by
  have hkeys : (specKeys ctx).card ≤ ctx.specs.length + 1 := by
    refine (Finset.card_insert_le _ _).trans ?_
    have := List.toFinset_card_le (ctx.specs.map (·.1))
    simp only [List.length_map] at this
    omega
  have hpointers : (pointers ctx start).card ≤ count start + countFields ctx.specs := by
    refine (List.toFinset_card_le _).trans ?_
    rw [List.length_map]
    exact length_textsAround_le
  refine card_marks_le.trans ?_
  rw [Finset.card_product]
  exact Nat.mul_le_mul hkeys hpointers

theorem Selects.mem_specKeys {current specKey : String} {document : Option String}
    (h : Selects ctx.specs current document specKey) (hc : current ∈ specKeys ctx) :
    specKey ∈ specKeys ctx := by
  have hloaded : ∀ key, Json.Fields.has ctx.specs key = true → key ∈ specKeys ctx := by
    intro key hkey
    obtain ⟨value, hvalue⟩ := Option.isSome_iff_exists.mp hkey
    obtain ⟨before, after, hspecs, -⟩ := get?_eq_some_iff.mp hvalue
    simp [specKeys, hspecs]
  cases h with
  | last => exact hc
  | exact h => exact hloaded _ h
  | stem _ h => exact hloaded _ h

/-- What holds before each pass of a run from `start`: the marks behind are distinct marks of
pointers, and whatever the value refers to is one of them too. -/
structure Known (ctx : Context) (start : Json) (s : Visit) : Prop where
  nodup : s.seen.Nodup
  seen : ∀ m ∈ s.seen, m ∈ marks ctx start
  specKey : s.specKey ∈ specKeys ctx
  refs : refTexts s.value ⊆ textsAround ctx start

theorem known_start (ctx : Context) (value : Json) : Known ctx value (.start ctx value) where
  nodup := List.nodup_nil
  seen _ hm := nomatch hm
  specKey := Finset.mem_insert_self _ _
  refs := List.subset_append_left _ _

namespace Known

variable {s : Visit} {l : Location} {value : Json}

theorem length_le (h : Known ctx start s) : s.seen.length ≤ (marks ctx start).card := by
  rw [← List.toFinset_card_of_nodup h.nodup]
  exact Finset.card_le_card fun m hm => h.seen m (List.mem_toFinset.mp hm)

theorem specKey_mem (h : Known ctx start s) (hn : Names ctx.specs s.toStop l) :
    l.specKey ∈ specKeys ctx := by
  obtain ⟨_, _, hs⟩ := hn
  exact hs.mem_specKeys h.specKey

theorem mark_mem (h : Known ctx start s) (hn : Names ctx.specs s.toStop l) :
    l.mark ∈ marks ctx start := by
  have hpointer : l.tokens ∈ pointers ctx start := by
    obtain ⟨_, hr, _⟩ := hn
    exact List.mem_toFinset.mpr (List.mem_map_of_mem (h.refs (mem_refTexts_of_refOf? hr)))
  exact Finset.mem_image.mpr ⟨(l.specKey, l.tokens),
    Finset.mem_product.mpr ⟨h.specKey_mem hn, hpointer⟩, rfl⟩

theorem arrive (h : Known ctx start s) (hn : Names ctx.specs s.toStop l) (hseen : l.mark ∉ s.seen)
    (hv : l.value? ctx.specs = some value) : Known ctx start (s.arrive l value) where
  nodup := List.nodup_cons.mpr ⟨hseen, h.nodup⟩
  seen m hm := by
    rcases List.mem_cons.mp hm with rfl | hm
    · exact h.mark_mem hn
    · exact h.seen m hm
  specKey := h.specKey_mem hn
  refs _ ht := List.mem_append_right _ (refTexts_subset_of_value? hv ht)

end Known

/-- A run has no more passes than there are marks left to make, and one; with as much fuel
`follow` gives its outcome. -/
theorem exists_runs_follow : ∀ (fuel : Nat) {s : Visit}, Known ctx start s →
    (marks ctx start).card ≤ fuel + s.seen.length →
    ∃ n, n + s.seen.length ≤ (marks ctx start).card + 1 ∧
      Runs ctx.specs s n ((follow ctx.specs fuel s.seen s.specKey s.value).map s.prepend) := by
  intro fuel s h hfuel
  have hlength := h.length_le
  cases hp : s.pass ctx.specs with
  | none =>
    rw [Visit.follow_of_pass_eq_none hp]
    exact ⟨0, by omega, .done hp⟩
  | some next =>
    cases next with
    | error e =>
      rw [Visit.follow_of_pass_eq_error hp]
      exact ⟨1, by omega, .fails hp⟩
    | ok s' =>
      obtain ⟨l, value, hn, hseen, hv, rfl⟩ := Visit.exists_of_pass_eq_ok hp
      have h' := h.arrive hn hseen hv
      have hlength' : s.seen.length + 1 ≤ (marks ctx start).card := h'.length_le
      cases fuel with
      | zero => omega
      | succ fuel =>
        obtain ⟨n, hle, hruns⟩ := exists_runs_follow fuel h' (by
          show _ ≤ fuel + (s.seen.length + 1)
          omega)
        rw [Visit.follow_of_pass_eq_ok hp]
        have hle : n + (s.seen.length + 1) ≤ (marks ctx start).card + 1 := hle
        exact ⟨n + 1, by omega, .passes hp hruns⟩

theorem exists_runs_resolve (ctx : Context) (value : Json) :
    ∃ n, n ≤ (marks ctx value).card + 1 ∧
      Runs ctx.specs (.start ctx value) n (resolve ctx value) := by
  have hprepend : resolve ctx value = (resolve ctx value).map (Visit.start ctx value).prepend := by
    cases resolve ctx value <;> rfl
  rw [hprepend]
  exact exists_runs_follow _ (known_start ctx value) card_marks_le_bound

end

/-- However references are chained, the run that follows them from a value ends, and it has at most
one pass more than there are pairs of a document that is loaded or current and a pointer that occurs
in a reference of the value or of a document. -/
theorem resolve_runs_within (ctx : Context) (value : Json) :
    ∃ n ≤ (specKeys ctx ×ˢ pointers ctx value).card + 1,
      Runs ctx.specs (.start ctx value) n (resolve ctx value) := by
  obtain ⟨n, hn, hruns⟩ := exists_runs_resolve ctx value
  exact ⟨n, hn.trans (Nat.add_le_add_right card_marks_le 1), hruns⟩

end Reference

end RequestGen
