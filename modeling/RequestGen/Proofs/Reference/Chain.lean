import RequestGen.Reference.Resolve

/-! # Chains of references

A reference names a location: the document that it selects and the keys that lead to a value in it
(`Names`). A `Chain` goes from value to value, each of which stands at the location that the one
before it names. There is at most one way to a value without a reference, and it never comes back
to a location (`Chain.unique`, `Chain.nodup`). -/

namespace RequestGen

namespace Reference

/-- A place in the documents. -/
structure Location where
  specKey : String
  tokens : List String
deriving DecidableEq

/-- A value on the way and the document that was selected last. -/
structure Stop where
  specKey : String
  value : Json

/-- The document that a reference is looked up in after `current`: the one that it names, known by
its key or else by its file name, or else `current` itself. -/
inductive Selects (specs : Json.Fields) (current : String) : Option String → String → Prop where
  | last : Selects specs current none current
  | exact {document : String} (h : Json.Fields.has specs document = true) :
      Selects specs current (some document) document
  | stem {document : String} (h : Json.Fields.has specs document = false)
      (hs : Json.Fields.has specs (stem document) = true) :
      Selects specs current (some document) (stem document)

/-- The reference of the value at `s` names `l`. -/
inductive Names (specs : Json.Fields) (s : Stop) : Location → Prop where
  | intro (text : String) {specKey : String} (hr : refOf? s.value = some (.str text))
      (hs : Selects specs s.specKey (ofText text).document specKey) :
      Names specs s ⟨specKey, (ofText text).tokens⟩

namespace Location

/-- What the loop remembers of a location. -/
def mark (l : Location) : String × String := (l.specKey, String.intercalate "/" l.tokens)

/-- The value that stands there, if the document is loaded. -/
def value? (specs : Json.Fields) (l : Location) : Option Json :=
  match (Json.Fields.get? specs l.specKey).getD .null with
  | .null => none
  | document => walk document l.tokens

/-- The import of the model that the last key names. -/
def import? (l : Location) : Option Import :=
  l.tokens.getLast?.map fun token => { name := Naming.pascal token, schemaName := some token }

end Location

/-- `locations` are those that references name one after the other on the way from `s` to `t`. -/
inductive Chain (specs : Json.Fields) : Stop → List Location → Stop → Prop where
  | refl (s : Stop) : Chain specs s [] s
  | step {s t : Stop} {l : Location} {value : Json} {locations : List Location}
      (hn : Names specs s l) (hv : l.value? specs = some value)
      (h : Chain specs ⟨l.specKey, value⟩ locations t) : Chain specs s (l :: locations) t

section
variable {specs : Json.Fields} {current specKey ref : String} {r : Reference} {s t : Stop}
  {l l' : Location} {locations : List Location} {value : Json}

theorem specKeyFor_eq_ok_iff {document : String} :
    specKeyFor specs document = .ok specKey ↔ Selects specs current (some document) specKey := by
  unfold specKeyFor
  constructor
  · intro h
    split at h
    · obtain rfl := Except.ok.inj h
      exact .exact ‹_›
    · split at h
      · obtain rfl := Except.ok.inj h
        exact .stem (Bool.eq_false_iff.mpr ‹_›) ‹_›
      · exact nomatch h
  · intro h
    cases h with
    | exact h => rw [if_pos h]
    | stem h hs => rw [if_neg (Bool.eq_false_iff.mp h), if_pos hs]

theorem select_eq_ok_iff :
    select specs current r = .ok specKey ↔ Selects specs current r.document specKey := by
  unfold select
  cases r.document with
  | none =>
    refine ⟨fun h => ?_, fun h => ?_⟩
    · obtain rfl := Except.ok.inj h
      exact .last
    · cases h
      rfl
  | some document => exact specKeyFor_eq_ok_iff

theorem target_eq_ok_iff :
    target specs specKey ref r = .ok value ↔
      Location.value? specs ⟨specKey, r.tokens⟩ = some value := by
  unfold target Location.value?
  cases (Json.Fields.get? specs specKey).getD .null with
  | null => exact ⟨nofun, nofun⟩
  | _ =>
    dsimp only
    cases walk _ r.tokens with
    | none => exact ⟨nofun, nofun⟩
    | some found => exact ⟨fun h => congrArg some (Except.ok.inj h),
        fun h => congrArg Except.ok (Option.some.inj h)⟩

theorem select_ne_cyclic : select specs current r ≠ .error (.cyclic ref) := by
  unfold select specKeyFor
  split
  · exact nofun
  · split
    · exact nofun
    · split <;> exact nofun

theorem target_ne_cyclic {text : String} : target specs specKey ref r ≠ .error (.cyclic text) := by
  unfold target
  split
  · exact nofun
  · split <;> exact nofun

theorem importOf_eq (specKey : String) :
    importOf r = (Location.import? ⟨specKey, r.tokens⟩).toList := by
  unfold importOf Location.import?
  cases r.tokens.getLast? <;> rfl

theorem Selects.unique {document : Option String} {other : String}
    (h : Selects specs current document specKey) (h' : Selects specs current document other) :
    specKey = other := by
  have hr : select specs current ⟨document, []⟩ = .ok specKey := select_eq_ok_iff.mpr h
  have hr' : select specs current ⟨document, []⟩ = .ok other := select_eq_ok_iff.mpr h'
  exact Except.ok.inj (hr.symm.trans hr')

theorem Names.unique (h : Names specs s l) (h' : Names specs s l') : l = l' := by
  obtain ⟨text, hr, hs⟩ := h
  obtain ⟨text', hr', hs'⟩ := h'
  obtain rfl := Json.str.inj (Option.some.inj (hr.symm.trans hr'))
  rw [hs.unique hs']

theorem Names.refOf?_ne_none (h : Names specs s l) : refOf? s.value ≠ none := by
  obtain ⟨_, hr, _⟩ := h
  simp [hr]

/-- Two chains from one value to values without a reference visit the same locations. -/
theorem Chain.unique {others : List Location} {t' : Stop} (h : Chain specs s locations t)
    (ht : refOf? t.value = none) (h' : Chain specs s others t')
    (ht' : refOf? t'.value = none) : locations = others ∧ t = t' := by
  induction h generalizing others with
  | refl s =>
    cases h' with
    | refl => exact ⟨rfl, rfl⟩
    | step hn => exact absurd ht hn.refOf?_ne_none
  | step hn hv _ ih =>
    cases h' with
    | refl => exact absurd ht' hn.refOf?_ne_none
    | step hn' hv' hrest =>
      obtain rfl := hn.unique hn'
      obtain rfl := Option.some.inj (hv.symm.trans hv')
      obtain ⟨rfl, rfl⟩ := ih ht hrest
      exact ⟨rfl, rfl⟩

theorem Chain.exists_of_mem (h : Chain specs s locations t) (hl : l ∈ locations) :
    ∃ value rest, l.value? specs = some value ∧ rest.length < locations.length ∧
      Chain specs ⟨l.specKey, value⟩ rest t := by
  induction h with
  | refl => exact nomatch hl
  | @step _ _ _ value rest hn hv h ih =>
    rcases List.mem_cons.mp hl with rfl | hl
    · exact ⟨value, rest, hv, Nat.lt_succ_self _, h⟩
    · obtain ⟨value, rest, hv, hlt, h⟩ := ih hl
      exact ⟨value, rest, hv, Nat.lt_succ_of_lt hlt, h⟩

/-- A chain that ends never comes back to a location. -/
theorem Chain.nodup (h : Chain specs s locations t) (ht : refOf? t.value = none) :
    locations.Nodup := by
  induction h with
  | refl => exact List.nodup_nil
  | step hn hv h ih =>
    refine List.nodup_cons.mpr ⟨fun hmem => ?_, ih ht⟩
    -- coming back, the chain would go on for as long again
    obtain ⟨value, rest, hv', hlt, hrest⟩ := h.exists_of_mem hmem
    obtain rfl := Option.some.inj (hv.symm.trans hv')
    obtain ⟨rfl, -⟩ := h.unique ht hrest ht
    exact Nat.lt_irrefl _ hlt

end

end Reference

end RequestGen
