import RequestGen.Naming.Identifier
import RequestGen.Proofs.Naming.Casings

/-! # The first character of a casing

A casing drops all but the letters and digits of a name, so it starts with the first of these
(`head?_pascalChars`). With a capital letter behind it that makes an identifier unless the first of
them is a digit, whatever the name starts with (`isNameStart_head?_pascal_append_iff`). -/

namespace RequestGen.Naming

theorem head?_capitals (c : Char) (s : List Char) : (capitals c s).head? = some c := by
  cases s with
  | nil => rfl
  | cons d s =>
    rw [capitals]
    split
    · split <;> rfl
    · rfl

/-- A casing starts with the first letter or digit of the name, as a capital. -/
theorem head?_pascalChars (s : List Char) :
    (pascalChars s).head? = (s.find? Char.isAlphanum).map Char.toUpper := by
  have hword {c : Char} {word rest : List Char} (h : word.head? = some c) :
      (capitalize word ++ rest).head? = some c.toUpper := by
    obtain ⟨tail, rfl⟩ := List.head?_eq_some_iff.mp h
    rfl
  unfold pascalChars
  fun_induction words s with
  | case1 => rfl
  | case2 c s h ih =>
    have hc : c.isAlphanum = true := by
      rcases (Bool.or_eq_true _ _).mp h with h | h
      · exact isAlphanum_of_isSmall h
      · exact isAlphanum_of_isUpper ((Bool.and_eq_true _ _).mp h).1
    rw [List.flatMap_cons, hword rfl, List.find?_cons_of_pos hc, Option.map_some]
  | case3 c s _ h ih =>
    rw [List.flatMap_cons, hword (head?_capitals c s),
      List.find?_cons_of_pos (isAlphanum_of_isUpper h), Option.map_some]
  | case4 c s hsmall hupper ih =>
    have hc : ¬ c.isAlphanum = true := by
      intro hc
      rcases isAlphanum_iff.mp hc with (hc | hc) | hc
      · exact hupper hc
      · exact hsmall (by simp [isSmall, hc])
      · exact hsmall (by simp [isSmall, hc])
    rw [ih, List.find?_cons_of_neg hc]

/-- The first letter or digit of a name, if it has any, is a letter. -/
def LeadsWithLetter (name : String) : Prop :=
  ∀ c ∈ name.toList.find? Char.isAlphanum, c.isAlpha = true

instance (name : String) : Decidable (LeadsWithLetter name) :=
  decidable_of_iff ((name.toList.find? Char.isAlphanum).all Char.isAlpha = true) (by
    unfold LeadsWithLetter
    cases name.toList.find? Char.isAlphanum <;> simp)

theorem isIdentifierText_iff_head? {s : List Char} (h : ∀ c ∈ s, isNamePart c = true) :
    isIdentifierText s = true ↔ ∃ c ∈ s.head?, isNameStart c = true := by
  cases s with
  | nil => simp [isIdentifierText]
  | cons c s =>
    have hall : s.all isNamePart = true :=
      List.all_eq_true.mpr fun d hd => h d (List.mem_cons_of_mem c hd)
    simp [isIdentifierText, hall]

theorem isNamePart_of_mem_pascal {name : String} {c : Char} (hc : c ∈ (pascal name).toList) :
    isNamePart c = true := by
  simp [isNamePart, isAlphanum_of_mem_pascal hc]

theorem isNameStart_of_isAlphanum {c : Char} (h : c.isAlphanum = true) :
    isNameStart c = true ↔ c.isAlpha = true := by
  have hunderscore : c ≠ '_' := by rintro rfl; exact absurd h (by decide)
  have hdollar : c ≠ '$' := by rintro rfl; exact absurd h (by decide)
  simp [isNameStart, hunderscore, hdollar]

/-- A casing before a text that starts with a letter starts a name unless it starts with a digit; it
may be empty. -/
theorem isNameStart_head?_pascal_append_iff {name ending : String}
    (hending : ∃ c ∈ ending.toList.head?, c.isAlpha = true) :
    (∃ c ∈ ((pascal name).toList ++ ending.toList).head?, isNameStart c = true) ↔
      LeadsWithLetter name := by
  unfold LeadsWithLetter
  rw [List.head?_append, pascal, String.toList_ofList, head?_pascalChars]
  cases hfind : name.toList.find? Char.isAlphanum with
  | none =>
    obtain ⟨c, hc, hletter⟩ := hending
    have hstart : isNameStart c = true := by simp [isNameStart, hletter]
    exact iff_of_true ⟨c, by simpa using hc, hstart⟩ (by simp)
  | some c =>
    have hc : c.toUpper.isAlphanum = true := isAlphanum_toUpper (List.find?_some hfind)
    have hletter : isNameStart c.toUpper = true ↔ c.isAlpha = true := by
      rw [isNameStart_of_isAlphanum hc, isAlpha_toUpper]
    simp [hletter]

end RequestGen.Naming
