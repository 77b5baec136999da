/-! # Identifiers

An identifier is a letter, underscore or dollar sign, followed by letters, digits, underscores and
dollar signs, all of ASCII. `isIdentifier` also accepts one line end after it, as a line-based
match does. -/

namespace RequestGen.Naming

/-- A character that starts an identifier. -/
def isNameStart (c : Char) : Bool := c.isAlpha || c == '_' || c == '$'

/-- A character that continues an identifier. -/
def isNamePart (c : Char) : Bool := c.isAlphanum || c == '_' || c == '$'

/-- A whole text that is an identifier. -/
def isIdentifierText : List Char → Bool
  | [] => false
  | c :: s => isNameStart c && s.all isNamePart

/-- An identifier, possibly with one line end after it. -/
def isIdentifierLine : List Char → Bool
  | [] => false
  | c :: s =>
    isNameStart c &&
      match s.dropWhile isNamePart with
      | [] => true
      | ['\n'] => true
      | _ => false

/-- Whether the text passes for an identifier. -/
def isIdentifier (name : String) : Bool :=
  isIdentifierLine name.toList

theorem isNamePart_of_isNameStart {c : Char} (h : isNameStart c = true) : isNamePart c = true := by
  simp only [isNameStart, isNamePart, Char.isAlphanum, Bool.or_eq_true] at h ⊢
  rcases h with (h | h) | h <;> simp [h]

theorem isNamePart_of_mem {s : List Char} (h : isIdentifierText s = true) {c : Char} (hc : c ∈ s) :
    isNamePart c = true := by
  cases s with
  | nil => exact nomatch h
  | cons first s =>
    simp only [isIdentifierText, Bool.and_eq_true, List.all_eq_true] at h
    rcases List.mem_cons.mp hc with rfl | hc
    · exact isNamePart_of_isNameStart h.1
    · exact h.2 c hc

theorem exists_of_isIdentifier {name : String} (h : isIdentifier name = true) :
    ∃ c s, name.toList = c :: s ∧ isNameStart c = true ∧
      (s.dropWhile isNamePart = [] ∨ s.dropWhile isNamePart = ['\n']) := by
  rw [isIdentifier] at h
  cases hs : name.toList with
  | nil =>
    rw [hs] at h
    exact absurd h Bool.false_ne_true
  | cons c s =>
    rw [hs] at h
    obtain ⟨hstart, hend⟩ := (Bool.and_eq_true _ _).mp h
    refine ⟨c, s, rfl, hstart, ?_⟩
    split at hend
    · next hnil => exact .inl hnil
    · next hline => exact .inr hline
    · exact absurd hend Bool.false_ne_true

theorem isNamePart_or_lineEnd_of_mem {name : String} (h : isIdentifier name = true) :
    ∀ c ∈ name.toList, isNamePart c = true ∨ c = '\n' := by
  obtain ⟨first, s, hs, hstart, hend⟩ := exists_of_isIdentifier h
  intro c hc
  rw [hs, ← List.takeWhile_append_dropWhile (p := isNamePart) (l := s)] at hc
  rcases List.mem_cons.mp hc with rfl | hc
  · exact .inl (isNamePart_of_isNameStart hstart)
  rcases List.mem_append.mp hc with hfront | hback
  · exact .inl (List.all_eq_true.mp List.all_takeWhile c hfront)
  · right
    rcases hend with hnil | hline
    · rw [hnil] at hback
      exact absurd hback List.not_mem_nil
    · rw [hline] at hback
      exact List.mem_singleton.mp hback

end RequestGen.Naming
