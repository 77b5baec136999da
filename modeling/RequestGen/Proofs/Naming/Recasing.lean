import RequestGen.Client.Frame
import RequestGen.Proofs.Naming.FirstLetters
import RequestGen.Proofs.Naming.WordSplits
import RequestGen.Proofs.Request.BindingNames

/-! # Casing a casing

A casing is letters and digits only, so its words stand next to one another. They need not be those
that it was made of: `a-b` has two words, and its casing `AB` is one. But only the first can start
with a small letter, since any other small letter belongs to the run or to the capital before it. So
a second casing changes the first letter at most (`pascalChars_eq_capitalize`), and of several
casings of a name only the last counts (`casings_stable`). -/

namespace RequestGen

namespace Naming

/-! ### First letters -/

theorem capitalize_eq_self {s : List Char} (h : startsLower s = false) : capitalize s = s := by
  cases s with
  | nil => rfl
  | cons c s =>
    rw [capitalize, toUpper_of_isLower_eq_false h]

theorem capitalize_append {s : List Char} (hs : s ≠ []) (rest : List Char) :
    capitalize (s ++ rest) = capitalize s ++ rest := by
  cases s with
  | nil => exact absurd rfl hs
  | cons c s => rfl

theorem toLower_cases (c : Char) :
    c.toLower = c ∨ c.isUpper = true ∧ c.toLower.isLower = true ∧ c.toLower.toUpper = c := by
  unfold Char.toLower
  split
  · next hc =>
    obtain ⟨hlow, hhigh⟩ := hc
    refine .inr ⟨decide_eq_true ⟨hlow, hhigh⟩, ?_⟩
    simp only [ge_iff_le, UInt32.le_iff_toNat_le] at hlow hhigh
    have ha : 'a'.val ≤ c.val + ('a'.val - 'A'.val) := by
      simp only [UInt32.le_iff_toNat_le, UInt32.toNat_add]
      simp at hlow hhigh ⊢
      omega
    have hz : c.val + ('a'.val - 'A'.val) ≤ 'z'.val := by
      simp only [UInt32.le_iff_toNat_le, UInt32.toNat_add]
      simp at hlow hhigh ⊢
      omega
    refine ⟨(Bool.and_eq_true _ _).mpr ⟨decide_eq_true ha, decide_eq_true hz⟩, ?_⟩
    unfold Char.toUpper
    rw [dif_pos ⟨ha, hz⟩]
    refine Char.ext ?_
    show c.val + ('a'.val - 'A'.val) + ('A'.val - 'a'.val) = c.val
    rw [UInt32.add_assoc]
    exact UInt32.add_zero _
  · exact .inl rfl

theorem toUpper_toLower (c : Char) : c.toLower.toUpper = c.toUpper := by
  rcases toLower_cases c with heq | ⟨hupper, -, hback⟩
  · rw [heq]
  · rw [hback, toUpper_of_isLower_eq_false (isLower_of_isUpper hupper)]

theorem capitalize_uncapitalize (s : List Char) : capitalize (uncapitalize s) = capitalize s := by
  cases s with
  | nil => rfl
  | cons c s => exact congrArg (· :: s) (toUpper_toLower c)

theorem isAlphanum_toLower {c : Char} (h : c.isAlphanum = true) : c.toLower.isAlphanum = true := by
  rcases toLower_cases c with heq | ⟨-, hlower, -⟩
  · rwa [heq]
  · exact isAlphanum_iff.mpr (.inl (.inr hlower))

theorem isAlphanum_of_mem_uncapitalize {s : List Char} (h : ∀ c ∈ s, c.isAlphanum = true) :
    ∀ c ∈ uncapitalize s, c.isAlphanum = true := by
  cases s with
  | nil => exact h
  | cons c s =>
    obtain ⟨hc, hs⟩ := List.forall_mem_cons.mp h
    exact List.forall_mem_cons.mpr ⟨isAlphanum_toLower hc, hs⟩

/-! ### Words next to one another -/

namespace WordBefore

variable {w rest : List Char}

theorem ne_nil (h : WordBefore w rest) : w ≠ [] := by
  cases h with
  | small hne => exact hne
  | led => exact List.cons_ne_nil _ _
  | capitals => exact List.cons_ne_nil _ _

theorem startsLower_rest (h : WordBefore w rest) : startsLower rest = false := by
  cases h with
  | small _ _ hrest => exact startsLower_of_startsSmall hrest
  | led _ _ _ hrest => exact startsLower_of_startsSmall hrest
  | capitals _ hrest => exact hrest

end WordBefore

theorem SplitsInto.flatMap_capitalize {s : List Char} {ws : List (List Char)}
    (h : SplitsInto s ws) (hs : ∀ c ∈ s, c.isAlphanum = true) :
    ws.flatMap capitalize = capitalize s := by
  induction h with
  | nil => rfl
  | @skip c s ws hc _ ih => exact absurd (hs c List.mem_cons_self) (Bool.eq_false_iff.mp hc)
  | @word w rest ws hw _ ih =>
    have hrest : ws.flatMap capitalize = rest := by
      rw [ih fun c hc => hs c (List.mem_append_right w hc),
        capitalize_eq_self hw.startsLower_rest]
    rw [List.flatMap_cons, hrest, capitalize_append hw.ne_nil]

/-- In letters and digits a casing changes the first of them at most. -/
theorem pascalChars_eq_capitalize {s : List Char} (h : ∀ c ∈ s, c.isAlphanum = true) :
    pascalChars s = capitalize s :=
  (splitsInto_words s).flatMap_capitalize h

/-! ### Casings -/

theorem startsLower_pascalChars (s : List Char) : startsLower (pascalChars s) = false := by
  have hhead := head?_pascalChars s
  cases hs : pascalChars s with
  | nil => rfl
  | cons c t =>
    rw [hs, List.head?_cons] at hhead
    obtain ⟨d, -, rfl⟩ := Option.map_eq_some_iff.mp hhead.symm
    exact isLower_toUpper d

theorem pascalChars_pascalChars (s : List Char) : pascalChars (pascalChars s) = pascalChars s := by
  rw [pascalChars_eq_capitalize fun c => isAlphanum_of_mem_pascalChars,
    capitalize_eq_self (startsLower_pascalChars s)]

theorem pascalChars_uncapitalize_pascalChars (s : List Char) :
    pascalChars (uncapitalize (pascalChars s)) = pascalChars s := by
  have hchars : ∀ c ∈ uncapitalize (pascalChars s), c.isAlphanum = true :=
    isAlphanum_of_mem_uncapitalize fun c => isAlphanum_of_mem_pascalChars
  rw [pascalChars_eq_capitalize hchars, capitalize_uncapitalize,
    capitalize_eq_self (startsLower_pascalChars s)]

end Naming

/-! ### The name of a factory -/

theorem isBindingName_factoryTitle (title : String) :
    Script.IsBindingName (factoryTitle title) := by
  have htitle : (factoryTitle title).toList =
      "get".toList ++ (Naming.pascal (Naming.clean title)).toList :=
    String.toList_append
  have hwords : ∀ word ∈ Script.unbindableWords, ¬ "get".toList <+: word.toList := by
    decide +kernel
  constructor
  · have hparts : ∀ c ∈ (factoryTitle title).toList, Naming.isNamePart c = true := by
      intro c hc
      rw [htitle, List.mem_append] at hc
      rcases hc with hc | hc
      · have hget : "get".toList.all Naming.isNamePart = true := rfl
        exact List.all_eq_true.mp hget c hc
      · exact Naming.isNamePart_of_mem_pascal hc
    rw [Naming.isIdentifierText_iff_head? hparts, htitle]
    exact ⟨'g', rfl, rfl⟩
  · intro hmem
    refine hwords _ hmem ?_
    rw [htitle]
    exact List.prefix_append _ _

namespace Naming

/-- Of several casings of a name only the last counts. The name of a factory is an identifier and no
reserved word, whatever title it is made of. -/
theorem casings_stable :
    (∀ name : String, pascal (pascal name) = pascal name ∧ camel (camel name) = camel name ∧
        pascal (camel name) = pascal name ∧ camel (pascal name) = camel name) ∧
      ∀ title : String, Script.IsBindingName (factoryTitle title) := by
  refine ⟨fun name => ?_, isBindingName_factoryTitle⟩
  simp only [pascal, camel, String.toList_ofList, pascalChars_pascalChars,
    pascalChars_uncapitalize_pascalChars, and_self]

example : wordsOf "a-b" = ["a", "b"] ∧ pascal "a-b" = "AB" ∧ wordsOf "AB" = ["AB"] := by
  decide +kernel

end Naming

end RequestGen
