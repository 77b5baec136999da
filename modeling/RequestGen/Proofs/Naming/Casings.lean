import Mathlib.Data.List.TakeWhile
import RequestGen.Naming.Words
import RequestGen.Text.Word

/-! # The characters of a casing

Words consist of letters and digits of ASCII, and capitals in front of them change nothing about
that; so a casing of any text continues a name wherever it stands. A run of small letters and digits
is one word (`words_append`), and digits are their own casing. -/

namespace RequestGen.Naming

theorem isAlphanum_iff {c : Char} :
    c.isAlphanum = true ↔ (c.isUpper = true ∨ c.isLower = true) ∨ c.isDigit = true := by
  show (c.isUpper || c.isLower || c.isDigit) = true ↔ _
  rw [Bool.or_eq_true, Bool.or_eq_true]

theorem isAlphanum_of_isSmall {c : Char} (h : isSmall c = true) : c.isAlphanum = true := by
  rw [isSmall, Bool.or_eq_true] at h
  rcases h with h | h
  · exact isAlphanum_iff.mpr (.inl (.inr h))
  · exact isAlphanum_iff.mpr (.inr h)

theorem isAlphanum_of_isUpper {c : Char} (h : c.isUpper = true) : c.isAlphanum = true :=
  isAlphanum_iff.mpr (.inl (.inl h))

theorem toUpper_cases (c : Char) :
    c.isLower = false ∧ c.toUpper = c ∨ c.isLower = true ∧ c.toUpper.isUpper = true := by
  unfold Char.toUpper
  split
  · next hc =>
    obtain ⟨hlow, hhigh⟩ := hc
    refine .inr ⟨(Bool.and_eq_true _ _).mpr ⟨decide_eq_true hlow, decide_eq_true hhigh⟩, ?_⟩
    simp only [UInt32.le_iff_toNat_le] at hlow hhigh
    have hA : 'A'.val ≤ c.val + ('A'.val - 'a'.val) := by
      simp only [UInt32.le_iff_toNat_le, UInt32.toNat_add]
      simp at hlow hhigh ⊢
      omega
    have hZ : c.val + ('A'.val - 'a'.val) ≤ 'Z'.val := by
      simp only [UInt32.le_iff_toNat_le, UInt32.toNat_add]
      simp at hlow hhigh ⊢
      omega
    exact decide_eq_true ⟨hA, hZ⟩
  · next hc =>
    refine .inl ⟨Bool.eq_false_iff.mpr fun hlower => hc ?_, rfl⟩
    exact (Bool.and_eq_true_iff.mp hlower).imp of_decide_eq_true of_decide_eq_true

theorem isLower_of_isUpper {c : Char} (h : c.isUpper = true) : c.isLower = false := by
  have hhigh : c.val ≤ 'Z'.val := (of_decide_eq_true h).2
  refine Bool.eq_false_iff.mpr fun hlower => ?_
  have hlow : 'a'.val ≤ c.val := of_decide_eq_true (Bool.and_eq_true_iff.mp hlower).1
  exact absurd (UInt32.le_trans hlow hhigh) (by decide)

theorem isAlphanum_toUpper {c : Char} (h : c.isAlphanum = true) :
    c.toUpper.isAlphanum = true := by
  rcases toUpper_cases c with ⟨-, heq⟩ | ⟨-, hupper⟩
  · rwa [heq]
  · exact isAlphanum_of_isUpper hupper

theorem isAlpha_toUpper (c : Char) : c.toUpper.isAlpha = c.isAlpha := by
  rcases toUpper_cases c with ⟨-, heq⟩ | ⟨hlower, hupper⟩
  · rw [heq]
  · show (c.toUpper.isUpper || c.toUpper.isLower) = (c.isUpper || c.isLower)
    rw [hlower, hupper, Bool.true_or, Bool.or_true]

theorem isLower_toUpper (c : Char) : c.toUpper.isLower = false := by
  rcases toUpper_cases c with ⟨hlower, heq⟩ | ⟨-, hupper⟩
  · rwa [heq]
  · exact isLower_of_isUpper hupper

theorem toUpper_of_isLower_eq_false {c : Char} (h : c.isLower = false) : c.toUpper = c := by
  rcases toUpper_cases c with ⟨-, heq⟩ | ⟨hlower, -⟩
  · exact heq
  · exact nomatch h.symm.trans hlower

theorem isAlphanum_of_mem_capitals {c d : Char} {s : List Char} (hc : c.isUpper = true)
    (hd : d ∈ capitals c s) : d.isAlphanum = true := by
  induction s generalizing c with
  | nil =>
    rw [capitals, List.mem_singleton] at hd
    exact hd ▸ isAlphanum_of_isUpper hc
  | cons next s ih =>
    rw [capitals] at hd
    split at hd
    · next hnext =>
      split at hd
      · rw [List.mem_singleton] at hd
        exact hd ▸ isAlphanum_of_isUpper hc
      · rcases List.mem_cons.mp hd with rfl | hd
        · exact isAlphanum_of_isUpper hc
        · exact ih hnext hd
    · rw [List.mem_singleton] at hd
      exact hd ▸ isAlphanum_of_isUpper hc

theorem isAlphanum_of_mem_words {s word : List Char} {c : Char} (hw : word ∈ words s)
    (hc : c ∈ word) : c.isAlphanum = true := by
  fun_induction words s with
  | case1 => simp at hw
  | case2 d s h ih =>
    rcases List.mem_cons.mp hw with rfl | hw
    · rcases List.mem_cons.mp hc with rfl | hc
      · simp only [Bool.or_eq_true, Bool.and_eq_true] at h
        rcases h with h | ⟨h, -⟩
        · exact isAlphanum_of_isSmall h
        · exact isAlphanum_of_isUpper h
      · exact isAlphanum_of_isSmall (List.all_eq_true.mp List.all_takeWhile _ hc)
    · exact ih hw
  | case3 d s _ h ih =>
    rcases List.mem_cons.mp hw with rfl | hw
    · exact isAlphanum_of_mem_capitals h hc
    · exact ih hw
  | case4 d s _ _ ih => exact ih hw

theorem isAlphanum_of_mem_pascalChars {s : List Char} {c : Char} (hc : c ∈ pascalChars s) :
    c.isAlphanum = true := by
  rw [pascalChars, List.mem_flatMap] at hc
  obtain ⟨word, hword, hc⟩ := hc
  cases word with
  | nil => simp [capitalize] at hc
  | cons d word =>
    rcases List.mem_cons.mp hc with rfl | hc
    · exact isAlphanum_toUpper (isAlphanum_of_mem_words hword List.mem_cons_self)
    · exact isAlphanum_of_mem_words hword (List.mem_cons_of_mem _ hc)

theorem isAlphanum_of_mem_pascal {name : String} {c : Char} (hc : c ∈ (pascal name).toList) :
    c.isAlphanum = true := by
  rw [pascal, String.toList_ofList] at hc
  exact isAlphanum_of_mem_pascalChars hc

theorem toNat_lt_of_isAlphanum {c : Char} (h : c.isAlphanum = true) : c.toNat < 128 := by
  have hle {bound : Char} (hb : bound.toNat < 128) (hc : c.val ≤ bound.val) : c.toNat < 128 :=
    Nat.lt_of_le_of_lt (UInt32.le_iff_toNat_le.mp hc) hb
  rcases isAlphanum_iff.mp h with (h | h) | h
  · exact hle (by decide : 'Z'.toNat < 128) (of_decide_eq_true h).2
  · exact hle (by decide : 'z'.toNat < 128) (of_decide_eq_true (Bool.and_eq_true_iff.mp h).2)
  · exact hle (by decide : '9'.toNat < 128) (of_decide_eq_true (Bool.and_eq_true_iff.mp h).2)

theorem isNameChar_of_isAlphanum {c : Char} (h : c.isAlphanum = true) :
    Text.isNameChar c = true := by
  simp [Text.isNameChar, Text.isWord_of_isAlphanum h (toNat_lt_of_isAlphanum h)]

/-! ### Runs of small letters and digits -/

theorem isSmall_of_isDigit {c : Char} (h : c.isDigit = true) : isSmall c = true := by
  rw [isSmall, h, Bool.or_true]

theorem takeWhile_of_head? {p : Char → Bool} {s : List Char} (h : ∀ c ∈ s.head?, p c = false) :
    s.takeWhile p = [] ∧ s.dropWhile p = s := by
  cases s with
  | nil => exact ⟨rfl, rfl⟩
  | cons c s =>
    have hc : ¬ p c = true := Bool.eq_false_iff.mp (h c rfl)
    exact ⟨List.takeWhile_cons_of_neg hc, List.dropWhile_cons_of_neg hc⟩

/-- A run of small letters and digits in front of something else is a word with the small letter,
the digit or the capital that starts it. -/
theorem words_cons_append {c : Char} {run rest : List Char}
    (hc : (isSmall c || (c.isUpper && startsSmall (run ++ rest))) = true)
    (hrun : ∀ c ∈ run, isSmall c = true) (hrest : startsSmall rest = false) :
    words (c :: (run ++ rest)) = (c :: run) :: words rest := by
  have hhead : ∀ d ∈ rest.head?, isSmall d = false := by
    intro d hd
    obtain ⟨s, rfl⟩ := List.head?_eq_some_iff.mp hd
    exact hrest
  rw [words, if_pos hc, List.takeWhile_append_of_pos hrun, List.dropWhile_append_of_pos hrun,
    (takeWhile_of_head? hhead).1, (takeWhile_of_head? hhead).2, List.append_nil]

/-- A run of small letters and digits in front of something else is a word. -/
theorem words_append {run rest : List Char} (hne : run ≠ []) (hrun : ∀ c ∈ run, isSmall c = true)
    (hrest : startsSmall rest = false) : words (run ++ rest) = run :: words rest := by
  cases run with
  | nil => exact absurd rfl hne
  | cons c run =>
    have hc : (isSmall c || (c.isUpper && startsSmall (run ++ rest))) = true := by
      rw [hrun c List.mem_cons_self, Bool.true_or]
    exact words_cons_append hc (fun d hd => hrun d (List.mem_cons_of_mem c hd)) hrest

theorem words_of_isSmall {s : List Char} (hne : s ≠ []) (h : ∀ c ∈ s, isSmall c = true) :
    words s = [s] := by
  have hnone : startsSmall [] = false := rfl
  have hwords := words_append hne h hnone
  rwa [List.append_nil, words] at hwords

theorem toUpper_of_isDigit {c : Char} (h : c.isDigit = true) : c.toUpper = c := by
  have hle : c.val ≤ '9'.val := (of_decide_eq_true (Bool.and_eq_true_iff.mp h).2)
  unfold Char.toUpper
  split
  · next hlower => exact absurd (UInt32.le_trans hlower.1 hle) (by decide)
  · rfl

theorem pascal_of_isDigit {name : String} (h : ∀ c ∈ name.toList, c.isDigit = true) :
    pascal name = name := by
  cases hs : name.toList with
  | nil =>
    rw [pascal, pascalChars, hs, words, String.toList_eq_nil_iff.mp hs]
    rfl
  | cons c s =>
    have hfirst : c.isDigit = true := h c (by rw [hs]; exact List.mem_cons_self)
    have hwords : words (c :: s) = [c :: s] := by
      refine words_of_isSmall (List.cons_ne_nil c s) ?_
      intro d hd
      exact isSmall_of_isDigit (h d (by rwa [hs]))
    rw [pascal, pascalChars, hs, hwords, List.flatMap_singleton, capitalize,
      toUpper_of_isDigit hfirst, ← hs, String.ofList_toList]

end RequestGen.Naming
