import RequestGen.Proofs.Naming.Casings
import RequestGen.Text.Blank
import RequestGen.Text.Pieces

/-! # The characters of pieces and of lists

What the pieces of a cut text hold (`mem_of_mem_splitOn`), what is left of a trimmed one
(`trim_append`), and what stands in texts that are joined to a list or to lines. -/

namespace RequestGen

namespace Text

variable {p : Char → Bool} {sep : Char} {front s back piece : List Char}

/-- A piece of a text holds no separator. -/
theorem mem_of_mem_splitOn (h : piece ∈ splitOn sep s) :
    ∀ c ∈ piece, c ∈ s ∧ c ≠ sep := by
  induction s generalizing piece with
  | nil =>
    obtain rfl := List.mem_singleton.mp h
    simp
  | cons d s ih =>
    have hlater {piece : List Char} (hpiece : piece ∈ splitOn sep s) :
        ∀ c ∈ piece, c ∈ d :: s ∧ c ≠ sep :=
      fun c hc => (ih hpiece c hc).imp_left (List.mem_cons_of_mem d)
    rw [splitOn] at h
    split at h
    · rcases List.mem_cons.mp h with rfl | h
      · simp
      · exact hlater h
    · next hd =>
      split at h
      · next hnil => exact absurd hnil (splitOn_ne_nil sep s)
      · next first others hsplit =>
        rw [hsplit] at hlater
        rcases List.mem_cons.mp h with rfl | h
        · exact List.forall_mem_cons.mpr
            ⟨⟨List.mem_cons_self, hd⟩, hlater List.mem_cons_self⟩
        · exact hlater (List.mem_cons_of_mem first h)

theorem trim_eq_nil (h : ∀ c ∈ s, p c = true) : trim p s = [] := by
  rw [trim, List.dropWhile_eq_nil_iff.mpr h]
  rfl

/-- What passes is taken off at both ends. -/
theorem trim_append (hfront : ∀ c ∈ front, p c = true) (hs : ∀ c ∈ s, p c = false)
    (hback : ∀ c ∈ back, p c = true) : trim p (front ++ (s ++ back)) = s := by
  cases s with
  | nil =>
    refine trim_eq_nil fun c hc => ?_
    rcases List.mem_append.mp hc with hc | hc
    · exact hfront c hc
    · exact hback c hc
  | cons c s =>
    have hstart : ((c :: s) ++ back).dropWhile p = (c :: s) ++ back := by
      have hc := hs c List.mem_cons_self
      rw [List.cons_append, List.dropWhile_cons_of_neg (Bool.eq_false_iff.mp hc)]
    have hend : (c :: s).reverse.dropWhile p = (c :: s).reverse := by
      refine (Naming.takeWhile_of_head? fun d hd => hs d ?_).2
      exact List.mem_reverse.mp (List.mem_of_mem_head? hd)
    have hback : ∀ d ∈ back.reverse, p d = true := fun d hd => hback d (List.mem_reverse.mp hd)
    rw [trim, List.dropWhile_append_of_pos hfront, hstart, List.reverse_append,
      List.dropWhile_append_of_pos hback, hend, List.reverse_reverse]

theorem mem_commaList {texts : List String} {c : Char} (h : c ∈ (commaList texts).toList) :
    (∃ text ∈ texts, c ∈ text.toList) ∨ c = ',' ∨ c = ' ' := by
  induction texts with
  | nil => exact absurd h List.not_mem_nil
  | cons text texts ih =>
    rw [← List.append_nil (commaList _).toList, commaList_cons_append, List.mem_append] at h
    rcases h with h | h
    · exact .inl ⟨text, List.mem_cons_self, h⟩
    split at h
    · exact absurd h List.not_mem_nil
    rw [List.append_nil, List.mem_cons, List.mem_cons] at h
    rcases h with hcomma | hblank | h
    · exact .inr (.inl hcomma)
    · exact .inr (.inr hblank)
    · exact (ih h).imp_left fun ⟨other, hother, hc⟩ => ⟨other, List.mem_cons_of_mem text hother, hc⟩

theorem toList_lines_cons (text : String) {texts : List String} (h : texts ≠ []) :
    (lines (text :: texts)).toList = text.toList ++ '\n' :: (lines texts).toList := by
  obtain ⟨next, texts, rfl⟩ := List.exists_cons_of_ne_nil h
  simp [lines, String.intercalate_cons_cons]

end Text

end RequestGen
