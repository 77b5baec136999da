import RequestGen.Code.Function
import RequestGen.Proofs.Code.References
import RequestGen.Text.Blank

/-! # The names that a function refers to

A function declaration is its pieces between keywords and marks. Its statements are set into a block
line by line, which moves names but cuts none (`refersTo_statementLines`). So a name that is no
keyword is referred to by the declaration exactly if one of the pieces refers to it
(`FunctionText.refersTo_render`). -/

namespace RequestGen

open Text (isNameChar)

/-! ### Blanks and lines -/

namespace Text

theorem exists_of_inRanges {ranges : List (Nat × Nat)} {n : Nat} (h : inRanges ranges n = true) :
    ∃ range ∈ ranges, range.1 ≤ n ∧ n ≤ range.2 := by
  fun_induction inRanges ranges n with
  | case1 => exact nomatch h
  | case2 low high ranges n hn => exact ⟨(low, high), List.mem_cons_self, of_decide_eq_true h, hn⟩
  | case3 low high ranges n _ ih =>
    obtain ⟨range, hrange, hn⟩ := ih h
    exact ⟨range, List.mem_cons_of_mem _ hrange, hn⟩

theorem isNameChar_of_isBlank {c : Char} (h : isBlank c = true) : isNameChar c = false := by
  -- character by character in ASCII; beyond it the two tables of ranges have nothing in common
  have hascii : ∀ n < 128, isBlank (Char.ofNat n) = true → isNameChar (Char.ofNat n) = false := by
    decide
  have hbeyond : ∀ range ∈ blankRanges, ∀ i < range.2 + 1 - range.1,
      inRanges wordRanges (range.1 + i) = false := by
    decide +kernel
  by_cases hc : c.toNat < 128
  · have hchar := hascii c.toNat hc
    rw [Char.ofNat_toNat] at hchar
    exact hchar h
  · rw [isBlank, if_neg hc] at h
    obtain ⟨range, hrange, hlow, hhigh⟩ := exists_of_inRanges h
    have hword := hbeyond range hrange (c.toNat - range.1) (by omega)
    rw [Nat.add_sub_cancel' hlow] at hword
    have hdollar : c ≠ '$' := fun h => hc (h ▸ (by decide))
    simp [isNameChar, isWord, hc, hword, hdollar]

theorem isNameChar_of_isLineEnd {c : Char} (h : isLineEnd c = true) : isNameChar c = false := by
  refine isNameChar_of_isBlank ?_
  simp only [isLineEnd, Bool.or_eq_true, Bool.and_eq_true, decide_eq_true_eq, beq_iff_eq] at h
  rcases h with (((h | h) | rfl) | rfl) | rfl
  · have hc : c.toNat < 128 := by omega
    simp [isBlank, hc]; omega
  · have hc : c.toNat < 128 := by omega
    simp [isBlank, hc]; omega
  · decide
  · decide
  · decide

theorem splitLines_eq_nil {s : List Char} (h : splitLines s = []) : s = [] := by
  fun_cases splitLines s with
  | case1 => rfl
  | case2 s => exact nomatch h
  | case3 c s _ hc => simp [splitLines, hc] at h
  | case4 c s _ hc hs => simp [splitLines, hc, hs] at h
  | case5 c s _ hc line rest hs => simp [splitLines, hc, hs] at h

/-- The first line of a text is all of it, or a line end comes after it, possibly of two
characters. -/
theorem eq_of_splitLines_cons {s line : List Char} {rest : List (List Char)}
    (h : splitLines s = line :: rest) :
    s = line ∧ rest = [] ∨
      ∃ c t, isLineEnd c = true ∧ s = line ++ c :: t ∧
        (rest = splitLines t ∨ ∃ u, t = '\n' :: u ∧ rest = splitLines u) := by
  fun_induction splitLines s generalizing line rest with
  | case1 => exact nomatch h
  | case2 s _ =>
    obtain ⟨rfl, rfl⟩ := List.cons.inj h
    exact .inr ⟨'\r', '\n' :: s, by decide, rfl, .inr ⟨s, rfl, rfl⟩⟩
  | case3 c s _ hc _ =>
    obtain ⟨rfl, rfl⟩ := List.cons.inj h
    exact .inr ⟨c, s, hc, rfl, .inl rfl⟩
  | case4 c s _ hc hs _ =>
    obtain ⟨rfl, rfl⟩ := List.cons.inj h
    exact .inl ⟨by rw [splitLines_eq_nil hs], rfl⟩
  | case5 c s _ hc first others hs ih =>
    obtain ⟨rfl, rfl⟩ := List.cons.inj h
    rcases ih hs with ⟨rfl, rfl⟩ | ⟨d, t, hd, rfl, ht⟩
    · exact .inl ⟨rfl, rfl⟩
    · exact .inr ⟨d, t, hd, rfl, ht⟩

end Text

section Lines

variable {word : List Char} (hne : word ≠ []) (hw : ∀ d ∈ word, isNameChar d = true)

include hne hw

theorem refersFrom_margin {margin : List Char} (hm : ∀ c ∈ margin, isNameChar c = false)
    (s : List Char) : refersFrom word false (margin ++ s) = refersFrom word false s := by
  induction margin with
  | nil => rfl
  | cons c margin ih =>
    rw [List.cons_append, refersFrom_cons hne hw (hm c List.mem_cons_self),
      ih fun d hd => hm d (List.mem_cons_of_mem _ hd)]

theorem any_splitLines (s : List Char) :
    (Text.splitLines s).any (refersFrom word false) = refersFrom word false s := by
  -- on the length: after a line, one or two characters of its end are skipped
  induction hn : s.length using Nat.strongRecOn generalizing s with
  | ind n ih =>
    cases hs : Text.splitLines s with
    | nil => rw [Text.splitLines_eq_nil hs, refersFrom_nil hne]; rfl
    | cons line rest =>
      rw [List.any_cons]
      rcases Text.eq_of_splitLines_cons hs with ⟨rfl, rfl⟩ | ⟨c, t, hc, rfl, ht⟩
      · simp
      · rw [refersFrom_append_cons hne hw (Text.isNameChar_of_isLineEnd hc)]
        rcases ht with rfl | ⟨u, rfl, rfl⟩
        · rw [ih t.length (by simp at hn; omega) t rfl]
        · rw [ih u.length (by simp at hn; omega) u rfl, refersFrom_cons hne hw (by decide)]

theorem refersFrom_join (lines : List (List Char)) :
    refersFrom word false (Text.join ['\n'] lines) = lines.any (refersFrom word false) := by
  induction lines with
  | nil => exact refersFrom_nil hne false
  | cons line lines ih =>
    cases lines with
    | nil => simp [Text.join]
    | cons next lines =>
      rw [Text.join, List.append_assoc, List.singleton_append,
        refersFrom_append_cons hne hw (by decide), ih, List.any_cons (a := line)]
      simp

theorem refersFrom_indent {margin : List Char} (hm : ∀ c ∈ margin, isNameChar c = false)
    (s : List Char) : refersFrom word false (Text.indent margin s) = refersFrom word false s := by
  have hlines : (Text.splitLines (s ++ ['\n'])).any (refersFrom word false) =
      refersFrom word false s := by
    rw [any_splitLines hne hw, refersFrom_append_cons hne hw (by decide), refersFrom_nil hne,
      Bool.or_false]
  have hline (line : List Char) : refersFrom word false (Text.indentLine margin line) =
      refersFrom word false line := by
    unfold Text.indentLine
    split
    · next h => rw [List.isEmpty_iff.mp h]
    · exact refersFrom_margin hne hw hm line
  unfold Text.indent
  rw [← hlines]
  split
  · next h => rw [h, ← List.append_nil margin, refersFrom_margin hne hw hm, refersFrom_nil hne]; rfl
  · next first rest h =>
    rw [h, refersFrom_join hne hw, List.any_cons, List.any_cons, refersFrom_margin hne hw hm,
      List.any_map]
    simp only [Function.comp_def, hline]

end Lines

namespace Code.FunctionText

/-- The words that every function is written with, but for `export`. -/
def keywords : List String := ["const", "async", "return"]

variable {name : String}

theorem refersTo_statementLines (hn : IsPlainName name) (s : String) :
    refersTo (statementLines s) name = refersTo s name := by
  have hne : name.toList ≠ [] := fun h => hn.1 (String.toList_inj.mp h)
  have hmargin : ∀ c ∈ [' ', ' '], isNameChar c = false := (by decide : IsMark "  ").2
  rw [refersTo, statementLines, String.toList_ofList, refersFrom_indent hne hn.2 hmargin]
  rfl

/-- Whether one of the pieces of the function refers to the name. -/
def mentions (f : FunctionText) (name : String) : Bool :=
  (f.exported && name = "export") || refersTo f.name name || refersTo f.generic name ||
    f.params.any (refersTo · name) || f.returnType.any (refersTo · name) ||
    f.statements.any (refersTo · name) || refersTo f.call name ||
    f.declarations.any (refersTo · name)

variable (hn : IsPlainName name) (hk : name ∉ keywords)

include hn

theorem refersTo_exportMark (exported : Bool) :
    refersTo (if exported then "export " else "") name = (exported && name = "export") := by
  cases exported with
  | false => exact refersTo_empty hn
  | true =>
    have h : refersTo ("export" ++ " ") name = refersTo "export" name :=
      refersTo_append_mark hn (by decide) "export"
    rw [if_pos rfl, Bool.true_and, ← decide_eq_decide.mpr (eq_comm (a := "export")),
      ← refersTo_of_isNameChar hn (by decide : IsPlainName "export").2]
    exact h

omit hn in
theorem endsApart_exportMark (exported : Bool) :
    endsApart (if exported then "export " else "") = true := by
  cases exported <;> decide

theorem refersTo_returnMark (returnType : Option String) :
    refersTo (match returnType with
      | none => ""
      | some type => if type = "" then "" else s!": {type}") name =
        returnType.any (refersTo · name) := by
  cases returnType with
  | none => exact refersTo_empty hn
  | some type =>
    rw [Option.any_some]
    dsimp only
    split
    · next h => rw [h]
    · exact refersTo_mark_append hn (by decide : IsMark ": ") type

omit hn in
theorem startsApart_returnMark (returnType : Option String) :
    startsApart (match returnType with
      | none => ""
      | some type => if type = "" then "" else s!": {type}") = true := by
  cases returnType with
  | none => decide
  | some type =>
    dsimp only
    split
    · decide
    · exact (startsApart_append (by decide : ": " ≠ "")).trans (by decide)

include hk

theorem refersTo_keyword {word : String} (hword : word ∈ keywords) :
    refersTo word name = false := by
  have hplain : ∀ word ∈ keywords, IsPlainName word := by decide
  rw [refersTo_of_isNameChar hn (hplain word hword).2, decide_eq_false_iff_not]
  exact fun h => hk (h ▸ hword)

theorem refersTo_keyword_blank {word : String} (hword : word ∈ keywords) :
    refersTo (word ++ " ") name = false := by
  rw [refersTo_append_mark hn (by decide), refersTo_keyword hn hk hword]

theorem refersTo_head (f : FunctionText) :
    refersTo f.head name =
      ((f.exported && name = "export") || refersTo f.name name || refersTo f.generic name ||
        f.params.any (refersTo · name) || f.returnType.any (refersTo · name)) := by
  -- from the left: what is exported, the name, `async`; then the brackets
  have hconst : refersTo ("const " ++ f.name ++ " = ") name = refersTo f.name name := by
    rw [refersTo_between hn (by decide) (by decide),
      show "const " = "const" ++ " " by decide, refersTo_keyword_blank hn hk (by decide),
      Bool.false_or]
  have hconstEnd : endsApart ("const " ++ f.name ++ " = ") = true :=
    (by decide : IsMark " = ").endsApart_append _
  have hasync : refersTo (if f.isAsync then "async " else "") name = false := by
    split
    · exact refersTo_keyword_blank hn hk (by decide : "async" ∈ keywords)
    · exact refersTo_empty hn
  have hparams : refersTo ("(" ++ Text.commaListOfNonempty f.params ++ ")") name =
      f.params.any (refersTo · name) := by
    rw [refersTo_append_mark hn (by decide), refersTo_mark_append hn (by decide),
      refersTo_commaListOfNonempty hn]
  have hstart : endsApart ((if f.exported then "export " else "") ++
      ("const " ++ f.name ++ " = ") ++ if f.isAsync then "async " else "") = true := by
    cases f.isAsync with
    | true => exact (endsApart_append (by decide)).trans (by decide)
    | false =>
      simp only [Bool.false_eq_true, if_false, String.append_empty]
      rw [endsApart_append (by simp), hconstEnd]
  show refersTo ((if f.exported then "export " else "") ++ ("const " ++ f.name ++ " = ") ++
      (if f.isAsync then "async " else "") ++ f.generic ++
      ("(" ++ Text.commaListOfNonempty f.params ++ ")") ++
      (match f.returnType with
        | none => ""
        | some type => if type = "" then "" else s!": {type}") ++ " => \x7b\n") name = _
  rw [refersTo_append_mark hn (by decide), refersTo_append hn (.inr (startsApart_returnMark _)),
    refersTo_returnMark hn,
    refersTo_append hn (.inr (by rw [String.append_assoc, startsApart_append] <;> decide)), hparams,
    refersTo_append hn (.inl hstart),
    refersTo_append hn (.inl ((endsApart_append (by simp)).trans hconstEnd)), hasync,
    refersTo_append hn (.inl (endsApart_exportMark _)), refersTo_exportMark hn, hconst,
    Bool.or_false]

/-- A function refers to the names that its pieces refer to. -/
theorem refersTo_render (f : FunctionText) : refersTo f.render name = f.mentions name := by
  have hheadEnd : endsApart f.head = true := (by decide : IsMark " => \x7b\n").endsApart_append _
  have hstatements : refersTo (String.join ((f.statements.filter (· ≠ "")).map fun s =>
      statementLines s ++ "\n")) name = f.statements.any (refersTo · name) := by
    rw [refersTo_join_map hn (by decide), ← any_filter_ne_empty hn]
    simp only [refersTo_statementLines hn]
  have hcall : refersTo (if f.call = "" then "" else "  return " ++ f.call ++ ";\n") name =
      refersTo f.call name := by
    split
    · next h => rw [h]
    · have h : "  return " = "  " ++ ("return" ++ " ") := by decide
      rw [refersTo_between hn (by decide) (by decide), h,
        refersTo_mark_append hn (by decide), refersTo_keyword_blank hn hk (by decide),
        Bool.false_or]
  have hcallStart :
      startsApart (if f.call = "" then "" else "  return " ++ f.call ++ ";\n") = true := by
    split
    · decide
    · rw [String.append_assoc, startsApart_append (by decide)]; decide
  have hdeclarations : refersTo (String.join (f.declarations.map fun d => "\n" ++ d ++ "\n")) name =
      f.declarations.any (refersTo · name) := by
    rw [refersTo_join_map hn (by decide)]
    simp only [refersTo_mark_append hn (by decide : IsMark "\n")]
  show refersTo (f.head ++ String.join ((f.statements.filter (· ≠ "")).map fun s =>
      statementLines s ++ "\n") ++ (if f.call = "" then "" else "  return " ++ f.call ++ ";\n") ++
      "\x7d\n" ++ String.join (f.declarations.map fun d => "\n" ++ d ++ "\n")) name = _
  rw [refersTo_append hn (.inl ((by decide : IsMark "\x7d\n").endsApart_append _)),
    refersTo_append_mark hn (by decide), refersTo_append hn (.inr hcallStart),
    refersTo_append hn (.inl hheadEnd), refersTo_head hn hk, hstatements, hcall, hdeclarations,
    mentions]

end Code.FunctionText

end RequestGen
