import Mathlib.Data.List.TakeWhile
import RequestGen.Proofs.Text.Replace
import RequestGen.Reference.Pointer

/-! # Writing a reference and reading it back

`Reference.text` writes a reference: the document, `#/`, and the keys with a slash between them and
their tildes and slashes escaped. What undoes the escapes of a key is that slashes come back before
tildes do (`unescape_escape`): a tilde of the key is always followed by a zero then, so no mark of a
slash is made up. A written reference is read back exactly if its document holds no `#`, which would
end it, and no key is empty, which would be skipped (`ofText_text_iff`). -/

namespace RequestGen

namespace Text

/-- Cutting at the separators between pieces without separators gives the pieces back, but for those
that are empty. -/
theorem filter_splitOn_intercalate {sep : Char} {pieces : List (List Char)}
    (h : ∀ piece ∈ pieces, sep ∉ piece) :
    (splitOn sep (List.intercalate [sep] pieces)).filter (!·.isEmpty) =
      pieces.filter (!·.isEmpty) := by
  induction pieces with
  | nil => rfl
  | cons piece pieces ih =>
    have hpiece := h piece List.mem_cons_self
    have hpieces := ih fun p hp => h p (List.mem_cons_of_mem piece hp)
    cases pieces with
    | nil => rw [List.intercalate_singleton, splitOn_eq_singleton hpiece]
    | cons next pieces =>
      rw [List.intercalate_cons_cons, List.append_assoc, List.singleton_append,
        splitOn_append_cons, splitOn_eq_singleton hpiece, List.filter_append, hpieces,
        ← List.filter_append, List.singleton_append]

theorem takeWhile_append_cons_self (c : Char) (s t : List Char) :
    (s ++ c :: t).takeWhile (· ≠ c) = s.takeWhile (· ≠ c) := by
  induction s with
  | nil => simp
  | cons d s ih =>
    by_cases hd : d = c
    · simp [hd]
    · rw [List.cons_append, List.takeWhile_cons_of_pos (by simpa using hd), ih,
        List.takeWhile_cons_of_pos (by simpa using hd)]

theorem takeWhile_ne_eq_self_iff {c : Char} {s : List Char} :
    s.takeWhile (· ≠ c) = s ↔ c ∉ s := by
  rw [List.takeWhile_eq_self_iff]
  constructor
  · intro h hc
    simpa using h c hc
  · intro h d hd
    simpa using fun heq : d = c => h (heq ▸ hd)

end Text

namespace Reference

/-! ### Keys -/

theorem unescape_escape (token : List Char) : unescape (escape token) = token := by
  unfold unescape escape
  have hslash : ¬ ['~', '1'] <:+: Text.replace ['~'] ['~', '0'] token :=
    Text.not_infix_replace_self (by decide) (by decide) token
  rw [Text.replace_replace_mark (by decide) (.inr hslash),
    Text.replace_replace_mark (by decide) (.inl rfl)]

example : unescape "~01~1a~0".toList = "~1/a~".toList := by decide

theorem slash_notMem_escape (token : List Char) : '/' ∉ escape token :=
  Text.notMem_replace (by decide) _

theorem escape_eq_nil_iff {token : List Char} : escape token = [] ↔ token = [] := by
  constructor
  · intro h
    rw [← unescape_escape token, h]
    rfl
  · rintro rfl
    rfl

theorem pointerTokens_intercalate (tokens : List (List Char)) :
    pointerTokens ('/' :: List.intercalate ['/'] (tokens.map escape)) =
      tokens.filter (!·.isEmpty) := by
  have hslash : ∀ piece ∈ tokens.map escape, '/' ∉ piece := by
    intro piece hpiece
    obtain ⟨token, -, rfl⟩ := List.mem_map.mp hpiece
    exact slash_notMem_escape token
  have hempty (token : List Char) : (escape token).isEmpty = token.isEmpty := by
    rw [Bool.eq_iff_iff, List.isEmpty_iff, List.isEmpty_iff, escape_eq_nil_iff]
  have hfirst (s : List Char) : Text.splitOn '/' ('/' :: s) = [] :: Text.splitOn '/' s := by
    simp [Text.splitOn]
  rw [pointerTokens, hfirst, List.filter_cons_of_neg (by simp),
    Text.filter_splitOn_intercalate hslash, List.filter_map, List.map_map]
  simp only [Function.comp_def, hempty, unescape_escape, List.map_id']

/-! ### References -/

/-- The text of a reference. -/
def text (r : Reference) : String :=
  r.document.getD "" ++ "#/" ++
    String.intercalate "/" (r.tokens.map fun token => String.ofList (escape token.toList))

variable {r : Reference}

theorem toList_text : r.text.toList = (r.document.getD "").toList ++
    '#' :: '/' :: List.intercalate ['/'] ((r.tokens.map String.toList).map escape) := by
  simp [text, String.toList_intercalate, Function.comp_def]

theorem document_ofText_text_eq_iff :
    (ofText r.text).document = r.document.filter (· ≠ "") ↔
      ∀ document ∈ r.document, '#' ∉ document.toList := by
  have hfront : r.text.toList.takeWhile (· ≠ '#') =
      (r.document.getD "").toList.takeWhile (· ≠ '#') := by
    rw [toList_text, Text.takeWhile_append_cons_self]
  unfold ofText
  rw [hfront]
  dsimp only
  cases r.document with
  | none => simp
  | some document =>
    by_cases hempty : document = ""
    · subst hempty
      exact iff_of_true rfl (by simp)
    have hfilter : (some document).filter (· ≠ "") = some document := by simp [hempty]
    have hmem : (∀ d ∈ some document, '#' ∉ d.toList) ↔ '#' ∉ document.toList := by simp
    rw [hfilter, hmem, Option.getD_some, ← Text.takeWhile_ne_eq_self_iff]
    constructor
    · intro h
      split at h
      · exact absurd h.symm (Option.some_ne_none document)
      · have hlist := congrArg String.toList (Option.some.inj h)
        rwa [String.toList_ofList] at hlist
    · intro h
      rw [h, String.ofList_toList, if_neg (by simpa using hempty)]

theorem tokens_ofText_text (h : ∀ document ∈ r.document, '#' ∉ document.toList) :
    (ofText r.text).tokens = r.tokens.filter (· ≠ "") := by
  have hdocument : ∀ c ∈ (r.document.getD "").toList, c ≠ '#' := by
    cases hd : r.document with
    | none => simp
    | some document =>
      rintro c hc rfl
      exact h document hd hc
  have hpointer : (r.text.toList.dropWhile (· ≠ '#')).drop 1 =
      '/' :: List.intercalate ['/'] ((r.tokens.map String.toList).map escape) := by
    rw [toList_text, List.dropWhile_append_of_pos (by simpa using hdocument)]
    simp
  have hread : (ofText r.text).tokens =
      (pointerTokens ((r.text.toList.dropWhile (· ≠ '#')).drop 1)).map String.ofList := rfl
  have hempty (token : String) : token.toList.isEmpty = decide (token = "") := by
    rw [Bool.eq_iff_iff, List.isEmpty_iff, String.toList_eq_nil_iff, decide_eq_true_iff]
  rw [hread, hpointer, pointerTokens_intercalate, List.filter_map, List.map_map]
  simp [Function.comp_def, hempty]

/-- A written reference is read back, an empty document as none, exactly if the document holds no
`#` and no key is empty. -/
theorem ofText_text_iff :
    ofText r.text = ⟨r.document.filter (· ≠ ""), r.tokens⟩ ↔
      (∀ document ∈ r.document, '#' ∉ document.toList) ∧ "" ∉ r.tokens := by
  have hkeys : r.tokens.filter (· ≠ "") = r.tokens ↔ "" ∉ r.tokens := by
    rw [List.filter_eq_self]
    constructor
    · intro h hempty
      simpa using h "" hempty
    · intro h token htoken
      simpa using fun heq : token = "" => h (heq ▸ htoken)
  have hparts : ofText r.text = ⟨r.document.filter (· ≠ ""), r.tokens⟩ ↔
      (ofText r.text).document = r.document.filter (· ≠ "") ∧
        (ofText r.text).tokens = r.tokens := by
    cases ofText r.text
    exact Reference.mk.injEq .. ▸ Iff.rfl
  rw [hparts, document_ofText_text_eq_iff]
  refine and_congr_right fun hdocument => ?_
  rw [tokens_ofText_text hdocument, hkeys]

end Reference

end RequestGen
