import RequestGen.Proofs.Code.StringLiterals
import RequestGen.Proofs.Naming.Bindings
import RequestGen.Proofs.Naming.Casings

/-! # The tokens of a statement

`scan` cuts a code into names, texts in single quotes and punctuation, with the blanks between them
left out. It knows the tokens that objects and patterns of plain names are made of, and no code with
others, such as numbers and comments. A name ends where no character of an identifier follows
(`scan_name`), and one that passes for an identifier is scanned as the name that it binds
(`scan_identifier`). -/

namespace RequestGen.Script

open Naming (isNameStart isNamePart isIdentifierText)

inductive Token where
  | name (text : String)
  | text (units : List Nat)
  | mark (c : Char)
  /-- The three dots before the rest. -/
  | dots
deriving DecidableEq

/-- The words that are no names of variables in a module. -/
def reservedWords : List String :=
  ["await", "break", "case", "catch", "class", "const", "continue", "debugger", "default", "delete",
    "do", "else", "enum", "export", "extends", "false", "finally", "for", "function", "if",
    "implements", "import", "in", "instanceof", "interface", "let", "new", "null", "package",
    "private", "protected", "public", "return", "static", "super", "switch", "this", "throw",
    "true", "try", "typeof", "var", "void", "while", "with", "yield"]

/-- The blanks, apart from those of a row, and the line breaks. -/
def blanks : List Char :=
  ['\t', '\x0b', '\x0c', ' ', '\u00a0', '\u1680', '\u202f', '\u205f', '\u3000', '\ufeff'] ++
    lineBreaks

/-- What may stand between two tokens. -/
def isBlank (c : Char) : Bool :=
  c ∈ blanks || (0x2000 ≤ c.toNat && c.toNat ≤ 0x200a)

/-- The punctuation of objects, patterns and member accesses. -/
def isMark (c : Char) : Bool :=
  c ∈ [',', ':', ';', '=', '[', ']', '\x7b', '\x7d']

theorem length_lt_of_readString {s rest : List Char} {v : List Nat}
    (h : readString s = some (v, rest)) : rest.length < s.length := by
  fun_induction readString s generalizing v rest with
  | case1 => exact nomatch h
  | case2 s =>
    obtain ⟨-, rfl⟩ := Prod.mk.inj (Option.some.inj h)
    exact Nat.lt_succ_self _
  | case3 => exact nomatch h
  | case4 s u t hescape _ ih =>
    obtain ⟨⟨w, rest'⟩, hread, heq⟩ := Option.map_eq_some_iff.mp h
    obtain ⟨-, rfl⟩ := Prod.mk.inj heq
    have hlength := length_lt_of_readEscape hescape
    have hrest := ih hread
    simp only [List.length_cons]
    omega
  | case5 => exact nomatch h
  | case6 c s _ _ _ ih =>
    obtain ⟨⟨w, rest'⟩, hread, heq⟩ := Option.map_eq_some_iff.mp h
    obtain ⟨-, rfl⟩ := Prod.mk.inj heq
    exact Nat.lt_succ_of_lt (ih hread)

/-- The tokens of a code. -/
def scan : List Char → Option (List Token)
  | [] => some []
  | c :: s =>
    if isBlank c then scan s
    else if isNameStart c then
      (scan (s.dropWhile isNamePart)).map
        (.name (String.ofList (c :: s.takeWhile isNamePart)) :: ·)
    else if c = '\'' then
      match _h : readString s with
      | none => none
      | some (v, rest) => (scan rest).map (.text v :: ·)
    else if c = '.' then
      if s.take 2 = ['.', '.'] then (scan (s.drop 2)).map (.dots :: ·) else none
    else if isMark c then (scan s).map (.mark c :: ·)
    else none
termination_by s => s.length
decreasing_by
  · simp
  · have := (List.dropWhile_sublist (p := isNamePart) (l := s)).length_le
    simp only [List.length_cons]
    omega
  · have := length_lt_of_readString _h
    simp only [List.length_cons]
    omega
  · simp only [List.length_cons, List.length_drop]
    omega
  · simp

theorem scan_blank {c : Char} (hc : isBlank c = true) (s : List Char) :
    scan (c :: s) = scan s := by
  rw [scan, if_pos hc]

theorem scan_mark {c : Char} (hc : isMark c = true) (s : List Char) :
    scan (c :: s) = (scan s).map (.mark c :: ·) := by
  have hother : isBlank c = false ∧ isNameStart c = false ∧ c ≠ '\'' ∧ c ≠ '.' := by
    simp only [isMark, List.mem_cons, List.not_mem_nil, or_false, decide_eq_true_eq] at hc
    rcases hc with rfl | rfl | rfl | rfl | rfl | rfl | rfl | rfl <;> decide
  obtain ⟨hblank, hname, hquote, hdot⟩ := hother
  rw [scan, hblank, hname]
  simp only [Bool.false_eq_true, if_false, if_neg hquote, if_neg hdot, hc, if_true]

theorem scan_dots (s : List Char) :
    scan ('.' :: '.' :: '.' :: s) = (scan s).map (.dots :: ·) := by
  rw [scan, if_neg (by decide), if_neg (by decide), if_neg (by decide), if_pos rfl, if_pos (by rfl)]
  rfl

theorem scan_quote (s : List Char) : scan ('\'' :: s) =
    (readString s).bind fun r => (scan r.2).map (.text r.1 :: ·) := by
  rw [scan, if_neg (by decide), if_neg (by decide), if_pos rfl]
  cases readString s <;> rfl

theorem scan_text {s : List Char} (hs : s.all isPlainChar = true) (tail : List Char) :
    scan ('\'' :: (s ++ '\'' :: tail)) = (scan tail).map (.text (units s) :: ·) := by
  rw [scan_quote, readString_append hs]
  rfl

theorem toNat_lt_of_isNameStart {c : Char} (hc : isNameStart c = true) : c.toNat < 128 := by
  simp only [isNameStart, Bool.or_eq_true, beq_iff_eq] at hc
  rcases hc with (hc | rfl) | rfl
  · exact Naming.toNat_lt_of_isAlphanum (by simp [Char.isAlphanum, hc])
  · decide
  · decide

theorem isBlank_eq_false {c : Char} (hc : isNameStart c = true) : isBlank c = false := by
  cases hblank : isBlank c with
  | false => rfl
  | true =>
    simp only [isBlank, Bool.or_eq_true, Bool.and_eq_true, decide_eq_true_eq] at hblank
    rcases hblank with hmem | ⟨hlow, -⟩
    · have hnone : blanks.all (!isNameStart ·) = true := by decide
      have hother := List.all_eq_true.mp hnone c hmem
      rw [hc] at hother
      exact absurd hother (by decide)
    · have hlt := toNat_lt_of_isNameStart hc
      omega

/-- An identifier is one token where it ends. -/
theorem scan_name {w tail : List Char} (hw : isIdentifierText w = true)
    (htail : ∀ c ∈ tail.head?, isNamePart c = false) :
    scan (w ++ tail) = (scan tail).map (.name (String.ofList w) :: ·) := by
  cases w with
  | nil => exact nomatch hw
  | cons c w =>
    obtain ⟨hstart, hall⟩ := (Bool.and_eq_true _ _).mp hw
    have hpart : ∀ c ∈ w, isNamePart c = true := List.all_eq_true.mp hall
    obtain ⟨hnone, hall⟩ := Naming.takeWhile_of_head? htail
    have htake : (w ++ tail).takeWhile isNamePart = w := by
      rw [List.takeWhile_append_of_pos hpart, hnone, List.append_nil]
    have hdrop : (w ++ tail).dropWhile isNamePart = tail := by
      rw [List.dropWhile_append_of_pos hpart, hall]
    rw [List.cons_append, scan, isBlank_eq_false hstart, if_neg Bool.false_ne_true, if_pos hstart,
      htake, hdrop]

/-- A name that passes for an identifier is scanned as the name that it binds. -/
theorem scan_identifier {name : String} (hname : Naming.isIdentifier name = true)
    {tail : List Char} (htail : ∀ c ∈ tail.head?, isNamePart c = false) :
    scan (name.toList ++ tail) = (scan tail).map (.name (Naming.binding name) :: ·) := by
  obtain ⟨htext, lineEnd, hsplit, hend⟩ := Naming.toList_eq_binding_append hname
  have hline : scan (lineEnd ++ tail) = scan tail := by
    rcases hend with rfl | rfl
    · rfl
    · exact scan_blank rfl tail
  have hhead : ∀ c ∈ (lineEnd ++ tail).head?, isNamePart c = false := by
    rcases hend with rfl | rfl
    · exact htail
    · intro c hc
      obtain rfl := Option.some.inj hc
      rfl
  rw [hsplit, List.append_assoc, scan_name htext hhead, hline, String.ofList_toList]

end RequestGen.Script
