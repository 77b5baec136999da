import RequestGen.Proofs.Code.UniqueLiterals
import RequestGen.Transport.Mutator

/-! # Line ends in literals

A text in quotes may not go over a line end, but a literal writes line ends as they are: only quotes
and backslashes are escaped, and a bare key may have a line feed behind it. So the raw line ends of
a literal are those of the texts and keys in it, in order (`lineEnds_literal`), at any depth, and a
literal or a literal option has none exactly if these have none (`raw_line_ends_iff`). Brackets,
commas and numbers bring none in. -/

namespace RequestGen

namespace Json

mutual

/-- The texts and keys in a value, in the order of its literal. -/
def texts : Json → List String
  | obj fields => textsOfFields fields
  | arr items => textsOfItems items
  | str s => [s]
  | _ => []

def textsOfItems : List Json → List String
  | [] => []
  | item :: items => texts item ++ textsOfItems items

def textsOfFields : List (String × Json) → List String
  | [] => []
  | (key, value) :: fields => key :: (texts value ++ textsOfFields fields)

end

end Json

namespace Code

/-- The line feeds and carriage returns of a code, in order. -/
def lineEnds (code : String) : List Char := code.toList.filter isLineEnd

/-- A code without a line feed or carriage return. -/
def IsOneLine (code : String) : Prop := ∀ c ∈ code.toList, isLineEnd c = false

instance (code : String) : Decidable (IsOneLine code) :=
  inferInstanceAs (Decidable (∀ c ∈ code.toList, isLineEnd c = false))

theorem isOneLine_iff {code : String} : IsOneLine code ↔ lineEnds code = [] := by
  rw [IsOneLine, lineEnds, List.filter_eq_nil_iff]
  simp only [Bool.not_eq_true]

@[simp] theorem lineEnds_append (front back : String) :
    lineEnds (front ++ back) = lineEnds front ++ lineEnds back := by
  rw [lineEnds, String.toList_append, List.filter_append]
  rfl

theorem lineEnds_commaList (codes : List String) :
    lineEnds (Text.commaList codes) = codes.flatMap lineEnds := by
  induction codes with
  | nil => rfl
  | cons code codes ih =>
    cases codes with
    | nil => rw [Text.commaList_singleton, List.flatMap_singleton]
    | cons next codes =>
      have hcomma : lineEnds ", " = [] := by decide
      rw [Text.commaList_cons_cons, lineEnds_append, lineEnds_append, hcomma, List.append_nil, ih,
        ← List.flatMap_cons]

/-! ### Texts and keys -/

theorem filter_quotedChar (c : Char) :
    (quotedChar c).filter isLineEnd = [c].filter isLineEnd := by
  have hbackslash : isLineEnd '\\' = false := rfl
  unfold quotedChar
  split
  · rw [List.filter_cons_of_neg (by simp [hbackslash])]
  · rfl

theorem lineEnds_quotedText (s : String) : lineEnds (quotedText s) = lineEnds s := by
  have hquote : isLineEnd '\'' = false := rfl
  have hinside (s : List Char) : (s.flatMap quotedChar).filter isLineEnd = s.filter isLineEnd := by
    induction s with
    | nil => rfl
    | cons c s ih =>
      rw [List.flatMap_cons, List.filter_append, filter_quotedChar, ih, ← List.filter_append,
        List.singleton_append]
  rw [lineEnds, toList_quotedText, List.filter_cons_of_neg (by simp [hquote]), List.filter_append,
    hinside, List.filter_cons_of_neg (by simp [hquote]), List.filter_nil, List.append_nil, lineEnds]

theorem lineEnds_literalKey (key : String) : lineEnds (literalKey key) = lineEnds key := by
  unfold literalKey
  split
  · rfl
  · exact lineEnds_quotedText key

/-! ### Numbers -/

/-- A character of a number, and of the words for numbers that are not finite. -/
def isNumberChar (c : Char) : Bool := c.isAlphanum || c == '-' || c == '+' || c == '.'

/-- A text of such characters only. -/
def IsNumberText (text : String) : Prop := ∀ c ∈ text.toList, isNumberChar c = true

namespace IsNumberText

theorem of_all {text : String} (h : text.toList.all isNumberChar = true) : IsNumberText text :=
  List.all_eq_true.mp h

theorem append {front back : String} (hfront : IsNumberText front) (hback : IsNumberText back) :
    IsNumberText (front ++ back) := by
  intro c hc
  rw [String.toList_append] at hc
  rcases List.mem_append.mp hc with hc | hc
  · exact hfront c hc
  · exact hback c hc

theorem of_subset {text whole : String} (h : IsNumberText whole)
    (hsub : text.toList ⊆ whole.toList) : IsNumberText text :=
  fun c hc => h c (hsub hc)

theorem int (i : Int) : IsNumberText (toString i) := by
  intro c hc
  have h := isWordChar_of_mem_int c hc
  rw [isWordChar, Bool.or_eq_true] at h
  rcases h with h | h <;> simp [isNumberChar, h]

theorem nat (n : Nat) : IsNumberText (toString n) := int n

theorem zeros (n : Nat) : IsNumberText (Decimal.zeros n) := by
  intro c hc
  rw [Decimal.zeros, String.toList_ofList] at hc
  rw [List.eq_of_mem_replicate hc]
  rfl

theorem trimmedDigits (n : Nat) : IsNumberText (Binary64.trimmedDigits n) := by
  refine (nat n).of_subset ?_
  intro c hc
  rw [Binary64.trimmedDigits, String.toList_ofList, List.mem_reverse] at hc
  exact List.mem_reverse.mp ((List.dropWhile_sublist _).subset hc)

section Decimal

variable {d : Decimal} (h : IsNumberText d.digits)

include h

theorem take (n : Nat) : IsNumberText (d.digits.take n).copy := by
  refine h.of_subset ?_
  rw [String.toList_copy_take]
  exact List.take_subset _ _

theorem drop (n : Nat) : IsNumberText (d.digits.drop n).copy := by
  refine h.of_subset ?_
  rw [String.toList_copy_drop]
  exact List.drop_subset _ _

theorem positional : IsNumberText d.positional := by
  have hzero : IsNumberText "0." := of_all (by decide)
  have hpoint : IsNumberText "." := of_all (by decide)
  have hend : IsNumberText ".0" := of_all (by decide)
  unfold Decimal.positional
  dsimp only
  split
  · exact (hzero.append (zeros _)).append h
  · split
    · exact (h.append (zeros _)).append hend
    · exact ((h.take _).append hpoint).append (h.drop _)

theorem scientific : IsNumberText d.scientific := by
  have hpoint : IsNumberText "." := of_all (by decide)
  have hzero : IsNumberText "0" := of_all (by decide)
  have hpower : IsNumberText "e" := of_all (by decide)
  have hsign : IsNumberText (if d.point - 1 < 0 then "-" else "+") := by
    split <;> exact of_all (by decide)
  have hsize (n : Nat) : IsNumberText
      (if (toString n).length < 2 then s!"0{toString n}" else toString n) := by
    split
    · exact hzero.append (nat n)
    · exact nat n
  have hmantissa : IsNumberText
      (if d.digits.length ≤ 1 then d.digits else s!"{d.digits.take 1}.{d.digits.drop 1}") := by
    split
    · exact h
    · exact ((h.take 1).append hpoint).append (h.drop 1)
  exact ((hmantissa.append hpower).append hsign).append (hsize _)

theorem decimal : IsNumberText d.text := by
  unfold Decimal.text
  split
  · exact h.positional
  · exact h.scientific

end Decimal

theorem float (x : Binary64) : IsNumberText (x.text "Infinity" "NaN") := by
  have hsign : IsNumberText (if x.isNegative then "-" else "") := by
    split <;> exact of_all (by decide)
  have hmagnitude : IsNumberText (if x.isInfinite then "Infinity" else
      if x.isZero then "0.0" else x.shortest.text) := by
    split
    · exact of_all (by decide)
    · split
      · exact of_all (by decide)
      · exact decimal (trimmedDigits _)
  unfold Binary64.text
  split
  · exact of_all (by decide)
  · exact hsign.append hmagnitude

theorem lineEnds_eq_nil {text : String} (h : IsNumberText text) : lineEnds text = [] := by
  rw [← isOneLine_iff]
  intro c hc
  cases hend : isLineEnd c with
  | false => rfl
  | true =>
    simp only [isLineEnd, Bool.or_eq_true, decide_eq_true_eq] at hend
    rcases hend with rfl | rfl <;> exact absurd (h _ hc) (by decide)

end IsNumberText

/-! ### Values -/

mutual

/-- A literal has the line ends of the texts and keys in its value, and no others. -/
theorem lineEnds_literal (v : Json) : lineEnds (literal v) = v.texts.flatMap lineEnds := by
  cases v with
  | null => rfl
  | bool b => cases b <;> rfl
  | int i => exact (IsNumberText.int i).lineEnds_eq_nil
  | float x => exact (IsNumberText.float x).lineEnds_eq_nil
  | str s => rw [literal, lineEnds_quotedText, Json.texts, List.flatMap_singleton]
  | arr items =>
    have hopen : lineEnds "[" = [] := rfl
    have hclose : lineEnds "]" = [] := rfl
    have hcode : literal (.arr items) = "[" ++ Text.commaList (literalItems items) ++ "]" := rfl
    rw [hcode, lineEnds_append, lineEnds_append, hopen, hclose, List.nil_append, List.append_nil,
      lineEnds_commaList, lineEnds_items items, Json.texts]
  | obj fields =>
    have hopen : lineEnds "\x7b" = [] := rfl
    have hclose : lineEnds "\x7d" = [] := rfl
    rw [literal, lineEnds_append, lineEnds_append, hopen, hclose, List.nil_append, List.append_nil,
      lineEnds_commaList, lineEnds_fields fields, Json.texts]

theorem lineEnds_items (items : List Json) :
    (literalItems items).flatMap lineEnds = (Json.textsOfItems items).flatMap lineEnds := by
  cases items with
  | nil => rfl
  | cons item items =>
    rw [literalItems, List.flatMap_cons, lineEnds_literal item, lineEnds_items items,
      Json.textsOfItems, List.flatMap_append]

theorem lineEnds_fields (fields : List (String × Json)) :
    (literalFields fields).flatMap lineEnds = (Json.textsOfFields fields).flatMap lineEnds := by
  match fields with
  | [] => rfl
  | (key, value) :: fields =>
    have hcolon : lineEnds ": " = [] := by decide
    have hfield : s!"{literalKey key}: {literal value}" =
        literalKey key ++ ": " ++ literal value := rfl
    rw [literalFields, List.flatMap_cons, hfield, lineEnds_append, lineEnds_append, hcolon,
      List.append_nil, lineEnds_literalKey, lineEnds_literal value, lineEnds_fields fields,
      Json.textsOfFields, List.flatMap_cons, List.flatMap_append, List.append_assoc]

end

/-! ### Literal options -/

theorem renderEntries_literals (fields : Json.Fields) :
    renderEntries (Entry.literals fields) = literalFields fields := by
  rw [renderEntries_eq_map, literalFields_eq_map, Entry.literals, List.map_map]
  rfl

theorem lineEnds_object (layout : Layout) (entries : List Entry) :
    lineEnds (Expr.object layout entries).render = (renderEntries entries).flatMap lineEnds := by
  have hopen : lineEnds "\x7b" = [] ∧ lineEnds "\x7b " = [] := by decide
  have hclose : lineEnds "\x7d" = [] ∧ lineEnds " \x7d" = [] := by decide
  show lineEnds (braces layout (renderEntries entries)) = _
  cases layout <;>
    simp only [braces, lineEnds_append, hopen, hclose, lineEnds_commaList, List.nil_append,
      List.append_nil]

theorem lineEnds_spread_options (condition : Bool) :
    (renderEntries (entryIf condition (.spread (.name "options")))).flatMap lineEnds = [] := by
  have hoptions : lineEnds "...options" = [] := by decide
  cases condition with
  | false => rfl
  | true => exact (List.flatMap_singleton lineEnds "...options").trans hoptions

theorem lineEnds_mutatorOptions (fields : Json.Fields) (hasSecondArg : Bool) :
    ∃ e, mutatorOptions (.literal fields) hasSecondArg = some e ∧
      lineEnds e.render = (Json.obj fields).texts.flatMap lineEnds := by
  refine ⟨.object .tight
    (Entry.literals fields ++ entryIf hasSecondArg (.spread (.name "options"))), rfl, ?_⟩
  rw [lineEnds_object, renderEntries_eq_map, List.map_append, List.flatMap_append,
    ← renderEntries_eq_map, ← renderEntries_eq_map, lineEnds_spread_options, List.append_nil,
    renderEntries_literals, lineEnds_fields, Json.texts]

theorem flatMap_lineEnds_eq_nil_iff {codes : List String} :
    codes.flatMap lineEnds = [] ↔ ∀ code ∈ codes, IsOneLine code := by
  simp only [List.flatMap_eq_nil_iff, isOneLine_iff]

/-- A literal has no raw line feed and no carriage return exactly if no text and no key in its value
has one, and so have the entries of literal options and the argument that a mutator gets them in. -/
theorem raw_line_ends_iff (v : Json) (fields : Json.Fields) (hasSecondArg : Bool) :
    (IsOneLine (literal v) ↔ ∀ text ∈ v.texts, IsOneLine text) ∧
      ((∀ code ∈ renderEntries (Entry.literals fields), IsOneLine code) ↔
        ∀ text ∈ (Json.obj fields).texts, IsOneLine text) ∧
      ∃ e, mutatorOptions (.literal fields) hasSecondArg = some e ∧
        (IsOneLine e.render ↔ ∀ text ∈ (Json.obj fields).texts, IsOneLine text) := by
  refine ⟨?_, ?_, ?_⟩
  · rw [isOneLine_iff, lineEnds_literal, flatMap_lineEnds_eq_nil_iff]
  · rw [← flatMap_lineEnds_eq_nil_iff, renderEntries_literals, lineEnds_fields,
      flatMap_lineEnds_eq_nil_iff, Json.texts]
  · obtain ⟨e, he, hends⟩ := lineEnds_mutatorOptions fields hasSecondArg
    refine ⟨e, he, ?_⟩
    rw [isOneLine_iff, hends, flatMap_lineEnds_eq_nil_iff]

example : literal (.arr [.str "a\nb", .int 5]) = "['a\nb', 5]" := by decide

end Code

end RequestGen
