import Std.Data.String.ToInt
import RequestGen.Proofs.Code.QuotedTexts

/-! # Literals are uniquely decodable

Two document values without binary64 numbers have different literals, and what stands behind a
literal is told apart from it too (`literal_uniquely_decodable`). Brackets, quotes and words each
start with characters of their own. A word ends where its characters end, a quoted text at the first
quote without a backslash, and a list at its closing bracket, which starts no item. So the proof
goes down the first of the two values and cuts one literal after the other off both texts. -/

namespace RequestGen.Code

/-! ### Words and quoted texts -/

/-- A character of an integer, a flag or `null`. -/
def isWordChar (c : Char) : Bool := c.isAlphanum || c == '-'

/-- A text that no word goes on with. -/
def EndsWord (rest : List Char) : Prop := ∀ c ∈ rest.head?, isWordChar c = false

theorem endsWord_cons {c : Char} {rest : List Char} (h : isWordChar c = false) :
    EndsWord (c :: rest) := by
  intro d hd
  obtain rfl := Option.some.inj hd
  exact h

theorem run_append_inj {p : Char → Bool} {a b r s : List Char} (ha : ∀ c ∈ a, p c = true)
    (hb : ∀ c ∈ b, p c = true) (hr : ∀ c ∈ r.head?, p c = false)
    (hs : ∀ c ∈ s.head?, p c = false) (h : a ++ r = b ++ s) : a = b ∧ r = s := by
  induction a generalizing b with
  | nil =>
    cases b with
    | nil => exact ⟨rfl, h⟩
    | cons d b =>
      rw [List.nil_append] at h
      have hin : p d = true := hb d List.mem_cons_self
      have hout : p d = false := hr d (by simp [h])
      exact absurd (hin.symm.trans hout) (by decide)
  | cons c a ih =>
    cases b with
    | nil =>
      rw [List.nil_append] at h
      have hin : p c = true := ha c List.mem_cons_self
      have hout : p c = false := hs c (by simp [← h])
      exact absurd (hin.symm.trans hout) (by decide)
    | cons d b =>
      obtain ⟨rfl, hrest⟩ := List.cons.inj h
      obtain ⟨rfl, rfl⟩ := ih (fun e he => ha e (List.mem_cons_of_mem _ he))
        (fun e he => hb e (List.mem_cons_of_mem _ he)) hrest
      exact ⟨rfl, rfl⟩

theorem quotedChar_append_inj {c d : Char} {r s : List Char}
    (h : quotedChar c ++ r = quotedChar d ++ s) : c = d ∧ r = s := by
  unfold quotedChar at h
  split at h <;> split at h
  · simpa using h
  · -- a backslash starts an escape and stands for nothing by itself
    next hd =>
    obtain ⟨rfl, -⟩ := List.cons.inj h
    exact absurd (.inl rfl) hd
  · next hc _ =>
    obtain ⟨rfl, -⟩ := List.cons.inj h
    exact absurd (.inl rfl) hc
  · exact List.cons.inj h

theorem quotedChar_append_ne (c : Char) (r s : List Char) : quotedChar c ++ r ≠ '\'' :: s := by
  intro h
  unfold quotedChar at h
  split at h
  · exact absurd (List.cons.inj h).1 (by decide)
  · next hc =>
    obtain ⟨rfl, -⟩ := List.cons.inj h
    exact absurd (.inr rfl) hc

theorem quoted_append_inj {a b r s : List Char}
    (h : a.flatMap quotedChar ++ '\'' :: r = b.flatMap quotedChar ++ '\'' :: s) :
    a = b ∧ r = s := by
  induction a generalizing b with
  | nil =>
    cases b with
    | nil => exact ⟨rfl, (List.cons.inj h).2⟩
    | cons d b =>
      rw [List.flatMap_cons, List.append_assoc] at h
      exact absurd h.symm (quotedChar_append_ne d _ _)
  | cons c a ih =>
    cases b with
    | nil =>
      rw [List.flatMap_cons, List.append_assoc] at h
      exact absurd h (quotedChar_append_ne c _ _)
    | cons d b =>
      rw [List.flatMap_cons, List.flatMap_cons, List.append_assoc, List.append_assoc] at h
      obtain ⟨rfl, hrest⟩ := quotedChar_append_inj h
      obtain ⟨rfl, rfl⟩ := ih hrest
      exact ⟨rfl, rfl⟩

theorem quotedText_append_inj {a b : String} {r s : List Char}
    (h : (quotedText a).toList ++ r = (quotedText b).toList ++ s) : a = b ∧ r = s := by
  rw [toList_quotedText, toList_quotedText] at h
  simp only [List.cons_append, List.append_assoc, List.nil_append] at h
  obtain ⟨hab, hrs⟩ := quoted_append_inj (List.cons.inj h).2
  exact ⟨String.toList_inj.mp hab, hrs⟩

/-! ### Keys -/

/-- A bare key holds no colon, not even with a line end behind it. -/
theorem ne_colon_of_isIdentifier {key : String} (h : Naming.isIdentifier key = true) :
    ∀ c ∈ key.toList, (c != ':') = true := by
  intro c hc
  rw [bne_iff_ne]
  rintro rfl
  exact absurd (Naming.isNamePart_or_lineEnd_of_mem h _ hc) (by decide)

theorem literalKey_append_inj {a b : String} {r s : List Char}
    (h : (literalKey a).toList ++ ':' :: r = (literalKey b).toList ++ ':' :: s) :
    a = b ∧ r = s := by
  have hquote {bare quoted : String} {r s : List Char} (hb : Naming.isIdentifier bare = true) :
      bare.toList ++ r ≠ (quotedText quoted).toList ++ s := by
    obtain ⟨c, rest, hbare, hstart, -⟩ := Naming.exists_of_isIdentifier hb
    rw [hbare, toList_quotedText]
    intro h
    obtain ⟨rfl, -⟩ := List.cons.inj h
    exact absurd hstart (by decide)
  have hcolon (rest : List Char) : ∀ c ∈ (':' :: rest).head?, (c != ':') = false := by
    intro c hc
    obtain rfl := Option.some.inj hc
    rfl
  unfold literalKey at h
  split at h <;> split at h
  · next ha hb =>
    obtain ⟨hab, hrs⟩ := run_append_inj (ne_colon_of_isIdentifier ha)
      (ne_colon_of_isIdentifier hb) (hcolon r) (hcolon s) h
    exact ⟨String.toList_inj.mp hab, (List.cons.inj hrs).2⟩
  · next ha _ => exact absurd h (hquote ha)
  · next hb => exact absurd h.symm (hquote hb)
  · obtain ⟨hab, hrs⟩ := quotedText_append_inj h
    exact ⟨hab, (List.cons.inj hrs).2⟩

/-! ### Lists -/

section Lists

variable {α : Type} {code : α → String} {among : α → Prop}

/-- The code of `x` is told apart from that of any other item, and from what stands behind it. -/
def Decodes (code : α → String) (among : α → Prop) (x : α) : Prop :=
  ∀ y, among y → ∀ r s, EndsWord r → EndsWord s →
    (code x).toList ++ r = (code y).toList ++ s → x = y ∧ r = s

/-- The text starts with another character. -/
def StartsOtherwise (mark : Char) (text : String) : Prop :=
  ∃ c s, text.toList = c :: s ∧ c ≠ mark

theorem commaList_append_ne {close : Char} {text : String} (h : StartsOtherwise close text)
    (texts : List String) (r s : List Char) :
    (Text.commaList (text :: texts)).toList ++ r ≠ close :: s := by
  obtain ⟨c, t, ht, hne⟩ := h
  rw [Text.commaList_cons_append, ht]
  intro heq
  exact hne (List.cons.inj heq).1

theorem commaList_append_inj {close : Char} (hclose : isWordChar close = false)
    (hcomma : close ≠ ',') {xs ys : List α} {r s : List Char}
    (hxs : ∀ x ∈ xs, Decodes code among x) (hys : ∀ y ∈ ys, among y)
    (hopen : ∀ x ∈ xs ++ ys, StartsOtherwise close (code x))
    (h : (Text.commaList (xs.map code)).toList ++ close :: r =
      (Text.commaList (ys.map code)).toList ++ close :: s) : xs = ys ∧ r = s := by
  have hends (texts : List String) (rest : List Char) :
      EndsWord (if texts = [] then close :: rest
        else ',' :: ' ' :: ((Text.commaList texts).toList ++ close :: rest)) := by
    split
    · exact endsWord_cons hclose
    · exact endsWord_cons (by decide)
  induction xs generalizing ys with
  | nil =>
    cases ys with
    | nil => exact ⟨rfl, (List.cons.inj h).2⟩
    | cons y ys => exact absurd h.symm (commaList_append_ne (hopen y (by simp)) _ _ _)
  | cons x xs ih =>
    cases ys with
    | nil => exact absurd h (commaList_append_ne (hopen x (by simp)) _ _ _)
    | cons y ys =>
      rw [List.map_cons, List.map_cons, Text.commaList_cons_append,
        Text.commaList_cons_append] at h
      obtain ⟨rfl, hrest⟩ := hxs x List.mem_cons_self y (hys y List.mem_cons_self) _ _
        (hends _ r) (hends _ s) h
      have htails : xs = ys ∧ r = s := by
        split at hrest <;> split at hrest
        · next hx hy =>
          rw [List.map_eq_nil_iff.mp hx, List.map_eq_nil_iff.mp hy]
          exact ⟨rfl, (List.cons.inj hrest).2⟩
        · exact absurd (List.cons.inj hrest).1 hcomma
        · exact absurd (List.cons.inj hrest).1.symm hcomma
        · refine ih (fun z hz => hxs z (List.mem_cons_of_mem _ hz))
            (fun z hz => hys z (List.mem_cons_of_mem _ hz)) (fun z hz => hopen z ?_)
            (List.cons.inj (List.cons.inj hrest).2).2
          rcases List.mem_append.mp hz with hz | hz <;> simp [hz]
      obtain ⟨rfl, rfl⟩ := htails
      exact ⟨rfl, rfl⟩

end Lists

/-! ### Values -/

mutual

/-- Whether no binary64 number is in the value. -/
def isExact : Json → Bool
  | .float _ => false
  | .arr items => areExact items
  | .obj fields => areExactFields fields
  | _ => true

def areExact : List Json → Bool
  | [] => true
  | item :: items => isExact item && areExact items

def areExactFields : List (String × Json) → Bool
  | [] => true
  | (_, value) :: fields => isExact value && areExactFields fields

end

/-- The field of an object as a property of a literal. -/
def fieldCode (field : String × Json) : String := s!"{literalKey field.1}: {literal field.2}"

theorem literalItems_eq_map (items : List Json) : literalItems items = items.map literal := by
  induction items with
  | nil => rfl
  | cons item items ih => rw [literalItems, ih, List.map_cons]

theorem literalFields_eq_map (fields : List (String × Json)) :
    literalFields fields = fields.map fieldCode := by
  induction fields with
  | nil => rfl
  | cons field fields ih => rw [literalFields, ih, List.map_cons]; rfl

theorem areExact_iff {items : List Json} :
    areExact items = true ↔ ∀ item ∈ items, isExact item = true := by
  induction items with
  | nil => simp [areExact]
  | cons item items ih => simp [areExact, ih]

theorem areExactFields_iff {fields : List (String × Json)} :
    areExactFields fields = true ↔ ∀ field ∈ fields, isExact field.2 = true := by
  induction fields with
  | nil => simp [areExactFields]
  | cons field fields ih => simp [areExactFields, ih]

theorem toList_literal_arr (items : List Json) : (literal (.arr items)).toList =
    '[' :: ((Text.commaList (items.map literal)).toList ++ [']']) := by
  rw [literal, literalItems_eq_map]
  simp [toString]

theorem toList_literal_obj (fields : List (String × Json)) : (literal (.obj fields)).toList =
    '\x7b' :: ((Text.commaList (fields.map fieldCode)).toList ++ ['\x7d']) := by
  rw [literal, literalFields_eq_map]
  simp

theorem toList_fieldCode (field : String × Json) : (fieldCode field).toList =
    (literalKey field.1).toList ++ ':' :: ' ' :: (literal field.2).toList := by
  simp [fieldCode, toString]

/-- The mark that a literal starts with, if it is not a word. -/
def opening? : Json → Option Char
  | .obj _ => some '\x7b'
  | .arr _ => some '['
  | .str _ => some '\''
  | _ => none

theorem digits_of_mem_int {i : Int} :
    ∀ c ∈ (toString i).toList, (c.isDigit || c == '-') = true := by
  have hdigits (n : Nat) : ∀ c ∈ n.repr.toList, (c.isDigit || c == '-') = true := by
    intro c hc
    rw [Nat.toList_repr] at hc
    rw [Nat.isDigit_of_mem_toDigits (by decide) (by decide) hc, Bool.true_or]
  intro c hc
  rw [Int.toString_eq_repr, Int.repr_eq_if] at hc
  split at hc
  · exact hdigits _ c hc
  · rw [String.toList_append] at hc
    rcases List.mem_append.mp hc with hc | hc
    · obtain rfl := List.mem_singleton.mp hc
      decide
    · exact hdigits _ c hc

theorem isWordChar_of_mem_int {i : Int} : ∀ c ∈ (toString i).toList, isWordChar c = true := by
  intro c hc
  have h := digits_of_mem_int c hc
  rw [Bool.or_eq_true] at h
  rcases h with h | h <;> simp [isWordChar, Char.isAlphanum, h]

theorem toString_int_ne {i : Int} {word : String}
    (h : word.toList.all (fun c => c.isDigit || c == '-') = false) : toString i ≠ word := by
  rintro rfl
  rw [List.all_eq_true.mpr digits_of_mem_int] at h
  exact nomatch h

theorem toString_int_ne_empty (i : Int) : toString i ≠ "" := by
  intro h
  rw [Int.toString_eq_repr, Int.repr_eq_if] at h
  split at h
  · exact Nat.repr_ne_empty h
  · exact absurd (congrArg String.toList h) (by simp)

theorem word_of_opening? {v : Json} (hv : isExact v = true) (ho : opening? v = none) :
    literal v ≠ "" ∧ ∀ c ∈ (literal v).toList, isWordChar c = true := by
  cases v with
  | null => exact ⟨by decide, List.all_eq_true.mp (by decide)⟩
  | bool b => cases b <;> exact ⟨by decide, List.all_eq_true.mp (by decide)⟩
  | int i => exact ⟨toString_int_ne_empty i, isWordChar_of_mem_int⟩
  | float x => exact nomatch hv
  | str s => exact nomatch ho
  | arr items => exact nomatch ho
  | obj fields => exact nomatch ho

theorem opening?_eq {v : Json} (hv : isExact v = true) :
    ∃ c s, (literal v).toList = c :: s ∧ opening? v = if isWordChar c then none else some c := by
  cases ho : opening? v with
  | none =>
    obtain ⟨hne, hword⟩ := word_of_opening? hv ho
    cases hs : (literal v).toList with
    | nil => exact absurd (String.toList_eq_nil_iff.mp hs) hne
    | cons c s =>
      have hc : isWordChar c = true := hword c (by rw [hs]; exact List.mem_cons_self)
      exact ⟨c, s, rfl, by rw [if_pos hc]⟩
  | some mark =>
    cases v with
    | obj fields =>
      obtain rfl := Option.some.inj ho
      exact ⟨_, _, toList_literal_obj fields, rfl⟩
    | arr items =>
      obtain rfl := Option.some.inj ho
      exact ⟨_, _, toList_literal_arr items, rfl⟩
    | str s =>
      obtain rfl := Option.some.inj ho
      exact ⟨_, _, toList_quotedText s, rfl⟩
    | _ => exact nomatch ho

theorem opening?_congr {v w : Json} {r s : List Char} (hv : isExact v = true)
    (hw : isExact w = true) (h : (literal v).toList ++ r = (literal w).toList ++ s) :
    opening? v = opening? w := by
  obtain ⟨c, v', hvs, hvo⟩ := opening?_eq hv
  obtain ⟨d, w', hws, hwo⟩ := opening?_eq hw
  rw [hvs, hws] at h
  obtain ⟨rfl, -⟩ := List.cons.inj h
  rw [hvo, hwo]

theorem literal_startsOtherwise {v : Json} (hv : isExact v = true) :
    StartsOtherwise ']' (literal v) := by
  obtain ⟨c, s, hs, ho⟩ := opening?_eq hv
  refine ⟨c, s, hs, ?_⟩
  rintro rfl
  have hmark : opening? v = some ']' := ho
  cases v <;> exact absurd hmark (by simp [opening?])

theorem fieldCode_startsOtherwise (field : String × Json) :
    StartsOtherwise '\x7d' (fieldCode field) := by
  rw [StartsOtherwise, toList_fieldCode, literalKey]
  split
  · next hkey =>
    obtain ⟨c, s, hs, hstart, -⟩ := Naming.exists_of_isIdentifier hkey
    refine ⟨c, _, by rw [hs]; rfl, ?_⟩
    rintro rfl
    exact absurd hstart (by decide)
  · exact ⟨'\'', _, by rw [toList_quotedText]; rfl, by decide⟩

theorem literal_word_inj {v w : Json} (hv : isExact v = true) (hw : isExact w = true)
    (hvo : opening? v = none) (hwo : opening? w = none) (h : literal v = literal w) : v = w := by
  have hnull {i : Int} : toString i ≠ "null" := toString_int_ne (by decide)
  have hflag {i : Int} (b : Bool) : toString i ≠ literal (.bool b) :=
    toString_int_ne (by cases b <;> decide)
  cases v with
  | null =>
    cases w with
    | null => rfl
    | bool b => exact absurd h (by cases b <;> decide)
    | int i => exact absurd h.symm hnull
    | float x => exact nomatch hw
    | _ => exact nomatch hwo
  | bool b =>
    cases w with
    | null => exact absurd h (by cases b <;> decide)
    | bool d =>
      rcases b <;> rcases d
      · rfl
      · exact absurd h (by decide)
      · exact absurd h (by decide)
      · rfl
    | int i => exact absurd h.symm (hflag b)
    | float x => exact nomatch hw
    | _ => exact nomatch hwo
  | int i =>
    cases w with
    | null => exact absurd h hnull
    | bool b => exact absurd h (hflag b)
    | int j => exact congrArg Json.int (Int.repr_inj.mp h)
    | float x => exact nomatch hw
    | _ => exact nomatch hwo
  | float x => exact nomatch hv
  | _ => exact nomatch hvo

theorem decodes_fieldCode (key : String) {value : Json}
    (hvalue : Decodes literal (isExact · = true) value) :
    Decodes fieldCode (isExact ·.2 = true) (key, value) := by
  intro other hother r s hr hs h
  rw [toList_fieldCode, toList_fieldCode, List.append_assoc, List.append_assoc] at h
  obtain ⟨hkey, hback⟩ := literalKey_append_inj h
  obtain ⟨hsame, rfl⟩ := hvalue other.2 hother r s hr hs (List.cons.inj hback).2
  exact ⟨Prod.ext hkey hsame, rfl⟩

mutual

theorem decodes_literal (v : Json) (hv : isExact v = true) :
    Decodes literal (isExact · = true) v := by
  intro w hw r s hr hs h
  have ho := opening?_congr hv hw h
  cases v with
  | obj fields =>
    obtain ⟨others, rfl⟩ : ∃ others, w = .obj others := by
      cases w with
      | obj others => exact ⟨others, rfl⟩
      | _ => exact nomatch ho
    rw [toList_literal_obj, toList_literal_obj] at h
    simp only [List.cons_append, List.append_assoc, List.nil_append] at h
    obtain ⟨rfl, rfl⟩ := commaList_append_inj (by decide) (by decide) (decodes_fields fields hv)
      (areExactFields_iff.mp hw) (fun field _ => fieldCode_startsOtherwise field)
      (List.cons.inj h).2
    exact ⟨rfl, rfl⟩
  | arr items =>
    obtain ⟨others, rfl⟩ : ∃ others, w = .arr others := by
      cases w with
      | arr others => exact ⟨others, rfl⟩
      | _ => exact nomatch ho
    have hall : ∀ item ∈ items ++ others, isExact item = true := by
      intro item hitem
      rcases List.mem_append.mp hitem with hitem | hitem
      · exact areExact_iff.mp hv item hitem
      · exact areExact_iff.mp hw item hitem
    rw [toList_literal_arr, toList_literal_arr] at h
    simp only [List.cons_append, List.append_assoc, List.nil_append] at h
    obtain ⟨rfl, rfl⟩ := commaList_append_inj (by decide) (by decide) (decodes_items items hv)
      (areExact_iff.mp hw) (fun item hitem => literal_startsOtherwise (hall item hitem))
      (List.cons.inj h).2
    exact ⟨rfl, rfl⟩
  | str text =>
    obtain ⟨other, rfl⟩ : ∃ other, w = .str other := by
      cases w with
      | str other => exact ⟨other, rfl⟩
      | _ => exact nomatch ho
    obtain ⟨rfl, rfl⟩ := quotedText_append_inj h
    exact ⟨rfl, rfl⟩
  | _ =>
    have hwo := ho.symm
    obtain ⟨hvw, rfl⟩ := run_append_inj (word_of_opening? hv rfl).2 (word_of_opening? hw hwo).2
      hr hs h
    exact ⟨literal_word_inj hv hw rfl hwo (String.toList_inj.mp hvw), rfl⟩

theorem decodes_items (items : List Json) (h : areExact items = true) :
    ∀ item ∈ items, Decodes literal (isExact · = true) item := by
  match items with
  | [] => simp
  | first :: items =>
    obtain ⟨hfirst, hrest⟩ := (Bool.and_eq_true _ _).mp h
    exact List.forall_mem_cons.mpr ⟨decodes_literal first hfirst, decodes_items items hrest⟩

theorem decodes_fields (fields : List (String × Json)) (h : areExactFields fields = true) :
    ∀ field ∈ fields, Decodes fieldCode (isExact ·.2 = true) field := by
  match fields with
  | [] => simp
  | (key, value) :: fields =>
    obtain ⟨hvalue, hrest⟩ := (Bool.and_eq_true _ _).mp h
    exact List.forall_mem_cons.mpr
      ⟨decodes_fieldCode key (decodes_literal value hvalue), decodes_fields fields hrest⟩

end

/-- The literal of a value tells the value, by itself and in front of other code. -/
theorem literal_uniquely_decodable {v w : Json} (hv : isExact v = true) (hw : isExact w = true) :
    (literal v = literal w → v = w) ∧
      ∀ r s, EndsWord r → EndsWord s →
        (literal v).toList ++ r = (literal w).toList ++ s → v = w ∧ r = s := by
  have hdecodes := decodes_literal v hv w hw
  refine ⟨?_, hdecodes⟩
  intro h
  have hnil : EndsWord [] := fun c hc => nomatch hc
  exact (hdecodes [] [] hnil hnil (by rw [h])).1

/-- A text that looks like a closing quote and a second entry is not written like one, whatever
stands behind it. -/
theorem literal_ne_of_entry_in_text :
    isExact (.obj [("it's", .str "\\', x: 'y")]) = true ∧
      isExact (.obj [("it's", .str "\\"), ("x", .str "y")]) = true ∧
      literal (.obj [("it's", .str "\\"), ("x", .str "y")]) =
        "\x7b'it\\'s': '\\\\', x: 'y'\x7d" ∧
      ∀ r s, (literal (.obj [("it's", .str "\\', x: 'y")])).toList ++ ',' :: r ≠
        (literal (.obj [("it's", .str "\\"), ("x", .str "y")])).toList ++ ',' :: s := by
  refine ⟨rfl, rfl, by decide, ?_⟩
  intro r s h
  have hcomma (rest : List Char) : EndsWord (',' :: rest) := endsWord_cons (by decide)
  obtain ⟨hsame, -⟩ := (literal_uniquely_decodable rfl rfl).2 _ _ (hcomma r) (hcomma s) h
  simp at hsame

end RequestGen.Code
