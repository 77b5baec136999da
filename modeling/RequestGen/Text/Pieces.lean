/-! # Cutting, joining and replacing

`splitOn` cuts a text at each separator and `join` undoes it; `replace` exchanges every occurrence
of a text, found from left to right without overlap. -/

namespace RequestGen.Text

/-- The pieces between the separators: one more than there are separators. -/
def splitOn (sep : Char) : List Char → List (List Char)
  | [] => [[]]
  | c :: s =>
    if c = sep then [] :: splitOn sep s
    else
      match splitOn sep s with
      | [] => [[c]]
      | piece :: pieces => (c :: piece) :: pieces

/-- The pieces with the separator between them. -/
def join (sep : List Char) : List (List Char) → List Char
  | [] => []
  | [piece] => piece
  | piece :: pieces => piece ++ sep ++ join sep pieces

theorem splitOn_ne_nil (sep : Char) (s : List Char) : splitOn sep s ≠ [] := by
  induction s with
  | nil => simp [splitOn]
  | cons c s _ =>
    by_cases h : c = sep
    · simp [splitOn, h]
    · simp only [splitOn, h, if_false]
      split <;> simp

theorem splitOn_append_cons (sep : Char) (s t : List Char) :
    splitOn sep (s ++ sep :: t) = splitOn sep s ++ splitOn sep t := by
  induction s with
  | nil => simp [splitOn]
  | cons c s ih =>
    by_cases h : c = sep
    · simp [splitOn, h, ih]
    · rw [List.cons_append, splitOn, if_neg h, ih, splitOn, if_neg h]
      cases hs : splitOn sep s with
      | nil => exact absurd hs (splitOn_ne_nil sep s)
      | cons piece pieces => rfl

theorem splitOn_eq_singleton {sep : Char} {s : List Char} (h : sep ∉ s) : splitOn sep s = [s] := by
  induction s with
  | nil => rfl
  | cons c s ih =>
    obtain ⟨hc, hs⟩ := not_or.mp (mt List.mem_cons.mpr h)
    rw [splitOn, if_neg (Ne.symm hc), ih hs]

/-- `replace`, after `skip` characters that belong to the last occurrence. -/
def replaceFrom (old new : List Char) (skip : Nat) : List Char → List Char
  | [] => []
  | c :: s =>
    match skip with
    | skip + 1 => replaceFrom old new skip s
    | 0 =>
      if old.isPrefixOf (c :: s) then new ++ replaceFrom old new (old.length - 1) s
      else c :: replaceFrom old new 0 s

/-- The text with every occurrence of `old` exchanged for `new`. The empty text occurs nowhere. -/
def replace (old new s : List Char) : List Char :=
  if old.isEmpty then s else replaceFrom old new 0 s

/-- `replace` on strings. -/
def replaceText (old new s : String) : String :=
  String.ofList (replace old.toList new.toList s.toList)

/-- Whether `part` occurs in the text. -/
def occursIn (part : List Char) : List Char → Bool
  | [] => part.isEmpty
  | c :: s => part.isPrefixOf (c :: s) || occursIn part s

/-- The texts with a comma and a blank between them. -/
def commaList (texts : List String) : String :=
  String.intercalate ", " texts

theorem commaList_singleton (text : String) : commaList [text] = text :=
  String.intercalate_singleton

theorem commaList_cons_cons (text next : String) (texts : List String) :
    commaList (text :: next :: texts) = text ++ ", " ++ commaList (next :: texts) :=
  String.intercalate_cons_cons

theorem commaList_cons_append (text : String) (texts : List String) (rest : List Char) :
    (commaList (text :: texts)).toList ++ rest =
      text.toList ++ (if texts = [] then rest
        else ',' :: ' ' :: ((commaList texts).toList ++ rest)) := by
  cases texts with
  | nil => rw [if_pos rfl, commaList_singleton]
  | cons next texts =>
    rw [if_neg (List.cons_ne_nil _ _), commaList_cons_cons, String.toList_append,
      String.toList_append, List.append_assoc, List.append_assoc]
    rfl

theorem commaList_cons_ne_empty {text : String} (h : text ≠ "") (texts : List String) :
    commaList (text :: texts) ≠ "" := by
  cases texts with
  | nil =>
    rw [commaList_singleton]
    exact h
  | cons next texts =>
    rw [commaList_cons_cons]
    intro hempty
    have hfront := (String.append_eq_empty_iff.mp hempty).1
    exact h (String.append_eq_empty_iff.mp hfront).1

/-- The texts that are not empty, as a comma list. -/
def commaListOfNonempty (texts : List String) : String :=
  commaList (texts.filter (· ≠ ""))

/-- The texts as lines, without a line end after the last. -/
def lines (texts : List String) : String :=
  String.intercalate "\n" texts

end RequestGen.Text
