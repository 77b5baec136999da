import RequestGen.Code.Literal

/-! # Reading quoted texts

`readQuoted` reads what stands between single quotes: a backslash takes a quote or another backslash
with it, and a line end is not allowed. A written text is read back exactly if it holds no line end,
which are written as they are (`readText_quotedText`, `readKey_literalKey`). -/

namespace RequestGen.Code

/-- A character that no text in single quotes may hold. -/
def isLineEnd (c : Char) : Bool := c = '\n' || c = '\r'

/-- The text up to a closing quote at the end. The escapes of a quote and of a backslash are read,
others are not. -/
def readQuoted : List Char → Option (List Char)
  | [] => none
  | ['\''] => some []
  | '\\' :: c :: s => if c = '\\' || c = '\'' then (readQuoted s).map (c :: ·) else none
  | c :: s => if c = '\\' || c = '\'' || isLineEnd c then none else (readQuoted s).map (c :: ·)

/-- The text that a code in single quotes stands for. -/
def readText (code : String) : Option String :=
  match code.toList with
  | '\'' :: s => (readQuoted s).map String.ofList
  | _ => none

/-- The name that the code of a key stands for. A blank behind a bare name is no part of it. -/
def readKey (code : String) : Option String :=
  if code.toList.head? = some '\'' then readText code
  else some (String.ofList (code.toList.takeWhile Naming.isNamePart))

theorem readQuoted_flatMap_quotedChar (s : List Char) :
    readQuoted (s.flatMap quotedChar ++ ['\'']) = if s.any isLineEnd then none else some s := by
  induction s with
  | nil => rfl
  | cons c s ih =>
    rw [List.flatMap_cons, List.any_cons, quotedChar]
    split
    · next h =>
      have hread : readQuoted ('\\' :: c :: (s.flatMap quotedChar ++ ['\''])) =
          (readQuoted (s.flatMap quotedChar ++ ['\''])).map (c :: ·) := by
        rw [readQuoted]
        simp [h]
      have hend : isLineEnd c = false := by rcases h with rfl | rfl <;> rfl
      simp only [List.cons_append, List.nil_append, hread, ih, hend, Bool.false_or]
      split <;> rfl
    · next h =>
      rw [not_or] at h
      have hread : readQuoted (c :: (s.flatMap quotedChar ++ ['\''])) =
          if isLineEnd c then none
          else (readQuoted (s.flatMap quotedChar ++ ['\''])).map (c :: ·) := by
        rw [readQuoted.eq_def]
        split <;> simp_all
      rw [List.append_assoc, List.singleton_append, hread, ih]
      cases isLineEnd c with
      | true => rfl
      | false => simp only [Bool.false_or, Bool.false_eq_true, if_false]; split <;> rfl

theorem toList_quotedText (s : String) :
    (quotedText s).toList = '\'' :: (s.toList.flatMap quotedChar ++ ['\'']) :=
  String.toList_ofList

/-- A written text is read back if it holds no line end, and is no text otherwise. -/
theorem readText_quotedText (s : String) :
    readText (quotedText s) = if s.toList.any isLineEnd then none else some s := by
  rw [readText, toList_quotedText]
  simp only [readQuoted_flatMap_quotedChar]
  split
  · rfl
  · rw [Option.map_some, String.ofList_toList]

theorem head?_of_isIdentifier {key : String} (h : Naming.isIdentifier key = true) :
    key.toList.head? ≠ some '\'' := by
  obtain ⟨c, s, hs, hstart, -⟩ := Naming.exists_of_isIdentifier h
  rw [hs]
  intro hhead
  obtain rfl := Option.some.inj hhead
  exact absurd hstart (by decide)

/-- The name of the property that a key stands for where it is written. -/
def propertyName (key : String) : String :=
  if Naming.isIdentifier key then String.ofList (key.toList.takeWhile Naming.isNamePart) else key

/-- A written key is read unless it is quoted and holds a line end. -/
theorem readKey_literalKey (key : String) : readKey (literalKey key) =
    if Naming.isIdentifier key || !key.toList.any isLineEnd then some (propertyName key)
    else none := by
  rw [literalKey, propertyName]
  cases hkey : Naming.isIdentifier key with
  | true =>
    rw [if_pos rfl, if_pos rfl, readKey, if_neg (head?_of_isIdentifier hkey)]
    rfl
  | false =>
    have hhead : (quotedText key).toList.head? = some '\'' := by
      rw [toList_quotedText]
      rfl
    rw [if_neg Bool.false_ne_true, if_neg Bool.false_ne_true, Bool.false_or, readKey,
      if_pos hhead, readText_quotedText]
    cases key.toList.any isLineEnd <;> rfl

theorem readKey_literalKey_isSome (key : String) :
    (readKey (literalKey key)).isSome =
      (Naming.isIdentifier key || !key.toList.any isLineEnd) := by
  rw [readKey_literalKey]
  cases Naming.isIdentifier key || !key.toList.any isLineEnd <;> rfl

end RequestGen.Code
