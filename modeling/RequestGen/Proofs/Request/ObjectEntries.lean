import Mathlib.Data.List.Forall2
import RequestGen.Proofs.Code.Scanner
import RequestGen.Proofs.Code.UniqueLiterals
import RequestGen.Request.Function

/-! # Reading gathered names back

The inside of an object has an entry for each name that is gathered. `readObject` reads it as a
script does, in terms of the code units of texts. A name is put into quotes as it is, and an
identifier is told by a test that lets a line feed pass at the end. So the entries stand for the
gathered names exactly if no quoted name holds a quote, a backslash or a line end, and each name
that passes for an identifier is one and is no reserved word (`objectEntries_read_iff`). -/

namespace RequestGen

namespace Script

/-! ### Properties -/

/-- The value of a property: a variable, or a field of one. -/
inductive Value where
  | variable (name : String)
  | member (source : String) (field : List Nat)
deriving DecidableEq

/-- A property of an object literal. -/
structure Property where
  key : List Nat
  value : Value
deriving DecidableEq

/-- A variable or a field of one at the head of the tokens, and the rest. -/
def readValue : List Token → Option (Value × List Token)
  | .name source :: .mark '[' :: .text field :: .mark ']' :: s =>
    if source ∈ reservedWords then none else some (.member source field, s)
  | .name name :: s => if name ∈ reservedWords then none else some (.variable name, s)
  | _ => none

/-- A property at the head of the tokens, and the rest. A name without a value is a variable. -/
def readProperty : List Token → Option (Property × List Token)
  | .text key :: .mark ':' :: s => (readValue s).map fun r => ({ key, value := r.1 }, r.2)
  | .name key :: .mark ':' :: s =>
    (readValue s).map fun r => ({ key := units key.toList, value := r.1 }, r.2)
  | .name name :: s =>
    if name ∈ reservedWords then none
    else some ({ key := units name.toList, value := .variable name }, s)
  | _ => none

theorem length_lt_of_readValue {s rest : List Token} {value : Value}
    (h : readValue s = some (value, rest)) : rest.length < s.length := by
  unfold readValue at h
  split at h
  · split at h
    · exact nomatch h
    · obtain ⟨-, rfl⟩ := Prod.mk.inj (Option.some.inj h)
      simp only [List.length_cons]
      omega
  · split at h
    · exact nomatch h
    · obtain ⟨-, rfl⟩ := Prod.mk.inj (Option.some.inj h)
      exact Nat.lt_succ_self _
  · exact nomatch h

theorem length_lt_of_readProperty {s rest : List Token} {p : Property}
    (h : readProperty s = some (p, rest)) : rest.length < s.length := by
  have hvalue {key : List Nat} {s : List Token}
      (h : (readValue s).map (fun r => (Property.mk key r.1, r.2)) = some (p, rest)) :
      rest.length < s.length := by
    obtain ⟨⟨value, rest'⟩, hread, heq⟩ := Option.map_eq_some_iff.mp h
    obtain ⟨-, rfl⟩ := Prod.mk.inj heq
    exact length_lt_of_readValue hread
  unfold readProperty at h
  split at h
  · exact Nat.lt_add_right 2 (hvalue h)
  · exact Nat.lt_add_right 2 (hvalue h)
  · split at h
    · exact nomatch h
    · obtain ⟨-, rfl⟩ := Prod.mk.inj (Option.some.inj h)
      exact Nat.lt_succ_self _
  · exact nomatch h

/-- The properties inside of an object. A comma may stand behind the last. -/
def readProperties (s : List Token) : Option (List Property) :=
  if s = [] then some []
  else match _h : readProperty s with
    | some (p, []) => some [p]
    | some (p, .mark ',' :: rest) => (readProperties rest).map (p :: ·)
    | _ => none
termination_by s.length
decreasing_by
  have := length_lt_of_readProperty _h
  simp only [List.length_cons] at this
  omega

/-- The properties that the inside of an object stands for. -/
def readObject (code : String) : Option (List Property) :=
  (scan code.toList).bind readProperties

section

variable {s rest : List Token} {p : Property} {ps : List Property}

theorem readProperties_nil : readProperties [] = some [] := by
  rw [readProperties, if_pos rfl]

theorem ne_nil_of_readProperty (h : readProperty s = some (p, rest)) : s ≠ [] :=
  List.ne_nil_of_length_pos (Nat.zero_lt_of_lt (length_lt_of_readProperty h))

theorem readProperties_last (h : readProperty s = some (p, [])) : readProperties s = some [p] := by
  rw [readProperties, if_neg (ne_nil_of_readProperty h)]
  split <;> simp_all

theorem readProperties_comma (h : readProperty s = some (p, .mark ',' :: rest)) :
    readProperties s = (readProperties rest).map (p :: ·) := by
  rw [readProperties, if_neg (ne_nil_of_readProperty h)]
  split <;> simp_all

theorem key_of_readProperty {key : List Nat} (h : readProperty (.text key :: s) = some (p, rest)) :
    p.key = key := by
  unfold readProperty at h
  split at h
  · next heq =>
    obtain rfl := Token.text.inj (List.cons.inj heq).1
    obtain ⟨r, -, heq⟩ := Option.map_eq_some_iff.mp h
    obtain ⟨rfl, -⟩ := Prod.mk.inj heq
    rfl
  · next heq => exact nomatch heq
  · next heq => exact nomatch heq
  · exact nomatch h

theorem exists_readProperty (h : readProperties s = some (p :: ps)) :
    ∃ rest, readProperty s = some (p, rest) := by
  rw [readProperties] at h
  split at h
  · exact nomatch h
  split at h
  · next hread =>
    obtain ⟨rfl, -⟩ := List.cons.inj (Option.some.inj h)
    exact ⟨_, hread⟩
  · next hread =>
    obtain ⟨ps', -, heq⟩ := Option.map_eq_some_iff.mp h
    obtain ⟨rfl, -⟩ := List.cons.inj heq
    exact ⟨_, hread⟩
  · exact nomatch h

end

end Script

/-! ### Entries -/

open Script

/-- A property that gathers the field of that name of the source: under the name of the field, and
with its value or that of the variable of that name. -/
structure Gathers (source name : String) (p : Property) : Prop where
  key : p.key = units name.toList
  value : p.value = .member source (units name.toList) ∨
    Naming.isIdentifierText name.toList = true ∧ p.value = .variable name

/-- Whether the entry of a name stands for it: the name is written as an identifier that it is, or
in quotes that hold it as it is. -/
def IsReadBack (name : String) : Prop :=
  if Naming.isIdentifier name then
    Naming.isIdentifierText name.toList = true ∧ name ∉ reservedWords
  else name.toList.all isPlainChar = true

instance (name : String) : Decidable (IsReadBack name) := by
  unfold IsReadBack
  infer_instance

/-- The property that an entry stands for. -/
def gatheredProperty (source name : String) : Property where
  key := units name.toList
  value :=
    if Naming.isIdentifier name then .variable name else .member source (units name.toList)

/-- The tokens of an entry. -/
def entryTokens (source name : String) : List Token :=
  if Naming.isIdentifier name then [.name name]
  else
    let text := .text (units name.toList)
    [text, .mark ':', .name source, .mark '[', text, .mark ']']

theorem isPlainChar_of_isNamePart {c : Char} (h : Naming.isNamePart c = true) :
    isPlainChar c = true := by
  simp only [isPlainChar, Code.isLineEnd, Bool.and_eq_true, bne_iff_ne, Bool.not_eq_true',
    Bool.or_eq_false_iff, decide_eq_false_iff_not]
  refine ⟨⟨?_, ?_⟩, ?_, ?_⟩ <;> rintro rfl <;> exact absurd h (by decide)

theorem binding_eq_of_units {name : String} (h : Naming.isIdentifier name = true)
    (hunits : units (Naming.binding name).toList = units name.toList) :
    Naming.binding name = name := by
  obtain ⟨-, lineEnd, hsplit, rfl | rfl⟩ := Naming.toList_eq_binding_append h
  · exact String.toList_injective (by rw [hsplit, List.append_nil])
  · rw [hsplit, units_append] at hunits
    exact absurd (List.self_eq_append_right.mp hunits) (by decide)

section Entry

variable {source name : String} {tail : List Char}

theorem gathers_gatheredProperty (h : IsReadBack name) :
    Gathers source name (gatheredProperty source name) := by
  refine ⟨rfl, ?_⟩
  rw [gatheredProperty, IsReadBack] at *
  split
  · next hname =>
    rw [if_pos hname] at h
    exact .inr ⟨h.1, rfl⟩
  · exact .inl rfl

theorem toList_objectEntry_append (h : Naming.isIdentifier name = false) (tail : List Char) :
    (objectEntry source name).toList ++ tail = '\'' :: (name.toList ++ '\'' ::
      (':' :: ' ' :: (source.toList ++ '[' :: '\'' :: (name.toList ++ '\'' :: ']' :: tail)))) := by
  have hentry : objectEntry source name =
      "'" ++ name ++ "': " ++ source ++ "['" ++ name ++ "']" := by
    rw [objectEntry, h]
    rfl
  rw [hentry]
  simp [String.toList_append]

variable (hsource : Naming.isIdentifierText source.toList = true)
  (hreserved : source ∉ reservedWords)

include hsource in
theorem getLast?_ne_of_readString {w : List Nat} {rest : List Char}
    (h : readString (':' :: ' ' :: (source.toList ++ '[' :: '\'' :: tail)) = some (w, rest)) :
    w.getLast? ≠ some 92 := by
  let between := [':', ' '] ++ source.toList ++ ['[']
  have hbetween : between.all isPlainChar = true := by
    have hplain : source.toList.all isPlainChar = true := List.all_eq_true.mpr fun c hc =>
      isPlainChar_of_isNamePart (Naming.isNamePart_of_mem hsource hc)
    rw [List.all_append, List.all_append, hplain]
    decide
  have hread : readString (':' :: ' ' :: (source.toList ++ '[' :: '\'' :: tail)) =
      some (units between, tail) := by
    rw [← readString_append hbetween tail]
    simp [between]
  obtain ⟨rfl, -⟩ := Prod.mk.inj (Option.some.inj (hread.symm.trans h))
  have hbracket : (units ['[']).getLast? = some 91 := by decide
  rw [units_append, List.getLast?_append, hbracket, Option.some_or]
  decide

include hsource in
theorem scan_objectEntry (h : IsReadBack name)
    (htail : ∀ c ∈ tail.head?, Naming.isNamePart c = false) :
    scan ((objectEntry source name).toList ++ tail) =
      (scan tail).map (entryTokens source name ++ ·) := by
  rw [IsReadBack] at h
  rw [entryTokens]
  cases hname : Naming.isIdentifier name with
  | true =>
    rw [if_pos hname] at h
    rw [objectEntry, if_pos hname, if_pos rfl, scan_identifier hname htail,
      Naming.binding_eq_self h.1]
    rfl
  | false =>
    rw [if_neg (by rw [hname]; exact Bool.false_ne_true)] at h
    rw [toList_objectEntry_append hname, scan_text h, scan_mark rfl, scan_blank rfl,
      scan_name hsource (by simp; decide), scan_mark rfl, scan_text h, scan_mark rfl]
    cases scan tail <;> simp [String.ofList_toList]

include hreserved in
theorem readProperty_entryTokens (h : IsReadBack name) {s : List Token}
    (hs : s = [] ∨ ∃ rest, s = .mark ',' :: rest) :
    readProperty (entryTokens source name ++ s) = some (gatheredProperty source name, s) := by
  rw [IsReadBack] at h
  rw [entryTokens, gatheredProperty]
  cases hname : Naming.isIdentifier name with
  | true =>
    rw [if_pos hname] at h
    rcases hs with rfl | ⟨rest, rfl⟩ <;> simp [readProperty, h.2]
  | false => simp [readProperty, readValue, hreserved]

end Entry

/-! ### Objects -/

section Object

variable {source name : String} {names : List String}

theorem toList_objectEntries_cons (source name : String) (names : List String) :
    (objectEntries (name :: names) source).toList = (objectEntry source name).toList ++
      if names = [] then [] else ',' :: ' ' :: (objectEntries names source).toList := by
  have hentries := Text.commaList_cons_append (objectEntry source name)
    (names.map (objectEntry source)) []
  simp only [List.append_nil, List.map_eq_nil_iff] at hentries
  exact hentries

theorem readObject_nil : readObject (objectEntries [] source) = some [] := by
  show (scan []).bind readProperties = some []
  rw [scan]
  exact readProperties_nil

variable (hsource : Naming.isIdentifierText source.toList = true)
  (hreserved : source ∉ reservedWords)

include hsource hreserved

/-- An entry that is read back comes first, whatever follows. -/
theorem readObject_cons (h : IsReadBack name) (names : List String) :
    readObject (objectEntries (name :: names) source) =
      (readObject (objectEntries names source)).map (gatheredProperty source name :: ·) := by
  rw [readObject, toList_objectEntries_cons]
  by_cases hnil : names = []
  · subst hnil
    rw [if_pos rfl, scan_objectEntry hsource h (by simp), readObject_nil, scan]
    exact readProperties_last (readProperty_entryTokens hreserved h (.inl rfl))
  · rw [if_neg hnil, scan_objectEntry hsource h (by simp; decide), scan_mark rfl, scan_blank rfl,
      readObject]
    cases scan (objectEntries names source).toList with
    | none => rfl
    | some s =>
      exact readProperties_comma (readProperty_entryTokens hreserved h (.inr ⟨s, rfl⟩))

omit hreserved in
/-- The first property that is read gathers the first name only if its entry is read back. -/
theorem isReadBack_of_gathers {p : Property} {ps : List Property}
    (hread : readObject (objectEntries (name :: names) source) = some (p :: ps))
    (hp : Gathers source name p) : IsReadBack name := by
  rw [readObject, toList_objectEntries_cons] at hread
  obtain ⟨s, hscan, hproperties⟩ := Option.bind_eq_some_iff.mp hread
  obtain ⟨rest, hproperty⟩ := exists_readProperty hproperties
  rw [IsReadBack]
  cases hname : Naming.isIdentifier name with
  | true =>
    rw [if_pos rfl]
    rw [objectEntry, if_pos hname, scan_identifier hname (by split <;> simp; decide)] at hscan
    obtain ⟨after, hafter, rfl⟩ := Option.map_eq_some_iff.mp hscan
    have hcomma : after = [] ∨ ∃ rest, after = .mark ',' :: rest := by
      split at hafter
      · rw [scan] at hafter
        exact .inl (Option.some.inj hafter).symm
      · rw [scan_mark rfl] at hafter
        obtain ⟨rest, -, rfl⟩ := Option.map_eq_some_iff.mp hafter
        exact .inr ⟨rest, rfl⟩
    -- what is read is the variable that the identifier before a line feed names
    obtain ⟨hword, rfl, -⟩ : Naming.binding name ∉ reservedWords ∧
        Property.mk (units (Naming.binding name).toList) (.variable (Naming.binding name)) = p ∧
          after = rest := by
      rcases hcomma with rfl | ⟨rest', rfl⟩ <;> simpa [readProperty] using hproperty
    have hbinding := binding_eq_of_units hname hp.key
    exact ⟨Naming.isIdentifierText_iff.mpr ⟨hname, hbinding⟩, hbinding ▸ hword⟩
  | false =>
    rw [if_neg Bool.false_ne_true]
    rw [toList_objectEntry_append hname, scan_quote] at hscan
    obtain ⟨⟨v, rest'⟩, hstring, hafter⟩ := Option.bind_eq_some_iff.mp hscan
    obtain ⟨after, -, rfl⟩ := Option.map_eq_some_iff.mp hafter
    have hkey : p.key = v := key_of_readProperty hproperty
    rw [← hkey, hp.key] at hstring
    -- the key is all that was written, so nothing in it is special
    refine (isPlain_of_readString ?_ hstring).1
    intro w rest hw
    exact getLast?_ne_of_readString hsource hw

/-- What is read of the entries gathers the names, one by one and in order, exactly if each name is
read back. -/
theorem objectEntries_read_iff :
    (∃ ps, readObject (objectEntries names source) = some ps ∧
      List.Forall₂ (Gathers source) names ps) ↔ ∀ name ∈ names, IsReadBack name := by
  induction names with
  | nil => exact iff_of_true ⟨[], readObject_nil, .nil⟩ (by simp)
  | cons name names ih =>
    rw [List.forall_mem_cons, ← ih]
    constructor
    · rintro ⟨ps, hread, hps⟩
      cases hps with
      | @cons _ p _ ps hp hps =>
        have hname := isReadBack_of_gathers hsource hread hp
        rw [readObject_cons hsource hreserved hname] at hread
        obtain ⟨ps', hrest, heq⟩ := Option.map_eq_some_iff.mp hread
        obtain ⟨-, rfl⟩ := List.cons.inj heq
        exact ⟨hname, ps', hrest, hps⟩
    · rintro ⟨hname, ps, hread, hps⟩
      refine ⟨gatheredProperty source name :: ps, ?_, .cons (gathers_gatheredProperty hname) hps⟩
      rw [readObject_cons hsource hreserved hname, hread]
      rfl

end Object

/-- An identifier and another name are both read back; a name with a quote in it is not. -/
theorem objectEntries_read_request :
    Naming.isIdentifierText "request".toList = true ∧ "request" ∉ reservedWords ∧
      (∃ ps, readObject (objectEntries ["limit", "page-size"] "request") = some ps ∧
        List.Forall₂ (Gathers "request") ["limit", "page-size"] ps) ∧
      ¬ ∃ ps, readObject (objectEntries ["it's"] "request") = some ps ∧
        List.Forall₂ (Gathers "request") ["it's"] ps := by
  have hsource : Naming.isIdentifierText "request".toList = true := by decide
  have hreserved : "request" ∉ reservedWords := by decide
  refine ⟨hsource, hreserved, (objectEntries_read_iff hsource hreserved).mpr (by decide), ?_⟩
  rw [objectEntries_read_iff hsource hreserved]
  decide

end RequestGen
