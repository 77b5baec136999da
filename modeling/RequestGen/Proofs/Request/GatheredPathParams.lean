import RequestGen.Proofs.Code.FunctionReferences
import RequestGen.Proofs.Text.Pieces
import RequestGen.Request.ParameterNames

/-! # The names of gathered path parameters

The argument that gathers the path parameters names them twice: in the list of those that it takes
out, and as the keys of its type, which is written with a member to a line. The names of a list are
read back, and where there is no list the keys of the type are (`namedPathParamNames_reads`). A key
stands behind a line feed and blanks and before a colon. So nothing in the text of a type is taken
for a key, whatever colons and braces it has, as long as it stays on its line. -/

namespace RequestGen

open Naming (isIdentifierText isNamePart memberKeys endsKey)

/-! ### Lists of names -/

/-- What stands between and around the names of a list. -/
def isListMark (c : Char) : Bool := Text.isBlank c || c ∈ [',', '\x7b', '\x7d']

/-- A name that can be listed. -/
def isListable (name : String) : Bool := name ≠ "" && name.toList.all fun c => !isListMark c

/-- The names as the list of those that an argument takes out. -/
def destructuringText (names : List String) : String := "\x7b " ++ Text.commaList names ++ " \x7d"

section Lists

variable {name : String} {names : List String}

theorem notMem_of_isListable (h : isListable name = true) {c : Char} (hc : isListMark c = true) :
    c ∉ name.toList := by
  intro hmem
  have hother := List.all_eq_true.mp ((Bool.and_eq_true _ _).mp h).2 c hmem
  rw [hc] at hother
  exact absurd hother (by decide)

theorem isListMark_of_isNamePart {c : Char} (h : isNamePart c = true) : isListMark c = false := by
  have hchar : Text.isNameChar c = true := by
    simp only [isNamePart, Bool.or_eq_true, beq_iff_eq] at h
    rcases h with (h | rfl) | rfl
    · exact Naming.isNameChar_of_isAlphanum h
    · decide
    · decide
  have hblank : Text.isBlank c = false := by
    refine Bool.eq_false_iff.mpr fun hblank => ?_
    rw [Text.isNameChar_of_isBlank hblank] at hchar
    exact absurd hchar Bool.false_ne_true
  have hother : c ∉ [',', '\x7b', '\x7d'] := by
    intro hc
    simp only [List.mem_cons, List.not_mem_nil, or_false] at hc
    rcases hc with rfl | rfl | rfl <;> exact absurd h (by decide)
  rw [isListMark, hblank, Bool.false_or, decide_eq_false hother]

theorem isListable_of_isIdentifierText (h : isIdentifierText name.toList = true) :
    isListable name = true := by
  have hne : name ≠ "" := by
    rintro rfl
    exact absurd h Bool.false_ne_true
  have hother : ∀ c ∈ name.toList, (!isListMark c) = true := by
    intro c hc
    rw [isListMark_of_isNamePart (Naming.isNamePart_of_mem h hc)]
    rfl
  rw [isListable, List.all_eq_true.mpr hother, Bool.and_true]
  exact decide_eq_true hne

theorem strip_of_isListable (h : isListable name = true) {back : List Char}
    (hback : ∀ c ∈ back, Text.isBlank c = true) :
    Text.strip (' ' :: (name.toList ++ back)) = name.toList := by
  have hfront : ∀ c ∈ [' '], Text.isBlank c = true := List.forall_mem_singleton.mpr rfl
  have hname : ∀ c ∈ name.toList, Text.isBlank c = false := by
    intro c hc
    refine Bool.eq_false_iff.mpr fun hblank => ?_
    exact notMem_of_isListable h (by rw [isListMark, hblank, Bool.true_or]) hc
  exact Text.trim_append hfront hname hback

theorem map_strip_splitOn_commaList (hne : names ≠ [])
    (h : ∀ name ∈ names, isListable name = true) :
    (Text.splitOn ',' (' ' :: ((Text.commaList names).toList ++ [' ']))).map Text.strip =
      names.map String.toList := by
  induction names with
  | nil => exact absurd rfl hne
  | cons name names ih =>
    obtain ⟨hname, hnames⟩ := List.forall_mem_cons.mp h
    have hcomma : ',' ∉ name.toList := notMem_of_isListable hname (by decide)
    have hpiece {back : List Char} (hback : ∀ c ∈ back, Text.isBlank c = true) :
        (Text.splitOn ',' (' ' :: (name.toList ++ back))).map Text.strip = [name.toList] := by
      have hnone : ',' ∉ ' ' :: (name.toList ++ back) := by
        have hend : ',' ∉ back := fun hc => absurd (hback ',' hc) (by decide)
        simp [hcomma, hend]
      rw [Text.splitOn_eq_singleton hnone, List.map_singleton, strip_of_isListable hname hback]
    rw [Text.commaList_cons_append]
    by_cases hlast : names = []
    · subst hlast
      rw [if_pos rfl, hpiece (List.forall_mem_singleton.mpr rfl)]
      rfl
    · rw [if_neg hlast, ← List.cons_append, Text.splitOn_append_cons, List.map_append,
        ih hlast hnames, ← List.append_nil name.toList, hpiece (by simp)]
      rfl

theorem filter_destructuringText (h : ∀ name ∈ names, isListable name = true) :
    (destructuringText names).toList.filter (fun c => c ≠ '\x7b' ∧ c ≠ '\x7d') =
      ' ' :: ((Text.commaList names).toList ++ [' ']) := by
  have hkept : ∀ c ∈ (Text.commaList names).toList,
      decide (c ≠ '\x7b' ∧ c ≠ '\x7d') = true := by
    intro c hc
    rcases Text.mem_commaList hc with ⟨name, hname, hc⟩ | rfl | rfl
    · have hnone := @notMem_of_isListable name (h name hname)
      refine decide_eq_true ⟨?_, ?_⟩
      · rintro rfl
        exact hnone (by decide) hc
      · rintro rfl
        exact hnone (by decide) hc
    · decide
    · decide
  have htext : (destructuringText names).toList =
      '\x7b' :: ' ' :: ((Text.commaList names).toList ++ [' ', '\x7d']) := by
    simp [destructuringText]
  rw [htext, List.filter_cons_of_neg (by decide), List.filter_cons_of_pos (by decide),
    List.filter_append, List.filter_eq_self.mpr hkept]
  rfl

theorem destructuredNames_destructuringText (hne : names ≠ [])
    (h : ∀ name ∈ names, isListable name = true) :
    destructuredNames (destructuringText names) = names := by
  have hnames : (names.map String.toList).filter (!·.isEmpty) = names.map String.toList := by
    refine List.filter_eq_self.mpr fun chars hchars => ?_
    obtain ⟨name, hname, rfl⟩ := List.mem_map.mp hchars
    have hempty : name ≠ "" := of_decide_eq_true ((Bool.and_eq_true _ _).mp (h name hname)).1
    simpa using hempty
  simp only [destructuredNames, filter_destructuringText h, map_strip_splitOn_commaList hne h,
    hnames, List.map_map]
  simp [Function.comp_def]

/-- A text of nothing but marks lists no name. -/
theorem destructuredNames_eq_nil {text : String} (h : ∀ c ∈ text.toList, isListMark c = true) :
    destructuredNames text = [] := by
  rw [destructuredNames, List.map_eq_nil_iff, List.filter_eq_nil_iff]
  intro piece hpiece
  obtain ⟨chars, hchars, rfl⟩ := List.mem_map.mp hpiece
  have hblank : ∀ c ∈ chars, Text.isBlank c = true := by
    intro c hc
    obtain ⟨hmem, hcomma⟩ := Text.mem_of_mem_splitOn hchars c hc
    obtain ⟨htext, hbrace⟩ := List.mem_filter.mp hmem
    have hmark := h c htext
    simpa [isListMark, hcomma, of_decide_eq_true hbrace] using hmark
  rw [Text.strip, Text.trim_eq_nil hblank]
  decide

end Lists

/-! ### Keys of a type -/

namespace Naming

variable {s key rest : List Char}

theorem memberKeys_lineFeed (fresh : Bool) (s : List Char) :
    memberKeys fresh ('\n' :: s) = memberKeys true s := by
  have hstart : isNameStart '\n' = false := by decide
  rw [memberKeys, hstart, Bool.and_false, if_neg Bool.false_ne_true, beq_self_eq_true, Bool.true_or]

theorem memberKeys_space (s : List Char) : memberKeys true (' ' :: s) = memberKeys true s := rfl

theorem memberKeys_append (h : '\n' ∉ s) (rest : List Char) :
    memberKeys false (s ++ rest) = memberKeys false rest := by
  induction s with
  | nil => rfl
  | cons c s ih =>
    obtain ⟨hc, hs⟩ := not_or.mp (mt List.mem_cons.mpr h)
    have hline : (c == '\n') = false := by simpa using Ne.symm hc
    rw [List.cons_append, memberKeys, Bool.false_and, if_neg Bool.false_ne_true, hline,
      Bool.false_and, Bool.or_self, ih hs]

theorem isNamePart_head?_of_endsKey (h : endsKey rest = true) :
    ∀ c ∈ rest.head?, isNamePart c = false := by
  intro c hc
  obtain ⟨t, rfl⟩ := List.head?_eq_some_iff.mp hc
  unfold endsKey at h
  split at h
  · next heq =>
    obtain ⟨rfl, -⟩ := List.cons.inj heq
    rfl
  · next heq =>
    obtain ⟨rfl, -⟩ := List.cons.inj heq
    rfl
  · exact absurd h Bool.false_ne_true

theorem memberKeys_key (hkey : isIdentifierText key = true) (hrest : endsKey rest = true) :
    memberKeys true (key ++ rest) = key :: memberKeys false rest := by
  cases key with
  | nil => exact absurd hkey Bool.false_ne_true
  | cons c tail =>
    obtain ⟨hstart, hparts⟩ := (Bool.and_eq_true _ _).mp hkey
    have hparts := List.all_eq_true.mp hparts
    have hline : '\n' ∉ tail := fun hc => absurd (hparts '\n' hc) (by decide)
    obtain ⟨htake, hdrop⟩ := takeWhile_of_head? (isNamePart_head?_of_endsKey hrest)
    rw [List.cons_append, memberKeys, hstart, Bool.and_self, if_pos rfl,
      List.dropWhile_append_of_pos hparts, hdrop, if_pos hrest, List.takeWhile_append_of_pos hparts,
      htake, List.append_nil, memberKeys_append hline]

end Naming

/-- A field of an object type that stands on one line. -/
structure TypeMember where
  key : String
  isOptional : Bool
  type : String
  isIdentifierText_key : isIdentifierText key.toList = true
  lineFeed_notMem_type : '\n' ∉ type.toList

namespace TypeMember

variable (m : TypeMember)

/-- What stands on the line behind the key. -/
def afterKey : String := (if m.isOptional then "?" else "") ++ ": " ++ m.type ++ ";"

def line : String := "  " ++ m.key ++ m.afterKey

theorem endsKey_afterKey (rest : List Char) : endsKey (m.afterKey.toList ++ rest) = true := by
  cases h : m.isOptional <;> simp [afterKey, h, endsKey]

theorem lineFeed_notMem_afterKey : '\n' ∉ m.afterKey.toList := by
  have hmark : '\n' ∉ (if m.isOptional then "?" else "").toList := by split <;> decide
  simp [afterKey, hmark, m.lineFeed_notMem_type]

theorem memberKeys_line (rest : List Char) :
    memberKeys true (m.line.toList ++ '\n' :: rest) = m.key.toList :: memberKeys true rest := by
  have hline : m.line.toList = ' ' :: ' ' :: (m.key.toList ++ m.afterKey.toList) := by simp [line]
  rw [hline, List.cons_append, List.cons_append, Naming.memberKeys_space, Naming.memberKeys_space,
    List.append_assoc, Naming.memberKeys_key m.isIdentifierText_key (m.endsKey_afterKey _),
    Naming.memberKeys_append m.lineFeed_notMem_afterKey, Naming.memberKeys_lineFeed]

end TypeMember

/-- The declaration of an object type, with a member to a line. -/
def typeText (name : String) (members : List TypeMember) : String :=
  Text.lines (("export type " ++ name ++ " = \x7b") :: (members.map TypeMember.line ++ ["\x7d;"]))

theorem memberKeys_lines (members : List TypeMember) :
    memberKeys true (Text.lines (members.map TypeMember.line ++ ["\x7d;"])).toList =
      members.map (·.key.toList) := by
  induction members with
  | nil => decide
  | cons m members ih =>
    have hlines : members.map TypeMember.line ++ ["\x7d;"] ≠ [] := by simp
    rw [List.map_cons, List.cons_append, Text.toList_lines_cons _ hlines, m.memberKeys_line, ih,
      List.map_cons]

theorem memberKeys_typeText {name : String} (hname : '\n' ∉ name.toList)
    (members : List TypeMember) :
    memberKeys false (typeText name members).toList = members.map (·.key.toList) := by
  have hopening : '\n' ∉ ("export type " ++ name ++ " = \x7b").toList := by simp [hname]
  have hlines : members.map TypeMember.line ++ ["\x7d;"] ≠ [] := by simp
  rw [typeText, Text.toList_lines_cons _ hlines, Naming.memberKeys_append hopening,
    Naming.memberKeys_lineFeed, memberKeys_lines]

/-! ### Arguments -/

/-- The argument that gathers the path parameters names those that its list takes out, whatever its
type is. Without a list it names the keys of its type. -/
theorem namedPathParamNames_reads (a : Argument) :
    (∀ names, names ≠ [] → (∀ name ∈ names, isListable name = true) →
      a.destructured = destructuringText names → namedPathParamNames (some a) = names) ∧
    ∀ type name members, (∀ c ∈ a.destructured.toList, isListMark c = true) →
      a.schema = some type → type.model = typeText name members → '\n' ∉ name.toList →
      namedPathParamNames (some a) = members.map (·.key) := by
  constructor
  · intro names hne hnames hlist
    have hread := destructuredNames_destructuringText hne hnames
    obtain ⟨name, others, rfl⟩ := List.exists_cons_of_ne_nil hne
    simp only [namedPathParamNames, hlist, hread]
  · intro type name members hnone hschema hmodel hname
    simp only [namedPathParamNames, destructuredNames_eq_nil hnone, hschema, hmodel,
      memberKeys_typeText hname, List.map_map]
    simp [Function.comp_def]

/-- An argument whose type has two members. -/
def petParams (destructured : String) : Argument where
  name := "pathParams"
  definition := "pathParams: PetParams"
  implementation := destructured ++ ": PetParams"
  kind := .namedPathParams
  destructured := destructured
  schema := some {
    name := "PetParams"
    model := typeText "PetParams" [
      { key := "petId", isOptional := false, type := "string"
        isIdentifierText_key := by decide, lineFeed_notMem_type := by decide },
      { key := "$tag", isOptional := true, type := "\x7b id: number; name?: 'a: b' \x7d"
        isIdentifierText_key := by decide, lineFeed_notMem_type := by decide }] }

/-- Its names are those of a list. Without one they are the two keys, and nothing in the second
type is one. -/
theorem namedPathParamNames_petParams :
    (∀ name ∈ ["owner", "petId"], isIdentifierText name.toList = true) ∧
      namedPathParamNames (some (petParams "\x7b owner, petId \x7d")) = ["owner", "petId"] ∧
      namedPathParamNames (some (petParams "")) = ["petId", "$tag"] := by
  have hnames : ∀ name ∈ ["owner", "petId"], isIdentifierText name.toList = true := by decide
  refine ⟨hnames, ?_, ?_⟩
  · exact (namedPathParamNames_reads _).1 ["owner", "petId"] (by decide)
      (fun name hname => isListable_of_isIdentifierText (hnames name hname)) (by decide)
  · exact (namedPathParamNames_reads (petParams "")).2 _ "PetParams" _ (by simp [petParams]) rfl rfl
      (by decide)

end RequestGen
