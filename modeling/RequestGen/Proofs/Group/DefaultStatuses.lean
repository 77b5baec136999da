import RequestGen.Proofs.Group.SecondParameter

/-! # The statuses of the default response

The type of a response names its statuses by a code, by a helper type, or as all codes without those
that are documented on their own. `readStatusType` reads such a type, with the helper types that the
header declares (`declaredUnions_statusTypes`). The default response excludes codes only: a status
that it admits may also be one of a documented range, unless all codes of that range are documented
themselves (`Operation.default_apart_iff`). -/

namespace RequestGen

open Text (splitOn)

/-! ### Types of status codes -/

/-- The codes of an alternative: a number, or the codes of a declared type. -/
def readAlternative (declared : List (String × List Nat)) (word : List Char) : Option (List Nat) :=
  if word ≠ [] ∧ word.all Char.isDigit then some [Nat.ofDigitChars 10 word 0]
  else declared.lookup (String.ofList word)

/-- The codes of alternatives with bars between them. -/
def readAlternatives (declared : List (String × List Nat)) :
    List (List Char) → Option (List Nat)
  | [] => none
  | [word] => readAlternative declared word
  | word :: mark :: words =>
    if mark = ['|'] then
      (readAlternative declared word).bind fun codes =>
        (readAlternatives declared words).map (codes ++ ·)
    else none

/-- The codes of a union type. -/
def readUnion (declared : List (String × List Nat)) (s : List Char) : Option (List Nat) :=
  readAlternatives declared (splitOn ' ' s)

/-- The codes of a union type, or of one without those of another. -/
def readStatusType (declared : List (String × List Nat)) (s : List Char) : Option (List Nat) :=
  match "Exclude<".toList.isPrefixOf? s with
  | none => readUnion declared s
  | some rest =>
    match splitOn ',' rest with
    | [kept, excluded] =>
      if excluded.head? = some ' ' ∧ excluded.getLast? = some '>' then
        (readUnion declared kept).bind fun kept =>
          (readUnion declared excluded.tail.dropLast).map fun excluded =>
            kept.filter (· ∉ excluded)
      else none
    | _ => none

/-- What is declared after a line, where `declared` is declared before it. -/
def readDeclaration (declared : List (String × List Nat)) (line : List Char) :
    List (String × List Nat) :=
  match "type ".toList.isPrefixOf? line with
  | none => declared
  | some rest =>
    match " = ".toList.isPrefixOf? (rest.dropWhile Text.isNameChar) with
    | none => declared
    | some definition =>
      if definition.getLast? = some ';' then
        match readUnion declared definition.dropLast with
        | none => declared
        | some codes => (String.ofList (rest.takeWhile Text.isNameChar), codes) :: declared
      else declared

/-- The unions of status codes that a code declares, the last one first. -/
def declaredUnions (code : String) : List (String × List Nat) :=
  (splitOn '\n' code.toList).foldl readDeclaration []

theorem isPrefixOf?_append_self (part s : List Char) : part.isPrefixOf? (part ++ s) = some s := by
  induction part with
  | nil => rfl
  | cons c part ih => rw [List.cons_append, List.isPrefixOf?, if_pos (beq_self_eq_true c), ih]

section Reading

variable {declared : List (String × List Nat)} {types : List String}

theorem readAlternative_digits {word : List Char} (hne : word ≠ [])
    (hdigits : ∀ c ∈ word, c.isDigit = true) :
    readAlternative declared word = some [Nat.ofDigitChars 10 word 0] :=
  if_pos ⟨hne, List.all_eq_true.mpr hdigits⟩

theorem readUnion_unionOf {alternatives : List (List Nat)} (hne : types ≠ [])
    (h : List.Forall₂ (fun type codes => ' ' ∉ type.toList ∧
      readAlternative declared type.toList = some codes) types alternatives) :
    readUnion declared (unionOf types).toList = some alternatives.flatten := by
  unfold unionOf readUnion
  induction h with
  | nil => exact absurd rfl hne
  | @cons type codes types alternatives hfirst hrest ih =>
    obtain ⟨hblank, hread⟩ := hfirst
    cases types with
    | nil =>
      cases hrest
      rw [String.intercalate_singleton, Text.splitOn_eq_singleton hblank]
      simpa [readAlternatives] using hread
    | cons next types =>
      have hchars : (String.intercalate " | " (type :: next :: types)).toList =
          type.toList ++ ' ' :: (['|'] ++ ' ' ::
            (String.intercalate " | " (next :: types)).toList) := by
        simp [String.intercalate_cons_cons, String.toList_append]
      rw [hchars, Text.splitOn_append_cons, Text.splitOn_append_cons,
        Text.splitOn_eq_singleton hblank, Text.splitOn_eq_singleton (by decide : ' ' ∉ ['|']),
        List.singleton_append, List.singleton_append, readAlternatives, if_pos rfl, hread,
        Option.bind_some, ih (List.cons_ne_nil _ _), Option.map_some, List.flatten_cons]

theorem readUnion_digits (hne : types ≠ [])
    (h : ∀ type ∈ types, type ≠ "" ∧ ∀ c ∈ type.toList, c.isDigit = true) :
    readUnion declared (unionOf types).toList =
      some (types.map fun type => Nat.ofDigitChars 10 type.toList 0) := by
  have hflat : types.map (fun type => Nat.ofDigitChars 10 type.toList 0) =
      (types.map fun type => [Nat.ofDigitChars 10 type.toList 0]).flatten := by
    rw [← List.flatMap_def, List.map_eq_flatMap]
  rw [hflat]
  refine readUnion_unionOf hne ?_
  rw [List.forall₂_map_right_iff, List.forall₂_same]
  intro type htype
  obtain ⟨hempty, hdigits⟩ := h type htype
  refine ⟨fun hblank => absurd (hdigits _ hblank) (by decide), ?_⟩
  exact readAlternative_digits (fun h => hempty (String.toList_eq_nil_iff.mp h)) hdigits

theorem ofDigitChars_toString (code : Nat) :
    Nat.ofDigitChars 10 (toString code).toList 0 = code := by
  show Nat.ofDigitChars 10 code.repr.toList 0 = code
  rw [Nat.toList_repr]
  exact Nat.ofDigitChars_toDigits (by decide) (by decide)

theorem isDigit_of_mem_toString {code : Nat} : ∀ c ∈ (toString code).toList, c.isDigit = true := by
  intro c hc
  have hc : c ∈ code.repr.toList := hc
  rw [Nat.toList_repr] at hc
  exact Nat.isDigit_of_mem_toDigits (by decide) (by decide) hc

theorem toString_ne_empty (code : Nat) : toString code ≠ "" := by
  intro h
  have hlist : code.repr.toList = [] := String.toList_eq_nil_iff.mpr h
  rw [Nat.toList_repr] at hlist
  exact absurd hlist Nat.toDigits_ne_nil

theorem readUnion_codes {codes : List Nat} (hne : codes ≠ []) :
    readUnion declared (unionOf (codes.map toString)).toList = some codes := by
  rw [readUnion_digits (by simpa using hne)]
  · rw [List.map_map, show _ ∘ toString = id from funext ofDigitChars_toString, List.map_id]
  · intro type htype
    obtain ⟨code, -, rfl⟩ := List.mem_map.mp htype
    exact ⟨toString_ne_empty code, isDigit_of_mem_toString⟩

theorem readDeclaration_line {name union : String} {codes : List Nat}
    (hname : ∀ c ∈ name.toList, Text.isNameChar c = true)
    (h : readUnion declared union.toList = some codes) :
    readDeclaration declared ("type " ++ name ++ " = " ++ union ++ ";").toList =
      (name, codes) :: declared := by
  have hchars : ("type " ++ name ++ " = " ++ union ++ ";").toList =
      "type ".toList ++ (name.toList ++ (" = ".toList ++ (union.toList ++ [';']))) := by
    simp [String.toList_append]
  have hafter : (name.toList ++ (" = ".toList ++ (union.toList ++ [';']))).dropWhile
      Text.isNameChar = " = ".toList ++ (union.toList ++ [';']) := by
    rw [List.dropWhile_append_of_pos hname]
    rfl
  have hbefore : (name.toList ++ (" = ".toList ++ (union.toList ++ [';']))).takeWhile
      Text.isNameChar = name.toList := by
    rw [List.takeWhile_append_of_pos hname]
    exact List.append_nil _
  unfold readDeclaration
  rw [hchars, isPrefixOf?_append_self]
  dsimp only
  rw [hafter, hbefore, isPrefixOf?_append_self]
  dsimp only
  rw [if_pos List.getLast?_concat, List.dropLast_concat, h, String.ofList_toList]

end Reading

/-! ### The helper types -/

/-- The helper types with their codes, as the header declares them. -/
def statusUnions : List (String × List Nat) :=
  ("HTTPStatusCodes", statusHundreds.flatMap (·.2)) ::
    (statusHundreds.map fun hundred => (hundredTypeName hundred.1, hundred.2)).reverse

section Header

variable {declared : List (String × List Nat)}

theorem foldl_readDeclaration_line {name union : String} {codes : List Nat}
    (hname : ∀ c ∈ name.toList, Text.isNameChar c = true) (hunion : '\n' ∉ (union ++ ";").toList)
    (h : readUnion declared union.toList = some codes) (rest : String) :
    (splitOn '\n' ("type " ++ name ++ " = " ++ union ++ ";" ++ "\n" ++ rest).toList).foldl
        readDeclaration declared =
      (splitOn '\n' rest.toList).foldl readDeclaration ((name, codes) :: declared) := by
  have hline : '\n' ∉ ("type " ++ name ++ " = " ++ union ++ ";").toList := by
    have hnoname : '\n' ∉ name.toList := fun h => absurd (hname _ h) (by decide)
    rw [String.toList_append, List.mem_append, not_or] at hunion
    simp only [String.toList_append, List.mem_append, not_or]
    exact ⟨⟨⟨⟨by decide, hnoname⟩, by decide⟩, hunion.1⟩, hunion.2⟩
  have hchars : ("type " ++ name ++ " = " ++ union ++ ";" ++ "\n" ++ rest).toList =
      ("type " ++ name ++ " = " ++ union ++ ";").toList ++ '\n' :: rest.toList := by
    simp [String.toList_append]
  rw [hchars, Text.splitOn_append_cons, Text.splitOn_eq_singleton hline, List.singleton_append,
    List.foldl_cons, readDeclaration_line hname h]

theorem foldl_readDeclaration_hundreds {hundreds : List (Nat × List Nat)}
    (hnames : ∀ hundred ∈ hundreds, ∀ c ∈ (hundredTypeName hundred.1).toList,
      Text.isNameChar c = true)
    (hcodes : ∀ hundred ∈ hundreds, hundred.2 ≠ []) (rest : String) :
    (splitOn '\n' (String.join (hundreds.map hundredDeclaration) ++ rest).toList).foldl
        readDeclaration declared =
      (splitOn '\n' rest.toList).foldl readDeclaration
        ((hundreds.map fun hundred => (hundredTypeName hundred.1, hundred.2)).reverse ++
          declared) := by
  induction hundreds generalizing declared with
  | nil => rw [List.map_nil, String.join_nil, String.empty_append]; rfl
  | cons hundred hundreds ih =>
    have hlines : ∀ type ∈ hundred.2.map toString, '\n' ∉ type.toList := by
      intro type htype hc
      obtain ⟨code, -, rfl⟩ := List.mem_map.mp htype
      exact absurd (isDigit_of_mem_toString _ hc) (by decide)
    rw [List.map_cons, String.join_cons, String.append_assoc, hundredDeclaration,
      foldl_readDeclaration_line (hnames hundred List.mem_cons_self) (notMem_unionOf hlines)
        (readUnion_codes (hcodes hundred List.mem_cons_self)),
      ih (fun other ho => hnames other (List.mem_cons_of_mem _ ho))
        fun other ho => hcodes other (List.mem_cons_of_mem _ ho)]
    simp

theorem declaredUnions_statusTypes : declaredUnions statusTypes = statusUnions := by
  have hplain : IsPlainName "HTTPStatusCodes" := Status.isPlainName_of_mem List.mem_cons_self
  have hlines : ∀ type ∈ statusHundreds.map fun hundred => hundredTypeName hundred.1,
      '\n' ∉ type.toList := by
    decide
  have hall : readUnion
      ((statusHundreds.map fun hundred => (hundredTypeName hundred.1, hundred.2)).reverse ++ [])
      (unionOf (statusHundreds.map fun hundred => hundredTypeName hundred.1)).toList =
        some (statusHundreds.flatMap (·.2)) := by
    refine readUnion_unionOf (by decide) ?_
    rw [List.forall₂_map_left_iff, List.forall₂_map_right_iff, List.forall₂_same]
    decide
  have htext : statusTypes = String.join (statusHundreds.map hundredDeclaration) ++
      ("type " ++ "HTTPStatusCodes" ++ " = " ++
        unionOf (statusHundreds.map fun hundred => hundredTypeName hundred.1) ++ ";" ++ "\n" ++
          "\n") := by
    rw [statusTypes_eq, show ";\n\n" = ";" ++ "\n" ++ "\n" from rfl]
    simp only [String.append_assoc]
  rw [declaredUnions, htext, foldl_readDeclaration_hundreds isNameChar_hundredTypeName (by decide),
    foldl_readDeclaration_line hplain.2 (notMem_unionOf hlines) hall]
  rfl

end Header

/-! ### The statuses of a member -/

namespace Status

variable {codes : List String}

/-- The codes of the statuses, as their type is read beside the helper types. -/
def codes? (status : Status) : Option (List Nat) :=
  readStatusType (declaredUnions statusTypes) status.render.toList

theorem codes?_code {digits : String} (hne : digits ≠ "")
    (hdigits : ∀ c ∈ digits.toList, c.isDigit = true) :
    (code digits).codes? = some [Nat.ofDigitChars 10 digits.toList 0] := by
  have hprefix : "Exclude<".toList.isPrefixOf? digits.toList = none := by
    cases hchars : digits.toList with
    | nil => rfl
    | cons c s =>
      have hc : 'E' ≠ c := by
        rintro rfl
        exact absurd (hdigits 'E' (hchars ▸ List.mem_cons_self)) (by decide)
      show (if ('E' == c) = true then _ else none) = none
      exact if_neg (mt eq_of_beq hc)
  have hread : readUnion (declaredUnions statusTypes) digits.toList =
      some [Nat.ofDigitChars 10 digits.toList 0] :=
    readUnion_digits (List.cons_ne_nil digits []) (List.forall_mem_singleton.mpr ⟨hne, hdigits⟩)
  unfold codes? readStatusType
  rw [show (code digits).render = digits from rfl, hprefix]
  exact hread

theorem codes?_range {hundred : Nat × List Nat} (h : hundred ∈ statusHundreds) :
    (range (toString hundred.1)).codes? = some hundred.2 := by
  rw [codes?, declaredUnions_statusTypes]
  revert hundred
  decide

theorem codes?_otherThan (hcodes : ∀ key ∈ codes, key ≠ "" ∧ ∀ c ∈ key.toList, c.isDigit = true) :
    (otherThan codes).codes? = some ((statusHundreds.flatMap (·.2)).filter
      (· ∉ codes.map fun key => Nat.ofDigitChars 10 key.toList 0)) := by
  have hall : readUnion statusUnions "HTTPStatusCodes".toList =
      some (statusHundreds.flatMap (·.2)) := by
    decide
  rw [codes?, declaredUnions_statusTypes]
  cases codes with
  | nil =>
    have hprefix : "Exclude<".toList.isPrefixOf? "HTTPStatusCodes".toList = none := by decide
    unfold readStatusType
    rw [show (otherThan []).render = "HTTPStatusCodes" from rfl, hprefix]
    simpa using hall
  | cons key keys =>
    let union := unionOf (key :: keys)
    have hcomma : ',' ∉ ' ' :: (union.toList ++ ['>']) := by
      intro hc
      rw [List.mem_cons, List.mem_append] at hc
      rcases hc with hc | hc | hc
      · exact absurd hc (by decide)
      · rcases mem_unionOf hc with hc | ⟨type, htype, hc⟩
        · exact absurd hc (by decide)
        · exact absurd ((hcodes type htype).2 _ hc) (by decide)
      · exact absurd hc (by decide)
    have hchars : (otherThan (key :: keys)).render.toList =
        "Exclude<".toList ++
          ("HTTPStatusCodes".toList ++ ',' :: ' ' :: (union.toList ++ ['>'])) := by
      show ("Exclude<HTTPStatusCodes, " ++ union ++ ">").toList = _
      simp [String.toList_append]
    unfold readStatusType
    rw [hchars, isPrefixOf?_append_self]
    dsimp only
    rw [Text.splitOn_append_cons, Text.splitOn_eq_singleton (by decide),
      Text.splitOn_eq_singleton hcomma, List.singleton_append]
    dsimp only
    rw [if_pos ⟨rfl, List.getLast?_concat (l := ' ' :: union.toList)⟩, hall, List.tail_cons,
      List.dropLast_concat, readUnion_digits (List.cons_ne_nil key keys) hcodes]
    rfl

end Status

/-! ### The default response -/

/-- A status code as a key: three digits. -/
def IsCodeKey (key : String) : Prop :=
  key.toList.length = 3 ∧ ∀ c ∈ key.toList, c.isDigit = true

namespace IsCodeKey

variable {key other : String}

theorem ne_empty (h : IsCodeKey key) : key ≠ "" := by
  rintro rfl
  exact absurd h.1 (by decide)

theorem eq_of_ofDigitChars_eq (h : IsCodeKey key) (ho : IsCodeKey other)
    (heq : Nat.ofDigitChars 10 key.toList 0 = Nat.ofDigitChars 10 other.toList 0) :
    key = other := by
  have hbounds {c : Char} (hc : c.isDigit = true) : 48 ≤ c.toNat ∧ c.toNat ≤ 57 := by
    simpa [Char.isDigit, UInt32.le_iff_toNat_le] using hc
  obtain ⟨a, b, c, hkey⟩ := List.length_eq_three.mp h.1
  obtain ⟨x, y, z, hother⟩ := List.length_eq_three.mp ho.1
  have hdigits := h.2
  have hdigitsOther := ho.2
  rw [hkey, hother] at heq
  rw [hkey] at hdigits
  rw [hother] at hdigitsOther
  have ha := hbounds (hdigits a (by simp))
  have hb := hbounds (hdigits b (by simp))
  have hc := hbounds (hdigits c (by simp))
  have hx := hbounds (hdigitsOther x (by simp))
  have hy := hbounds (hdigitsOther y (by simp))
  have hz := hbounds (hdigitsOther z (by simp))
  simp only [Nat.ofDigitChars_cons, Nat.ofDigitChars_nil, Nat.mul_zero, Nat.zero_add] at heq
  have hzero : '0'.toNat = 48 := rfl
  rw [← String.toList_inj, hkey, hother]
  rw [Char.toNat_inj.mp (by omega : a.toNat = x.toNat),
    Char.toNat_inj.mp (by omega : b.toNat = y.toNat),
    Char.toNat_inj.mp (by omega : c.toNat = z.toNat)]

end IsCodeKey

/-- The key of the range of the hundred. -/
def rangeKey (hundred : Nat × List Nat) : String := s!"{hundred.1}XX"

/-- The type of the member admits the status. -/
def StatusMember.Admits (m : StatusMember) (status : Nat) : Prop :=
  ∃ codes, m.status.codes? = some codes ∧ status ∈ codes

theorem isCodeKey_of_mem_statusHundreds {hundred : Nat × List Nat} (h : hundred ∈ statusHundreds)
    {code : Nat} (hcode : code ∈ hundred.2) : IsCodeKey (toString code) := by
  have hlength : statusHundreds.all (fun hundred =>
      hundred.2.all fun code => (Nat.toDigits 10 code).length == 3) = true := rfl
  refine ⟨?_, isDigit_of_mem_toString⟩
  show code.repr.toList.length = 3
  rw [Nat.toList_repr]
  exact eq_of_beq (List.all_eq_true.mp (List.all_eq_true.mp hlength hundred h) code hcode)

theorem mem_rangeKeys_iff {key : String} :
    key ∈ rangeKeys ↔ ∃ hundred ∈ statusHundreds, rangeKey hundred = key := by
  rw [show rangeKeys = statusHundreds.map rangeKey by decide, List.mem_map]

namespace Status

variable {codes : List String}

theorem codes?_ofKey_code {key : String} (h : IsCodeKey key) :
    (ofKey codes key).codes? = some [Nat.ofDigitChars 10 key.toList 0] := by
  rw [ofKey_code h.ne_empty h.2, codes?_code h.ne_empty h.2]

theorem ofKey_rangeKey {hundred : Nat × List Nat} (h : hundred ∈ statusHundreds) :
    ofKey codes (rangeKey hundred) = range (toString hundred.1) := by
  have hrange : ∀ hundred ∈ statusHundreds, Text.isDigits (rangeKey hundred) = false ∧
      rangeKey hundred ≠ "default" ∧
      String.ofList ((rangeKey hundred).toList.take 1) = toString hundred.1 := by
    decide
  obtain ⟨hdigits, hdefault, hfirst⟩ := hrange hundred h
  rw [ofKey, if_neg (Bool.eq_false_iff.mp hdigits), if_neg hdefault, hfirst]

theorem codes?_ofKey_rangeKey {hundred : Nat × List Nat} (h : hundred ∈ statusHundreds) :
    (ofKey codes (rangeKey hundred)).codes? = some hundred.2 := by
  rw [ofKey_rangeKey h, codes?_range h]

end Status

namespace Operation

variable {op : Operation} {m : StatusMember} {key : String}

theorem exists_isMemberOf (h : m ∈ op.statusMembers) :
    ∃ key ∈ op.statusKeys, op.IsMemberOf key m := by
  obtain ⟨key, hkey, hof⟩ := exists_of_forall₂_right op.forall₂_isMemberOf h
  exact ⟨key, List.mem_eraseDups.mp hkey, hof⟩

theorem exists_mem_isMemberOf (h : key ∈ op.statusKeys) :
    ∃ m ∈ op.statusMembers, op.IsMemberOf key m :=
  exists_of_forall₂_right op.forall₂_isMemberOf.flip (List.mem_eraseDups.mpr h)

/-- Responses are documented under codes, ranges and `default` only. -/
def HasStatusKeys (op : Operation) : Prop :=
  ∀ key ∈ op.statusKeys, IsCodeKey key ∨ key ∈ rangeKeys ∨ key = "default"

section Default

variable (hkeys : op.HasStatusKeys)

include hkeys

theorem mem_documentedCodes_iff :
    key ∈ op.documentedCodes ↔ key ∈ op.statusKeys ∧ IsCodeKey key := by
  rw [documentedCodes, List.mem_filter]
  refine Iff.trans (and_congr_left' mem_keys_lastOfEachKey) (and_congr_right fun hkey => ?_)
  constructor
  · intro hdigits
    have hnone : ∀ key ∈ "default" :: rangeKeys, Text.isDigits key = false := by decide
    rcases hkeys key hkey with h | h | rfl
    · exact h
    · exact absurd hdigits (Bool.eq_false_iff.mp (hnone key (List.mem_cons_of_mem _ h)))
    · exact absurd hdigits (Bool.eq_false_iff.mp (hnone _ List.mem_cons_self))
  · exact fun h => Status.isDigits_of_isDigit h.ne_empty h.2

/-- The default response admits all status codes but those that are documented on their own. -/
theorem admits_default_iff (hm : op.IsMemberOf "default" m) {status : Nat} :
    m.Admits status ↔
      (∃ hundred ∈ statusHundreds, status ∈ hundred.2) ∧ toString status ∉ op.statusKeys := by
  have hcodes : ∀ key ∈ op.documentedCodes, key ≠ "" ∧ ∀ c ∈ key.toList, c.isDigit = true :=
    fun key hkey => ⟨((mem_documentedCodes_iff hkeys).mp hkey).2.ne_empty,
      ((mem_documentedCodes_iff hkeys).mp hkey).2.2⟩
  rw [StatusMember.Admits, hm.status, Status.ofKey_default, Status.codes?_otherThan hcodes]
  simp only [Option.some.injEq, exists_eq_left', List.mem_filter, List.mem_flatMap,
    decide_eq_true_eq]
  refine and_congr_right fun hstatus => not_congr ?_
  obtain ⟨hundred, hhundred, hstatus⟩ := hstatus
  have hown : IsCodeKey (toString status) := isCodeKey_of_mem_statusHundreds hhundred hstatus
  rw [List.mem_map]
  constructor
  · rintro ⟨key, hkey, hvalue⟩
    obtain ⟨hmem, hcode⟩ := (mem_documentedCodes_iff hkeys).mp hkey
    have heq : key = toString status :=
      hcode.eq_of_ofDigitChars_eq hown (hvalue.trans (ofDigitChars_toString status).symm)
    exact heq ▸ hmem
  · intro hmem
    exact ⟨toString status, (mem_documentedCodes_iff hkeys).mpr ⟨hmem, hown⟩,
      ofDigitChars_toString status⟩

theorem exists_codes (hm : m ∈ op.statusMembers) : ∃ codes, m.status.codes? = some codes := by
  obtain ⟨key, hkey, hof⟩ := exists_isMemberOf hm
  rw [hof.status]
  rcases hkeys key hkey with h | h | rfl
  · exact ⟨_, Status.codes?_ofKey_code h⟩
  · obtain ⟨hundred, hhundred, rfl⟩ := mem_rangeKeys_iff.mp h
    exact ⟨_, Status.codes?_ofKey_rangeKey hhundred⟩
  · refine ⟨_, Status.codes?_otherThan fun key hkey => ?_⟩
    have hcode := ((mem_documentedCodes_iff hkeys).mp hkey).2
    exact ⟨hcode.ne_empty, hcode.2⟩

end Default

/-- No status of the default response is one of another response. -/
def DefaultApart (op : Operation) : Prop :=
  ∀ m ∈ op.statusMembers, ∀ other ∈ op.statusMembers, op.IsMemberOf "default" m →
    ¬ op.IsMemberOf "default" other → ∀ status, m.Admits status → ¬ other.Admits status

/-- The statuses of the default response are those of no other response exactly if, beside a
default, all codes of a documented range are documented on their own. -/
theorem default_apart_iff (hkeys : op.HasStatusKeys) :
    (∀ m ∈ op.statusMembers, ∃ codes, m.status.codes? = some codes) ∧
      (op.DefaultApart ↔ ("default" ∈ op.statusKeys → ∀ hundred ∈ statusHundreds,
        rangeKey hundred ∈ op.statusKeys → ∀ code ∈ hundred.2, toString code ∈ op.statusKeys)) := by
  refine ⟨fun m hm => exists_codes hkeys hm, ?_, ?_⟩
  · intro hapart hdefault hundred hhundred hrange code hcode
    obtain ⟨m, hm, hof⟩ := exists_mem_isMemberOf hdefault
    obtain ⟨other, hother, hofRange⟩ := exists_mem_isMemberOf hrange
    have hstatus := hofRange.status
    rw [Status.ofKey_rangeKey hhundred] at hstatus
    have hnot : ¬ op.IsMemberOf "default" other := by
      intro h
      rw [h.status, Status.ofKey_default] at hstatus
      exact nomatch hstatus
    by_contra hmissing
    refine hapart m hm other hother hof hnot code ?_ ⟨hundred.2, ?_, hcode⟩
    · exact (admits_default_iff hkeys hof).mpr ⟨⟨hundred, hhundred, hcode⟩, hmissing⟩
    · rw [hstatus, Status.codes?_range hhundred]
  · rintro hall m hm other hother hof hnot status hadmits ⟨codes, hcodes, hstatus⟩
    obtain ⟨⟨hundred, hhundred, hmem⟩, hmissing⟩ := (admits_default_iff hkeys hof).mp hadmits
    obtain ⟨key, hkey, hofKey⟩ := exists_isMemberOf hother
    rw [hofKey.status] at hcodes
    rcases hkeys key hkey with h | h | rfl
    · -- a code is excluded
      rw [Status.codes?_ofKey_code h] at hcodes
      obtain rfl := Option.some.inj hcodes
      have hown := isCodeKey_of_mem_statusHundreds hhundred hmem
      have hvalue := (ofDigitChars_toString status).trans (List.mem_singleton.mp hstatus)
      exact hmissing (hown.eq_of_ofDigitChars_eq h hvalue ▸ hkey)
    · -- a code of a range is documented on its own
      obtain ⟨range, hrange, rfl⟩ := mem_rangeKeys_iff.mp h
      rw [Status.codes?_ofKey_rangeKey hrange] at hcodes
      obtain rfl := Option.some.inj hcodes
      exact hmissing (hall hof.mem_statusKeys range hrange hkey status hstatus)
    · exact hnot hofKey

/-- A documented code is excluded from the default, a documented range is not. -/
theorem default_apart_ping :
    (Group.ping ["404", "default"]).operation.HasStatusKeys ∧
      (Group.ping ["404", "default"]).operation.DefaultApart ∧
      (Group.ping ["4XX", "default"]).operation.HasStatusKeys ∧
      ¬ (Group.ping ["4XX", "default"]).operation.DefaultApart := by
  have h404 : IsCodeKey "404" := ⟨rfl, List.all_eq_true.mp rfl⟩
  have hcode : (Group.ping ["404", "default"]).operation.HasStatusKeys :=
    List.forall_mem_cons.mpr ⟨.inl h404, List.forall_mem_singleton.mpr (.inr (.inr rfl))⟩
  have hrange : (Group.ping ["4XX", "default"]).operation.HasStatusKeys :=
    List.forall_mem_cons.mpr
      ⟨.inr (.inl (by decide)), List.forall_mem_singleton.mpr (.inr (.inr rfl))⟩
  refine ⟨hcode, (default_apart_iff hcode).2.mpr fun _ hundred hhundred hdocumented => ?_, hrange,
    fun hapart => ?_⟩
  · have hnone : ∀ hundred ∈ statusHundreds,
        rangeKey hundred ∉ (Group.ping ["404", "default"]).operation.statusKeys := by
      decide
    exact absurd hdocumented (hnone hundred hhundred)
  · have hall := (default_apart_iff hrange).2.mp hapart (List.mem_cons_of_mem _ List.mem_cons_self)
    have hmissing : toString 400 ∉ (Group.ping ["4XX", "default"]).operation.statusKeys := by decide
    exact hmissing (hall statusHundreds[3] (List.getElem_mem _) List.mem_cons_self 400
      List.mem_cons_self)

end Operation

end RequestGen
