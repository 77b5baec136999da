import Mathlib.Data.List.Forall2
import RequestGen.Proofs.Client.ImportedNames
import RequestGen.Proofs.Code.References
import RequestGen.Proofs.Text.Pieces

/-! # Lines that import

What an import line says is told from its text: the default export or the whole module under a name,
or values or types in braces, each of which keeps its name or gets another behind `as`
(`ImportStatement.WrittenAs`). Each statement is rendered to a line that says it
(`writtenAs_render`). `readImport` reads a line back word by word. It finds what the line says if
the names are plain and no quote stands in the module (`readImport_of_writtenAs`), so statements of
this kind that are rendered alike import alike (`asRead_eq_of_render_eq`). -/

namespace RequestGen

/-! ### What a line says -/

/-- How a list in braces writes an import. -/
inductive Import.WrittenAs (i : Import) : String → Prop
  | kept (h : i.localName = i.name) : i.WrittenAs i.name
  | renamed : i.WrittenAs (i.name ++ " as " ++ i.localName)

theorem Import.writtenAs_specifier (i : Import) : i.WrittenAs i.specifier := by
  unfold specifier
  split
  · next hnone => exact .kept (by simp [localName, hnone])
  · next other hother =>
    split
    · next hempty => exact .kept (by simp [localName, hother, hempty])
    · next hne =>
      have hlocal : i.localName = other := by simp [localName, hother, hne]
      exact hlocal ▸ .renamed

namespace ImportStatement

/-- The line that imports what the statement says. -/
inductive WrittenAs : ImportStatement → String → Prop
  | default (name module : String) :
      WrittenAs ⟨.default name, module⟩ ("import " ++ name ++ " from '" ++ module ++ "';")
  | star (name module : String) :
      WrittenAs ⟨.star name, module⟩ ("import * as " ++ name ++ " from '" ++ module ++ "';")
  | values {items : List Import} {texts : List String} (module : String)
      (h : List.Forall₂ Import.WrittenAs items texts) :
      WrittenAs ⟨.values items, module⟩
        ("import \x7b " ++ String.intercalate ", " texts ++ " \x7d from '" ++ module ++ "';")
  | types {items : List Import} {texts : List String} (module : String)
      (h : List.Forall₂ Import.WrittenAs items texts) :
      WrittenAs ⟨.types items, module⟩
        ("import type \x7b " ++ String.intercalate ", " texts ++ " \x7d from '" ++ module ++ "';")

theorem forall₂_writtenAs_specifier (items : List Import) :
    List.Forall₂ Import.WrittenAs items (items.map Import.specifier) :=
  List.forall₂_map_right_iff.mpr (List.forall₂_same.mpr fun i _ => i.writtenAs_specifier)

theorem writtenAs_render (s : ImportStatement) : s.WrittenAs s.render := by
  obtain ⟨clause, module⟩ := s
  cases clause with
  | default name =>
    have hrender : render ⟨.default name, module⟩ =
        "import " ++ name ++ " from '" ++ module ++ "';" := by
      apply String.ext
      simp [render, toString]
    exact hrender ▸ .default name module
  | star name =>
    have hrender : render ⟨.star name, module⟩ =
        "import * as " ++ name ++ " from '" ++ module ++ "';" := by
      apply String.ext
      simp [render, toString]
    exact hrender ▸ .star name module
  | values items =>
    have hrender : render ⟨.values items, module⟩ =
        "import \x7b " ++ String.intercalate ", " (items.map Import.specifier) ++ " \x7d from '" ++
          module ++ "';" := by
      apply String.ext
      simp [render, specifiers, Text.commaList, toString]
    exact hrender ▸ .values module (forall₂_writtenAs_specifier items)
  | types items =>
    have hrender : render ⟨.types items, module⟩ =
        "import type \x7b " ++ String.intercalate ", " (items.map Import.specifier) ++
          " \x7d from '" ++ module ++ "';" := by
      apply String.ext
      simp [render, specifiers, Text.commaList, toString]
    exact hrender ▸ .types module (forall₂_writtenAs_specifier items)

theorem forall₂_writtenAs_render (statements : List ImportStatement) :
    List.Forall₂ WrittenAs statements (statements.map render) :=
  List.forall₂_map_right_iff.mpr (List.forall₂_same.mpr fun s _ => s.writtenAs_render)

end ImportStatement

/-! ### Reading a line back -/

/-- The import of a name under a local name. -/
def Import.under (name localName : String) : Import where
  name := name
  localAlias := if localName = name then none else some localName

/-- The imports in braces that end here, and the words behind them. A word with a comma ends an
import. -/
def readImports : List String → Option (List Import × List String)
  | [] => none
  | word :: words =>
    if word.toList.getLast? = some ',' then
      let name := String.ofList word.toList.dropLast
      (readImports words).map fun r => (Import.under name name :: r.1, r.2)
    else
      match words with
      | "\x7d" :: rest => some ([Import.under word word], rest)
      | "as" :: other :: rest =>
        if other.toList.getLast? = some ',' then
          (readImports rest).map fun r =>
            (Import.under word (String.ofList other.toList.dropLast) :: r.1, r.2)
        else
          match rest with
          | "\x7d" :: rest => some ([Import.under word other], rest)
          | _ => none
      | _ => none

/-- The words behind the clause. -/
def closingWords : List String := ["from", ""]

/-- The imports in braces, if nothing but the module follows. -/
def readBraces (words : List String) : Option (List Import) :=
  match readImports words with
  | some (items, rest) => if rest = closingWords then some items else none
  | none => none

/-- The clause that the words of a line before its module make up. -/
def readClause : List String → Option ImportClause
  | "import" :: first :: rest =>
    if first = "\x7b" then (readBraces rest).map .values
    else if first = "*" then
      match rest with
      | "as" :: name :: rest => if rest = closingWords then some (.star name) else none
      | _ => none
    else if rest = closingWords then some (.default first)
    else if first = "type" then
      match rest with
      | "\x7b" :: rest => (readBraces rest).map .types
      | _ => none
    else none
  | _ => none

/-- The words between blanks. -/
def wordsOf (s : List Char) : List String := (Text.splitOn ' ' s).map String.ofList

/-- The statement that a line makes. -/
def readImport (line : String) : Option ImportStatement :=
  match Text.splitOn '\'' line.toList with
  | [front, module, [';']] =>
    (readClause (wordsOf front)).map fun clause => ⟨clause, String.ofList module⟩
  | _ => none

namespace Import

/-- The import with only what a line says of it. -/
def asRead (i : Import) : Import := under i.name i.localName

def IsPlain (i : Import) : Prop := IsPlainName i.name ∧ IsPlainName i.localName

end Import

namespace ImportClause

/-- The clause with only what a line says of its imports. -/
def asRead : ImportClause → ImportClause
  | default name => default name
  | star name => star name
  | values items => values (items.map Import.asRead)
  | types items => types (items.map Import.asRead)

/-- The names are plain, and there is something between the braces. -/
def IsPlain : ImportClause → Prop
  | default name => IsPlainName name
  | star name => IsPlainName name
  | values items => items ≠ [] ∧ ∀ i ∈ items, i.IsPlain
  | types items => items ≠ [] ∧ ∀ i ∈ items, i.IsPlain

end ImportClause

/-- What can be read back. -/
def ImportStatement.IsPlain (s : ImportStatement) : Prop :=
  s.clause.IsPlain ∧ '\'' ∉ s.module.toList

section Words

variable {name word : String} {s : List Char}

theorem notMem_of_isPlainName (hn : IsPlainName name) {c : Char}
    (hc : Text.isNameChar c = false) : c ∉ name.toList :=
  fun h => Bool.eq_false_iff.mp hc (hn.2 c h)

theorem ne_of_isPlainName (hn : IsPlainName name) {c : Char} (hc : Text.isNameChar c = false)
    (hmem : c ∈ word.toList) : name ≠ word := by
  rintro rfl
  exact notMem_of_isPlainName hn hc hmem

theorem wordsOf_append (word : String) (hword : ' ' ∉ word.toList) (s : List Char) :
    wordsOf (word.toList ++ ' ' :: s) = word :: wordsOf s := by
  rw [wordsOf, Text.splitOn_append_cons, Text.splitOn_eq_singleton hword, List.map_append,
    List.map_singleton, String.ofList_toList]
  rfl

theorem getLast?_of_isPlainName (hn : IsPlainName name) : name.toList.getLast? ≠ some ',' :=
  fun h => notMem_of_isPlainName hn (by decide) (List.mem_of_getLast? h)

theorem ofList_dropLast_comma (name : String) :
    String.ofList (name ++ ",").toList.dropLast = name := by
  rw [String.toList_append, show ",".toList = [','] from rfl, List.dropLast_concat,
    String.ofList_toList]

theorem getLast?_comma (name : String) : (name ++ ",").toList.getLast? = some ',' := by
  rw [String.toList_append, show ",".toList = [','] from rfl, List.getLast?_concat]

end Words

theorem readImports_word_comma (name : String) (words : List String) :
    readImports ((name ++ ",") :: words) =
      (readImports words).map fun r => (Import.under name name :: r.1, r.2) := by
  rw [readImports.eq_def]
  simp only [if_pos (getLast?_comma name), ofList_dropLast_comma]

theorem readImports_as_comma {name : String} (hn : IsPlainName name) (other : String)
    (words : List String) :
    readImports (name :: "as" :: (other ++ ",") :: words) =
      (readImports words).map fun r => (Import.under name other :: r.1, r.2) := by
  rw [readImports.eq_def]
  simp only [if_neg (getLast?_of_isPlainName hn), if_pos (getLast?_comma other),
    ofList_dropLast_comma]

theorem readImports_last {i : Import} (hi : i.IsPlain) {text : String} (h : i.WrittenAs text)
    (rest : List Char) :
    readImports (wordsOf (text.toList ++ ' ' :: '\x7d' :: ' ' :: rest)) =
      some ([i.asRead], wordsOf rest) := by
  obtain ⟨hname, hlocal⟩ := hi
  have hblank := notMem_of_isPlainName hname (c := ' ') (by decide)
  have hbrace : wordsOf ('\x7d' :: ' ' :: rest) = "\x7d" :: wordsOf rest :=
    wordsOf_append "\x7d" (by decide) rest
  cases h with
  | kept hkept =>
    rw [wordsOf_append _ hblank, hbrace, readImports, if_neg (getLast?_of_isPlainName hname),
      Import.asRead, hkept]
  | renamed =>
    have hwords :
        wordsOf ((i.name ++ " as " ++ i.localName).toList ++ ' ' :: '\x7d' :: ' ' :: rest) =
          i.name :: "as" :: i.localName :: "\x7d" :: wordsOf rest := by
      rw [← hbrace, ← wordsOf_append _ (notMem_of_isPlainName hlocal (by decide)),
        ← wordsOf_append "as" (by decide), ← wordsOf_append _ hblank]
      simp
    rw [hwords, readImports, if_neg (getLast?_of_isPlainName hname)]
    simp only [if_neg (getLast?_of_isPlainName hlocal)]
    rfl

theorem readImports_comma {i : Import} (hi : i.IsPlain) {text : String} (h : i.WrittenAs text)
    (rest : List Char) :
    readImports (wordsOf (text.toList ++ ',' :: ' ' :: rest)) =
      (readImports (wordsOf rest)).map fun r => (i.asRead :: r.1, r.2) := by
  obtain ⟨hname, hlocal⟩ := hi
  have hcomma {name : String} (hn : IsPlainName name) : ' ' ∉ (name ++ ",").toList := by
    simpa using notMem_of_isPlainName hn (c := ' ') (by decide)
  cases h with
  | kept hkept =>
    have hwords : wordsOf (i.name.toList ++ ',' :: ' ' :: rest) =
        (i.name ++ ",") :: wordsOf rest := by
      rw [← wordsOf_append _ (hcomma hname)]
      simp
    rw [hwords, readImports_word_comma, Import.asRead, hkept]
  | renamed =>
    have hwords : wordsOf ((i.name ++ " as " ++ i.localName).toList ++ ',' :: ' ' :: rest) =
        i.name :: "as" :: (i.localName ++ ",") :: wordsOf rest := by
      rw [← wordsOf_append _ (hcomma hlocal), ← wordsOf_append "as" (by decide),
        ← wordsOf_append _ (notMem_of_isPlainName hname (by decide))]
      simp
    rw [hwords, readImports_as_comma hname]
    rfl

theorem readBraces_commaList {items : List Import} {texts : List String} (hne : items ≠ [])
    (hitems : ∀ i ∈ items, i.IsPlain) (h : List.Forall₂ Import.WrittenAs items texts) :
    readBraces (wordsOf ((Text.commaList texts).toList ++ " \x7d from ".toList)) =
      some (items.map Import.asRead) := by
  have hread : readImports (wordsOf ((Text.commaList texts).toList ++ " \x7d from ".toList)) =
      some (items.map Import.asRead, closingWords) := by
    induction h with
    | nil => exact absurd rfl hne
    | @cons i text items texts hi h ih =>
      obtain ⟨hplain, hothers⟩ := List.forall_mem_cons.mp hitems
      rw [Text.commaList_cons_append]
      cases h with
      | nil => exact readImports_last hplain hi _
      | cons hnext h =>
        rw [if_neg (List.cons_ne_nil _ _), readImports_comma hplain hi,
          ih (List.cons_ne_nil _ _) hothers]
        rfl
  rw [readBraces, hread]
  exact if_pos rfl

namespace ImportStatement

variable {s t : ImportStatement} {line : String}

theorem readImport_of_toList {text module : String} (htext : '\'' ∉ text.toList)
    (hmodule : '\'' ∉ module.toList)
    (hline : line.toList = ("import " ++ text ++ " from '" ++ module ++ "';").toList) :
    readImport line = (readClause ("import" :: wordsOf (text.toList ++ " from ".toList))).map
      fun clause => ⟨clause, module⟩ := by
  have hchars : line.toList =
      ("import " ++ text ++ " from ").toList ++ '\'' :: (module.toList ++ '\'' :: [';']) := by
    rw [hline]
    simp
  have hfront : '\'' ∉ ("import " ++ text ++ " from ").toList := by
    simpa using htext
  have hwords : wordsOf ("import " ++ text ++ " from ").toList =
      "import" :: wordsOf (text.toList ++ " from ".toList) := by
    rw [← wordsOf_append "import" (by decide)]
    simp
  rw [readImport, hchars, Text.splitOn_append_cons, Text.splitOn_append_cons,
    Text.splitOn_eq_singleton hfront, Text.splitOn_eq_singleton hmodule,
    Text.splitOn_eq_singleton (by decide)]
  show Option.map _ (readClause (wordsOf _)) = _
  rw [hwords, String.ofList_toList]

theorem readClause_default {name : String} (hn : IsPlainName name) :
    readClause ("import" :: name :: closingWords) = some (.default name) := by
  have hbrace : name ≠ "\x7b" := ne_of_isPlainName hn (c := '\x7b') (by decide) (by decide)
  have hstar : name ≠ "*" := ne_of_isPlainName hn (c := '*') (by decide) (by decide)
  rw [readClause.eq_def]
  simp only [if_neg hbrace, if_neg hstar, if_true]

theorem quote_notMem_commaList {items : List Import} {texts : List String}
    (hitems : ∀ i ∈ items, i.IsPlain) (h : List.Forall₂ Import.WrittenAs items texts) :
    '\'' ∉ (Text.commaList texts).toList := by
  have htext {i : Import} {text : String} (hi : i.IsPlain) (h : i.WrittenAs text) :
      '\'' ∉ text.toList := by
    have hname := notMem_of_isPlainName hi.1 (c := '\'') (by decide)
    have hlocal := notMem_of_isPlainName hi.2 (c := '\'') (by decide)
    cases h with
    | kept => exact hname
    | renamed => simp [hname, hlocal]
  have htexts : ∀ text ∈ texts, '\'' ∉ text.toList := by
    induction h with
    | nil => simp
    | cons hi _ ih =>
      obtain ⟨hplain, hothers⟩ := List.forall_mem_cons.mp hitems
      exact List.forall_mem_cons.mpr ⟨htext hplain hi, ih hothers⟩
  intro hmem
  rcases Text.mem_commaList hmem with ⟨text, hmemText, hmem⟩ | hmem | hmem
  · exact htexts text hmemText hmem
  · exact absurd hmem (by decide)
  · exact absurd hmem (by decide)

theorem wordsOf_braces (list : String) :
    wordsOf (("\x7b " ++ list ++ " \x7d").toList ++ " from ".toList) =
      "\x7b" :: wordsOf (list.toList ++ " \x7d from ".toList) := by
  rw [← wordsOf_append "\x7b" (by decide)]
  simp

/-- A line is read back as what it says. -/
theorem readImport_of_writtenAs (hs : s.IsPlain) (h : s.WrittenAs line) :
    readImport line = some ⟨s.clause.asRead, s.module⟩ := by
  obtain ⟨hclause, hmodule⟩ := hs
  cases h with
  | default name module =>
    have hwords : wordsOf (name.toList ++ " from ".toList) = name :: closingWords :=
      wordsOf_append _ (notMem_of_isPlainName hclause (by decide)) _
    rw [readImport_of_toList (notMem_of_isPlainName hclause (by decide)) hmodule rfl, hwords,
      readClause_default hclause]
    rfl
  | star name module =>
    have hquote : '\'' ∉ ("* as " ++ name).toList := by
      simpa using notMem_of_isPlainName hclause (c := '\'') (by decide)
    have hwords : wordsOf (("* as " ++ name).toList ++ " from ".toList) =
        "*" :: "as" :: name :: closingWords := by
      rw [show closingWords = wordsOf "from ".toList from rfl,
        ← wordsOf_append _ (notMem_of_isPlainName hclause (by decide)),
        ← wordsOf_append "as" (by decide), ← wordsOf_append "*" (by decide)]
      simp
    rw [readImport_of_toList hquote hmodule (by simp), hwords]
    rfl
  | @values items texts module hitems =>
    have hquote : '\'' ∉ ("\x7b " ++ Text.commaList texts ++ " \x7d").toList := by
      simpa using quote_notMem_commaList hclause.2 hitems
    rw [readImport_of_toList hquote hmodule (by simp [Text.commaList]), wordsOf_braces]
    show Option.map _ (Option.map _ (readBraces _)) = _
    rw [readBraces_commaList hclause.1 hclause.2 hitems]
    rfl
  | @types items texts module hitems =>
    have hquote : '\'' ∉ ("type \x7b " ++ Text.commaList texts ++ " \x7d").toList := by
      simpa using quote_notMem_commaList hclause.2 hitems
    have hwords : wordsOf (("type \x7b " ++ Text.commaList texts ++ " \x7d").toList ++
        " from ".toList) =
          "type" :: wordsOf (("\x7b " ++ Text.commaList texts ++ " \x7d").toList ++
            " from ".toList) := by
      rw [← wordsOf_append "type" (by decide)]
      simp
    rw [readImport_of_toList hquote hmodule (by simp [Text.commaList]), hwords, wordsOf_braces]
    show Option.map _ (Option.map _ (readBraces _)) = _
    rw [readBraces_commaList hclause.1 hclause.2 hitems]
    rfl

/-- Statements that are rendered alike import alike. -/
theorem asRead_eq_of_render_eq (hs : s.IsPlain) (ht : t.IsPlain) (h : s.render = t.render) :
    s.clause.asRead = t.clause.asRead ∧ s.module = t.module := by
  have hread := readImport_of_writtenAs hs s.writtenAs_render
  rw [h, readImport_of_writtenAs ht t.writtenAs_render] at hread
  obtain ⟨hclause, hmodule⟩ := ImportStatement.mk.inj (Option.some.inj hread)
  exact ⟨hclause.symm, hmodule.symm⟩

end ImportStatement

theorem Dependency.isPlain_of_mem_statements {d : Dependency} {code : String} {allowed : Bool}
    (hexports : ∀ i ∈ d.exports, i.IsPlain) (hpackage : '\'' ∉ d.package.toList)
    {s : ImportStatement} (hs : s ∈ d.statements code allowed) : s.IsPlain := by
  obtain ⟨clause, package⟩ := s
  have hused : ∀ i ∈ d.used code, i.IsPlain := fun i hi => hexports i (mem_used.mp hi).1
  obtain ⟨rfl, ⟨i, hi, rfl⟩ | ⟨hne, rfl⟩ | ⟨hne, rfl⟩⟩ := mem_statements_iff.mp hs
  · refine ⟨?_, hpackage⟩
    have hname := (hused i (List.mem_of_find?_eq_some hi)).1
    show (i.defaultClause allowed).IsPlain
    unfold Import.defaultClause
    split
    · exact hname
    · exact hname
  · exact ⟨⟨hne, fun i hi => hused i (List.mem_filter.mp hi).1⟩, hpackage⟩
  · exact ⟨⟨hne, fun i hi => hused i (List.mem_filter.mp hi).1⟩, hpackage⟩

end RequestGen
