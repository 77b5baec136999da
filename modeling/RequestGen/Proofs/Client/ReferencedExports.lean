import RequestGen.Proofs.Client.BoundOnce
import RequestGen.Proofs.Client.ImportLines

/-! # The exports that a code refers to

A code is cut into its names, the longest runs of characters that continue names (`nameRuns`). The
search for a name between other characters finds it exactly if it is one of them, and it may find
texts that are no name (`mem_nameRuns_iff`). Values and types that are found are imported, each
under its local name. Of the default exports of a package only the first that is found is imported,
and under its own name, although it is looked for under its alias. The packages of the
client styles have one default export at most, under its own name, and of them what the code refers
to is imported, and nothing else (`Style.bindsReferenced_dependencies`); of any packages it is only
under the conditions of `bindsReferenced_iff`. -/

namespace RequestGen

open Text (isNameChar)

/-! ### The names of a code -/

namespace Code

/-- The pieces of a code between the characters that continue no name. -/
def pieces (s : List Char) : List (List Char) := s.splitOnP fun c => !isNameChar c

/-- The names of a code: its longest runs of characters that continue names. -/
def nameRuns (code : String) : List String :=
  ((pieces code.toList).filter (· ≠ [])).map String.ofList

theorem pieces_append_cons {c : Char} (hc : isNameChar c = false) (s t : List Char) :
    pieces (s ++ c :: t) = pieces s ++ pieces t :=
  List.splitOnP_append_cons s t (by simp [hc])

theorem pieces_of_isNameChar {s : List Char} (hs : ∀ c ∈ s, isNameChar c = true) :
    pieces s = [s] :=
  List.splitOnP_eq_singleton fun c hc => by simp [hs c hc]

@[elab_as_elim]
theorem run_induction {motive : List Char → Prop} (s : List Char)
    (run : ∀ s, (∀ c ∈ s, isNameChar c = true) → motive s)
    (next : ∀ s c t, (∀ c ∈ s, isNameChar c = true) → isNameChar c = false → motive t →
      motive (s ++ c :: t)) : motive s := by
  induction hn : s.length using Nat.strongRecOn generalizing s with
  | ind n ih =>
    have hfirst : ∀ c ∈ s.takeWhile isNameChar, isNameChar c = true :=
      List.all_eq_true.mp List.all_takeWhile
    have hsplit := List.takeWhile_append_dropWhile (p := isNameChar) (l := s)
    cases hrest : s.dropWhile isNameChar with
    | nil =>
      rw [hrest, List.append_nil] at hsplit
      exact run s (hsplit ▸ hfirst)
    | cons c t =>
      have hc : isNameChar c = false := by
        simpa [hrest] using List.head?_dropWhile_not isNameChar s
      rw [hrest] at hsplit
      have hlt : t.length < n := by
        rw [← hn, ← hsplit, List.length_append, List.length_cons]
        omega
      exact hsplit ▸ next _ c t hfirst hc (ih t.length hlt t rfl)

/-- A name is found exactly if it is one of the pieces. -/
theorem refersFrom_iff_mem_pieces {word : List Char} (hne : word ≠ [])
    (hw : ∀ c ∈ word, isNameChar c = true) (s : List Char) :
    refersFrom word false s = true ↔ word ∈ pieces s := by
  have hown {run : List Char} (hrun : ∀ c ∈ run, isNameChar c = true) :
      refersFrom word false run = true ↔ word = run := by
    have hplain : IsPlainName (String.ofList word) :=
      ⟨fun h => hne (String.ofList_eq_empty_iff.mp h), by simpa using hw⟩
    have h := refersTo_of_isNameChar hplain (s := String.ofList run) (by simpa using hrun)
    rw [refersTo, String.toList_ofList, String.toList_ofList] at h
    rw [h, decide_eq_true_iff, eq_comm, String.ofList_inj]
  induction s using run_induction with
  | run s hs => rw [hown hs, pieces_of_isNameChar hs, List.mem_singleton]
  | next s c t hs hc ih =>
    rw [refersFrom_append_cons hne hw hc, Bool.or_eq_true, hown hs, pieces_append_cons hc,
      pieces_of_isNameChar hs, List.singleton_append, List.mem_cons]
    exact or_congr_right ih

theorem isNameChar_of_mem_pieces {s piece : List Char} (h : piece ∈ pieces s) :
    ∀ c ∈ piece, isNameChar c = true := by
  induction s using run_induction with
  | run s hs =>
    rw [pieces_of_isNameChar hs, List.mem_singleton] at h
    exact h ▸ hs
  | next s c t hs hc ih =>
    rw [pieces_append_cons hc, pieces_of_isNameChar hs, List.singleton_append, List.mem_cons] at h
    rcases h with rfl | h
    · exact hs
    · exact ih h

variable {code name : String}

theorem mem_nameRuns : name ∈ nameRuns code ↔ name ≠ "" ∧ name.toList ∈ pieces code.toList := by
  rw [nameRuns, List.mem_map]
  constructor
  · rintro ⟨piece, hpiece, rfl⟩
    rw [String.toList_ofList]
    obtain ⟨hmem, hne⟩ := List.mem_filter.mp hpiece
    exact ⟨fun h => of_decide_eq_true hne (String.ofList_eq_empty_iff.mp h), hmem⟩
  · rintro ⟨hne, hmem⟩
    refine ⟨name.toList, List.mem_filter.mpr ⟨hmem, ?_⟩, String.ofList_toList⟩
    exact decide_eq_true fun h => hne (String.toList_eq_nil_iff.mp h)

/-- The names of a code are the names that the search finds. -/
theorem mem_nameRuns_iff : name ∈ nameRuns code ↔ IsPlainName name ∧ refersTo code name = true := by
  rw [mem_nameRuns]
  constructor
  · rintro ⟨hne, hmem⟩
    have hplain : IsPlainName name := ⟨hne, isNameChar_of_mem_pieces hmem⟩
    have hchars : name.toList ≠ [] := fun h => hne (String.toList_eq_nil_iff.mp h)
    exact ⟨hplain, (refersFrom_iff_mem_pieces hchars hplain.2 _).mpr hmem⟩
  · rintro ⟨hplain, hrefers⟩
    have hchars : name.toList ≠ [] := fun h => hplain.1 (String.toList_eq_nil_iff.mp h)
    exact ⟨hplain.1, (refersFrom_iff_mem_pieces hchars hplain.2 _).mp hrefers⟩

end Code

open Code (nameRuns)

/-! ### How an export is bound -/

/-- The clause binds the export under its local name: a default export as the default or as the
whole module, others among the named values or types, where they are written with their alias. -/
def Import.BoundBy (i : Import) : ImportClause → Prop
  | .default name => i.isDefault = true ∧ name = i.localName
  | .star name => i.isDefault = true ∧ name = i.localName
  | .values items => i.isDefault = false ∧ i.isValue = true ∧ i ∈ items
  | .types items => i.isDefault = false ∧ i.isValue = false ∧ i ∈ items

/-- The statements bind what the code refers to: every export whose local name is a name of the
code, by a statement for its package, and no name but those of the code. -/
structure BindsReferenced (dependencies : List Dependency) (code : String)
    (statements : List ImportStatement) : Prop where
  bound : ∀ d ∈ dependencies, ∀ i ∈ d.exports, i.localName ∈ nameRuns code →
    ∃ s ∈ statements, s.module = d.package ∧ i.BoundBy s.clause
  referenced : ∀ name ∈ importedNames statements, name ∈ nameRuns code

namespace Dependency

variable {d : Dependency} {dependencies : List Dependency} {code : String} {allowed : Bool}
  {i : Import}

/-- A default export under its own name is bound by the first default export of that name that the
code uses of the package. -/
theorem bound_default_iff (hi : i.isDefault = true) :
    (∃ s ∈ dependencyImports dependencies code allowed,
        s.module = d.package ∧ i.BoundBy s.clause) ↔
      ∃ other ∈ dependencies, other.package = d.package ∧
        ∃ first, other.usedDefault? code = some first ∧ first.name = i.localName := by
  constructor
  · rintro ⟨⟨clause, package⟩, hs, rfl, hbound⟩
    obtain ⟨other, hother, hs⟩ := List.mem_flatMap.mp hs
    obtain ⟨hpackage, ⟨first, hfirst, rfl⟩ | ⟨-, rfl⟩ | ⟨-, rfl⟩⟩ := mem_statements_iff.mp hs
    · refine ⟨other, hother, hpackage.symm, first, hfirst, ?_⟩
      unfold Import.defaultClause at hbound
      split at hbound
      · exact hbound.2
      · exact hbound.2
    · exact absurd (hi.symm.trans hbound.1) (by decide)
    · exact absurd (hi.symm.trans hbound.1) (by decide)
  · rintro ⟨other, hother, hpackage, first, hfirst, hname⟩
    refine ⟨⟨first.defaultClause allowed, d.package⟩, List.mem_flatMap.mpr ⟨other, hother, ?_⟩, rfl,
      ?_⟩
    · exact mem_statements_iff.mpr ⟨hpackage.symm, .inl ⟨first, hfirst, rfl⟩⟩
    · show i.BoundBy (first.defaultClause allowed)
      unfold Import.defaultClause
      split
      · exact ⟨hi, hname⟩
      · exact ⟨hi, hname⟩

theorem exists_boundBy_of_mem_used (hd : d ∈ dependencies) (hi : i ∈ d.used code)
    (hdefault : i.isDefault = false) :
    ∃ s ∈ dependencyImports dependencies code allowed,
      s.module = d.package ∧ i.BoundBy s.clause := by
  cases hvalue : i.isValue with
  | true =>
    have hmem : i ∈ d.usedValues code := List.mem_filter.mpr ⟨hi, by simp [hdefault, hvalue]⟩
    refine ⟨⟨.values (d.usedValues code), d.package⟩, List.mem_flatMap.mpr ⟨d, hd, ?_⟩, rfl,
      hdefault, hvalue, hmem⟩
    exact mem_statements_iff.mpr ⟨rfl, .inr (.inl ⟨List.ne_nil_of_mem hmem, rfl⟩)⟩
  | false =>
    have hmem : i ∈ d.usedTypes code := List.mem_filter.mpr ⟨hi, by simp [hdefault, hvalue]⟩
    refine ⟨⟨.types (d.usedTypes code), d.package⟩, List.mem_flatMap.mpr ⟨d, hd, ?_⟩, rfl,
      hdefault, hvalue, hmem⟩
    exact mem_statements_iff.mpr ⟨rfl, .inr (.inr ⟨List.ne_nil_of_mem hmem, rfl⟩)⟩

/-- The names that are bound: those of the first default exports, and the local names of the values
and types that are found. -/
theorem mem_importedNames_dependencyImports_iff {name : String} :
    name ∈ importedNames (dependencyImports dependencies code allowed) ↔
      ∃ d ∈ dependencies, (∃ first, d.usedDefault? code = some first ∧ first.name = name) ∨
        ∃ i ∈ d.used code, i.isDefault = false ∧ i.localName = name := by
  have hflat : importedNames (dependencyImports dependencies code allowed) =
      dependencies.flatMap fun d => importedNames (d.statements code allowed) :=
    List.flatMap_assoc
  rw [hflat, List.mem_flatMap]
  refine exists_congr fun d => and_congr_right fun _ => ?_
  rw [importedNames_statements, List.mem_append, List.mem_append, Option.mem_toList,
    Option.map_eq_some_iff, or_assoc]
  refine or_congr_right ?_
  simp only [usedValues, usedTypes, List.mem_map, List.mem_filter, Bool.and_eq_true,
    Bool.not_eq_true']
  constructor
  · rintro (⟨i, ⟨hi, hdefault, -⟩, rfl⟩ | ⟨i, ⟨hi, hdefault, -⟩, rfl⟩)
    · exact ⟨i, hi, hdefault, rfl⟩
    · exact ⟨i, hi, hdefault, rfl⟩
  · rintro ⟨i, hi, hdefault, rfl⟩
    cases hvalue : i.isValue with
    | true => exact .inl ⟨i, ⟨hi, hdefault, hvalue⟩, rfl⟩
    | false => exact .inr ⟨i, ⟨hi, hdefault, hvalue⟩, rfl⟩

/-- Every export that the code refers to is bound exactly if each default export among them has the
name that its package is imported by. -/
theorem forall_bound_iff :
    (∀ d ∈ dependencies, ∀ i ∈ d.exports, i.localName ∈ nameRuns code →
        ∃ s ∈ dependencyImports dependencies code allowed,
          s.module = d.package ∧ i.BoundBy s.clause) ↔
      ∀ d ∈ dependencies, ∀ i ∈ d.exports, i.isDefault = true → i.localName ∈ nameRuns code →
        ∃ other ∈ dependencies, other.package = d.package ∧
          ∃ first, other.usedDefault? code = some first ∧ first.name = i.localName := by
  constructor
  · intro h d hd i hi hdefault hname
    exact (bound_default_iff hdefault).mp (h d hd i hi hname)
  · intro h d hd i hi hname
    cases hdefault : i.isDefault with
    | true => exact (bound_default_iff hdefault).mpr (h d hd i hi hdefault hname)
    | false =>
      have hused : i ∈ d.used code := mem_used.mpr ⟨hi, (Code.mem_nameRuns_iff.mp hname).2⟩
      exact exists_boundBy_of_mem_used hd hused hdefault

/-- No other name is bound exactly if the names of the imported default exports are names of the
code and the values and types are found under names. -/
theorem forall_referenced_iff :
    (∀ name ∈ importedNames (dependencyImports dependencies code allowed),
        name ∈ nameRuns code) ↔
      (∀ d ∈ dependencies, ∀ first, d.usedDefault? code = some first →
        first.name ∈ nameRuns code) ∧
      ∀ d ∈ dependencies, ∀ i ∈ d.used code, i.isDefault = false → IsPlainName i.localName := by
  constructor
  · refine fun h => ⟨fun d hd first hfirst => ?_, fun d hd i hi hdefault => ?_⟩
    · exact h _ (mem_importedNames_dependencyImports_iff.mpr ⟨d, hd, .inl ⟨first, hfirst, rfl⟩⟩)
    · have hmem := h _ (mem_importedNames_dependencyImports_iff.mpr
        ⟨d, hd, .inr ⟨i, hi, hdefault, rfl⟩⟩)
      exact (Code.mem_nameRuns_iff.mp hmem).1
  · rintro ⟨hfirsts, hplain⟩ name hname
    obtain ⟨d, hd, ⟨first, hfirst, rfl⟩ | ⟨i, hi, hdefault, rfl⟩⟩ :=
      mem_importedNames_dependencyImports_iff.mp hname
    · exact hfirsts d hd first hfirst
    · exact Code.mem_nameRuns_iff.mpr ⟨hplain d hd i hi hdefault, (mem_used.mp hi).2⟩

end Dependency

open Dependency

/-! ### The packages of the client styles -/

/-- A package with at most one default export, whose exports are names and keep them. -/
def Dependency.IsSimple (d : Dependency) : Prop :=
  (∀ i ∈ d.exports, IsPlainName i.name ∧ i.localName = i.name) ∧
    ∀ i ∈ d.exports, ∀ j ∈ d.exports, i.isDefault = true → j.isDefault = true → i = j

instance (d : Dependency) : Decidable d.IsSimple := inferInstanceAs (Decidable (_ ∧ _))

theorem bindsReferenced_of_isSimple {dependencies : List Dependency} {code : String}
    {allowed : Bool} (h : ∀ d ∈ dependencies, d.IsSimple) :
    BindsReferenced dependencies code (dependencyImports dependencies code allowed) where
  bound := by
    refine forall_bound_iff.mpr fun d hd i hi hdefault hname => ⟨d, hd, rfl, ?_⟩
    have hused : i ∈ d.used code := mem_used.mpr ⟨hi, (Code.mem_nameRuns_iff.mp hname).2⟩
    obtain ⟨first, hfirst⟩ : ∃ first, d.usedDefault? code = some first :=
      Option.isSome_iff_exists.mp (List.find?_isSome.mpr ⟨i, hused, hdefault⟩)
    have hmem := (mem_used.mp (List.mem_of_find?_eq_some hfirst)).1
    obtain rfl := (h d hd).2 i hi first hmem hdefault (List.find?_some hfirst)
    exact ⟨i, hfirst, ((h d hd).1 i hi).2.symm⟩
  referenced := by
    refine forall_referenced_iff.mpr ⟨fun d hd first hfirst => ?_, fun d hd i hi _ => ?_⟩
    · obtain ⟨hmem, hrefers⟩ := mem_used.mp (List.mem_of_find?_eq_some hfirst)
      obtain ⟨hplain, hlocal⟩ := (h d hd).1 first hmem
      exact Code.mem_nameRuns_iff.mpr ⟨hplain, hlocal ▸ hrefers⟩
    · obtain ⟨hplain, hlocal⟩ := (h d hd).1 i (mem_used.mp hi).1
      rwa [hlocal]

theorem Style.bindsReferenced_dependencies (style : Style)
    (hasGlobalMutator hasSerializerOptions allowed : Bool) (code : String) :
    BindsReferenced (style.dependencies hasGlobalMutator hasSerializerOptions) code
      (dependencyImports (style.dependencies hasGlobalMutator hasSerializerOptions) code
        allowed) := by
  refine bindsReferenced_of_isSimple ?_
  cases style <;> cases hasGlobalMutator <;> cases hasSerializerOptions <;> decide

/-! ### Any packages -/

/-- What the lines import of packages is what the code refers to exactly if each default export that
it refers to has the name that the first one found of its package is imported by, that name is one
of the code, and the values and types are found under names. The packages of the client styles are
of that kind for any code. -/
theorem bindsReferenced_iff {dependencies : List Dependency} {code : String} {allowed : Bool} :
    List.Forall₂ ImportStatement.WrittenAs (dependencyImports dependencies code allowed)
      ((dependencyImports dependencies code allowed).map (·.render)) ∧
    (BindsReferenced dependencies code (dependencyImports dependencies code allowed) ↔
      (∀ d ∈ dependencies, ∀ i ∈ d.exports, i.isDefault = true → i.localName ∈ nameRuns code →
        ∃ other ∈ dependencies, other.package = d.package ∧
          ∃ first, other.usedDefault? code = some first ∧ first.name = i.localName) ∧
      (∀ d ∈ dependencies, ∀ first, d.usedDefault? code = some first →
        first.name ∈ nameRuns code) ∧
      ∀ d ∈ dependencies, ∀ i ∈ d.used code, i.isDefault = false → IsPlainName i.localName) ∧
    ∀ (style : Style) (hasGlobalMutator hasSerializerOptions : Bool),
      BindsReferenced (style.dependencies hasGlobalMutator hasSerializerOptions) code
        (dependencyImports (style.dependencies hasGlobalMutator hasSerializerOptions) code
          allowed) := by
  refine ⟨ImportStatement.forall₂_writtenAs_render _, ⟨?_, ?_⟩,
    fun style hasGlobalMutator hasSerializerOptions => style.bindsReferenced_dependencies ..⟩
  · rintro ⟨hbound, hreferenced⟩
    exact ⟨forall_bound_iff.mp hbound, forall_referenced_iff.mp hreferenced⟩
  · rintro ⟨hbound, hreferenced⟩
    exact ⟨forall_bound_iff.mpr hbound, forall_referenced_iff.mpr hreferenced⟩

/-- A package whose default export is known under an alias. -/
def axiosAsHttp : Dependency where
  exports := [{ Import.syntheticDefault "axios" with localAlias := some "http" }]
  package := "axios"

/-- A package with two default exports. -/
def swrTwice : Dependency where
  exports := [.defaultValue "useSwr", .defaultValue "SWRConfig"]
  package := "swr"

/-- A package with an export that is no name. -/
def fastDeepEqual : Dependency where
  exports := [{ name := "deep-equal", isValue := true }]
  package := "fast"

/-- A default export is imported under its own name, whatever the code calls it; of two only the
first is imported; and a text that is no name is found, too. -/
theorem not_bindsReferenced_examples :
    ¬ BindsReferenced [axiosAsHttp] "http.get(url)"
        (dependencyImports [axiosAsHttp] "http.get(url)" true) ∧
      ¬ BindsReferenced [swrTwice] "useSwr(SWRConfig)"
        (dependencyImports [swrTwice] "useSwr(SWRConfig)" true) ∧
      ¬ BindsReferenced [fastDeepEqual] "deep-equal"
        (dependencyImports [fastDeepEqual] "deep-equal" true) := by
  refine ⟨fun h => ?_, fun h => ?_, fun h => ?_⟩
  · have hfirst := (forall_referenced_iff.mp h.referenced).1 axiosAsHttp List.mem_cons_self
      { Import.syntheticDefault "axios" with localAlias := some "http" } rfl
    exact absurd hfirst (by decide)
  · obtain ⟨other, hother, -, first, hfirst, hname⟩ := forall_bound_iff.mp h.bound swrTwice
      List.mem_cons_self (.defaultValue "SWRConfig") (by decide) rfl (by decide)
    obtain rfl := List.mem_singleton.mp hother
    obtain rfl : .defaultValue "useSwr" = first := Option.some.inj hfirst
    exact absurd hname (by decide)
  · have hplain := (forall_referenced_iff.mp h.referenced).2 fastDeepEqual List.mem_cons_self
      { name := "deep-equal", isValue := true } (by decide) rfl
    exact absurd hplain (by decide)

end RequestGen
