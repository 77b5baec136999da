import Mathlib.Tactic.SplitIfs
import RequestGen.Client.Style

/-! # What import statements bind

The statements for a package are told from what the code refers to: one for the default export that
it uses, one for its values and one for its types (`mem_statements_iff`). A function of the user is
bound if it has a path (`mem_importedNames_mutatorImports`), a model type always
(`mem_importedNames_modelImports`): repetitions are left out, but no name is lost by that. -/

namespace RequestGen

/-- The names that a clause binds. -/
def ImportClause.localNames : ImportClause → List String
  | default name => [name]
  | star name => [name]
  | values items => items.map Import.localName
  | types items => items.map Import.localName

/-- The names that import statements bind. -/
def importedNames (statements : List ImportStatement) : List String :=
  statements.flatMap (·.clause.localNames)

@[simp] theorem importedNames_append (s t : List ImportStatement) :
    importedNames (s ++ t) = importedNames s ++ importedNames t :=
  List.flatMap_append

theorem mem_importedNames {statements : List ImportStatement} {name : String} :
    name ∈ importedNames statements ↔ ∃ s ∈ statements, name ∈ s.clause.localNames :=
  List.mem_flatMap

/-! ### Packages -/

/-- How a default export is imported. -/
def Import.defaultClause (allowsSyntheticDefault : Bool) (i : Import) : ImportClause :=
  if i.isSynthetic && !allowsSyntheticDefault then .star i.name else .default i.name

namespace Dependency

variable {d : Dependency} {code package : String} {allowed : Bool} {clause : ImportClause}

/-- The default export that the code uses. -/
def usedDefault? (d : Dependency) (code : String) : Option Import :=
  (d.used code).find? (·.isDefault)

/-- The values that the code uses. -/
def usedValues (d : Dependency) (code : String) : List Import :=
  (d.used code).filter fun i => !i.isDefault && i.isValue

/-- The types that the code uses. -/
def usedTypes (d : Dependency) (code : String) : List Import :=
  (d.used code).filter fun i => !i.isDefault && !i.isValue

theorem mem_used {i : Import} :
    i ∈ d.used code ↔ i ∈ d.exports ∧ refersTo code i.localName = true :=
  List.mem_filter

/-- The statements for a package: at most one for its default export, its values and its types. -/
theorem mem_statements_iff :
    ⟨clause, package⟩ ∈ d.statements code allowed ↔ package = d.package ∧
      ((∃ i, d.usedDefault? code = some i ∧ clause = i.defaultClause allowed) ∨
        (d.usedValues code ≠ [] ∧ clause = .values (d.usedValues code)) ∨
        (d.usedTypes code ≠ [] ∧ clause = .types (d.usedTypes code))) := by
  have hsome {items : List Import} {c : ImportClause} :
      clause ∈ (if items.isEmpty then [] else [c]) ↔ items ≠ [] ∧ clause = c := by
    cases items <;> simp
  have hclauses : clause ∈ ((d.usedDefault? code).map (Import.defaultClause allowed)).toList ++
      (if (d.usedValues code).isEmpty then [] else [.values (d.usedValues code)]) ++
      (if (d.usedTypes code).isEmpty then [] else [.types (d.usedTypes code)]) ↔
        (∃ i, d.usedDefault? code = some i ∧ clause = i.defaultClause allowed) ∨
          (d.usedValues code ≠ [] ∧ clause = .values (d.usedValues code)) ∨
          (d.usedTypes code ≠ [] ∧ clause = .types (d.usedTypes code)) := by
    rw [List.mem_append, List.mem_append, or_assoc, hsome, hsome, Option.mem_toList,
      Option.map_eq_some_iff]
    simp only [eq_comm (a := clause)]
  constructor
  · intro h
    obtain ⟨_, hmem, heq⟩ := List.mem_map.mp h
    obtain ⟨rfl, rfl⟩ := ImportStatement.mk.inj heq
    exact ⟨rfl, hclauses.mp hmem⟩
  · rintro ⟨rfl, h⟩
    exact List.mem_map.mpr ⟨clause, hclauses.mpr h, rfl⟩

theorem module_of_mem_statements {s : ImportStatement} (h : s ∈ d.statements code allowed) :
    s.module = d.package :=
  (mem_statements_iff.mp h).1

theorem exists_of_mem_importedNames {name : String}
    (h : name ∈ importedNames (d.statements code allowed)) :
    ∃ i ∈ d.exports, name = i.name ∨ name = i.localName := by
  obtain ⟨s, hs, hname⟩ := mem_importedNames.mp h
  have hexport {i : Import} (hi : i ∈ d.used code) : i ∈ d.exports := (mem_used.mp hi).1
  rcases (mem_statements_iff.mp hs).2 with ⟨i, hi, hclause⟩ | ⟨-, hclause⟩ | ⟨-, hclause⟩
  · rw [hclause, Import.defaultClause] at hname
    refine ⟨i, hexport (List.mem_of_find?_eq_some hi), .inl ?_⟩
    split at hname <;> exact List.mem_singleton.mp hname
  · rw [hclause] at hname
    obtain ⟨i, hi, rfl⟩ := List.mem_map.mp hname
    exact ⟨i, hexport (List.mem_filter.mp hi).1, .inr rfl⟩
  · rw [hclause] at hname
    obtain ⟨i, hi, rfl⟩ := List.mem_map.mp hname
    exact ⟨i, hexport (List.mem_filter.mp hi).1, .inr rfl⟩

/-! A package whose default export some compilers have to make up, and which else has types. -/

section Synthetic

variable {main : String} {types : List String}
  (h : d.exports = .syntheticDefault main :: types.map Import.type)

include h

theorem usedDefault?_eq : d.usedDefault? code =
    if refersTo code main = true then some (.syntheticDefault main) else none := by
  have hlocal : (Import.syntheticDefault main).localName = main := rfl
  rw [usedDefault?, used, h]
  split
  · next hmain =>
    rw [List.filter_cons_of_pos (by rwa [hlocal])]
    rfl
  · next hmain =>
    rw [List.filter_cons_of_neg (by rwa [hlocal]), List.find?_eq_none]
    intro i hi
    obtain ⟨type, -, rfl⟩ := List.mem_map.mp (List.mem_filter.mp hi).1
    exact Bool.false_ne_true

theorem default_mem_statements_iff {name : String} :
    ⟨.default name, package⟩ ∈ d.statements code allowed ↔
      package = d.package ∧ name = main ∧ refersTo code main = true ∧ allowed = true := by
  rw [mem_statements_iff, usedDefault?_eq h]
  cases allowed <;> split <;> simp_all [Import.defaultClause, Import.syntheticDefault]

theorem star_mem_statements_iff {name : String} :
    ⟨.star name, package⟩ ∈ d.statements code allowed ↔
      package = d.package ∧ name = main ∧ refersTo code main = true ∧ allowed = false := by
  rw [mem_statements_iff, usedDefault?_eq h]
  cases allowed <;> split <;> simp_all [Import.defaultClause, Import.syntheticDefault]

theorem exists_types_mem_statements {type : String} (ht : type ∈ types)
    (hr : refersTo code type = true) :
    ∃ items, ⟨.types items, d.package⟩ ∈ d.statements code allowed ∧
      type ∈ items.map Import.localName := by
  have hused : Import.type type ∈ d.usedTypes code := by
    refine List.mem_filter.mpr ⟨mem_used.mpr ⟨?_, hr⟩, rfl⟩
    rw [h]
    exact List.mem_cons_of_mem _ (List.mem_map_of_mem ht)
  refine ⟨d.usedTypes code, mem_statements_iff.mpr ⟨rfl, .inr (.inr ⟨?_, rfl⟩)⟩, ?_⟩
  · exact List.ne_nil_of_mem hused
  · exact List.mem_map.mpr ⟨_, hused, rfl⟩

end Synthetic

end Dependency

/-! ### Functions of the user and model types -/

theorem mem_importedNames_mutatorImports_go {seen : List String} {mutators : List Mutator}
    {name : String} :
    name ∈ importedNames (mutatorImports.go seen mutators) ↔
      name ∉ seen ∧ ∃ m ∈ mutators, m.name = name ∧ m.path ≠ "" := by
  induction mutators generalizing seen with
  | nil => simp [mutatorImports.go, importedNames]
  | cons m mutators ih =>
    rw [mutatorImports.go]
    split
    · next hskip =>
      -- a function that is left out adds nothing: its name is seen or it has no path
      rw [ih, and_congr_right_iff]
      intro hname
      constructor
      · rintro ⟨other, hother, h⟩
        exact ⟨other, List.mem_cons_of_mem _ hother, h⟩
      · rintro ⟨other, hother, rfl, hpath⟩
        rcases List.mem_cons.mp hother with rfl | hother
        · exact absurd hskip (not_or.mpr ⟨hname, hpath⟩)
        · exact ⟨other, hother, rfl, hpath⟩
    · next hkeep =>
      obtain ⟨hseen, hpath⟩ := not_or.mp hkeep
      have hown : (if m.isDefault then ImportClause.default m.name
          else .values [{ name := m.name }]).localNames = [m.name] := by
        split <;> rfl
      show name ∈ ImportClause.localNames _ ++ importedNames (mutatorImports.go _ _) ↔ _
      rw [hown, List.mem_append, List.mem_singleton, ih]
      by_cases heq : name = m.name
      · subst heq
        simp [hseen, hpath]
      · simp [heq, Ne.symm heq]

/-- The functions of the user that are bound: those with a path. -/
theorem mem_importedNames_mutatorImports {mutators : List Mutator} {name : String} :
    name ∈ importedNames (mutatorImports mutators) ↔
      ∃ m ∈ mutators, m.name = name ∧ m.path ≠ "" := by
  rw [mutatorImports, mem_importedNames_mutatorImports_go]
  simp

theorem mem_dedupe_go {seen : List (String × Option String)} {imports : List Import}
    {name : String} {localAlias : Option String} :
    (name, localAlias) ∈ (Import.dedupe.go seen imports).map (fun i => (i.name, i.localAlias)) ↔
      (name, localAlias) ∉ seen ∧
        (name, localAlias) ∈ imports.map (fun i => (i.name, i.localAlias)) := by
  induction imports generalizing seen with
  | nil => simp [Import.dedupe.go]
  | cons i imports ih =>
    rw [Import.dedupe.go]
    split
    · next hseen =>
      rw [ih, List.map_cons, List.mem_cons, and_congr_right_iff]
      intro hname
      exact ⟨.inr, fun h => h.resolve_left fun heq => hname (heq ▸ hseen)⟩
    · next hseen =>
      rw [List.map_cons, List.mem_cons, ih, List.map_cons, List.mem_cons, List.mem_cons]
      by_cases heq : (name, localAlias) = (i.name, i.localAlias)
      · simp [heq, hseen]
      · simp [heq]

theorem mem_dedupe {imports : List Import} {name : String} {localAlias : Option String} :
    (name, localAlias) ∈ (Import.dedupe imports).map (fun i => (i.name, i.localAlias)) ↔
      (name, localAlias) ∈ imports.map (fun i => (i.name, i.localAlias)) := by
  rw [Import.dedupe, mem_dedupe_go]
  simp

theorem mem_importedNames_modelImports {imports : List Import} {schemas name : String} :
    name ∈ importedNames (modelImports imports schemas) ↔ ∃ i ∈ imports, i.localName = name := by
  have hlocal (i j : Import) (h : (i.name, i.localAlias) = (j.name, j.localAlias)) :
      i.localName = j.localName := by
    obtain ⟨hname, halias⟩ := Prod.mk.inj h
    rw [Import.localName, Import.localName, hname, halias]
  have hnames : name ∈ (Import.dedupe imports).map Import.localName ↔
      ∃ i ∈ imports, i.localName = name := by
    constructor
    · intro h
      obtain ⟨i, hi, rfl⟩ := List.mem_map.mp h
      obtain ⟨j, hj, heq⟩ := List.mem_map.mp (mem_dedupe.mp (List.mem_map_of_mem hi))
      exact ⟨j, hj, hlocal j i heq⟩
    · rintro ⟨i, hi, rfl⟩
      obtain ⟨j, hj, heq⟩ := List.mem_map.mp (mem_dedupe.mpr (List.mem_map_of_mem hi))
      exact List.mem_map.mpr ⟨j, hj, hlocal j i heq⟩
  rw [← hnames, modelImports]
  split
  · next hnil => simp [importedNames, hnil]
  · simp [importedNames, ImportClause.localNames]

end RequestGen
