import Mathlib.Data.List.Nodup
import RequestGen.Proofs.Client.ImportedNames

/-! # Names that are bound once

Each kind of import statement leaves out repetitions in its own way. What is imported of packages is
bound once if their exports have different names (`nodup_importedNames_dependencyImports`). Of the
functions of the user the first with a path stands for all of its name (`mem_mutatorImports_iff`),
so their names are bound once whatever they are (`nodup_importedNames_mutatorImports`). Model types
are told apart by name and alias, and bound once if those that differ also have different local
names (`nodup_importedNames_modelImports_iff`). -/

namespace RequestGen

/-! ### Packages -/

namespace Dependency

variable {d : Dependency} {code : String} {allowed : Bool}

theorem importedNames_statements : importedNames (d.statements code allowed) =
    ((d.usedDefault? code).map (·.name)).toList ++ (d.usedValues code).map Import.localName ++
      (d.usedTypes code).map Import.localName := by
  have hdefault : ((d.usedDefault? code).map (Import.defaultClause allowed)).toList.flatMap
      ImportClause.localNames = ((d.usedDefault? code).map (·.name)).toList := by
    cases d.usedDefault? code with
    | none => rfl
    | some i =>
      show ImportClause.localNames (i.defaultClause allowed) ++ [] = [i.name]
      unfold Import.defaultClause
      split <;> rfl
  have hsome (items : List Import) (clause : List Import → ImportClause)
      (hclause : (clause items).localNames = items.map Import.localName) :
      (if items.isEmpty then [] else [clause items]).flatMap ImportClause.localNames =
        items.map Import.localName := by
    cases items with
    | nil => rfl
    | cons i items =>
      show (clause (i :: items)).localNames ++ [] = _
      rw [hclause, List.append_nil]
  have hstatements : importedNames (d.statements code allowed) =
      (((d.usedDefault? code).map (Import.defaultClause allowed)).toList ++
        (if (d.usedValues code).isEmpty then [] else [ImportClause.values (d.usedValues code)]) ++
        (if (d.usedTypes code).isEmpty then []
          else [ImportClause.types (d.usedTypes code)])).flatMap ImportClause.localNames :=
    List.flatMap_map _ _ _
  rw [hstatements, List.flatMap_append, List.flatMap_append, hdefault,
    hsome _ ImportClause.values rfl, hsome _ ImportClause.types rfl]

/-- The exports of a package have different names, and none is renamed. -/
def HasPlainExports (d : Dependency) : Prop :=
  (d.exports.map (·.name)).Nodup ∧ ∀ i ∈ d.exports, i.localName = i.name

theorem mem_exports_of_mem_importedNames (h : d.HasPlainExports) {name : String}
    (hname : name ∈ importedNames (d.statements code allowed)) : name ∈ d.exports.map (·.name) := by
  obtain ⟨i, hi, rfl | rfl⟩ := exists_of_mem_importedNames hname
  · exact List.mem_map_of_mem hi
  · rw [h.2 i hi]
    exact List.mem_map_of_mem hi

theorem nodup_importedNames_statements (h : d.HasPlainExports) :
    (importedNames (d.statements code allowed)).Nodup := by
  obtain ⟨hnodup, hlocal⟩ := h
  have hused {p : Import → Bool} {i : Import} (hi : i ∈ (d.used code).filter p) :
      i ∈ d.exports ∧ p i = true :=
    ⟨(mem_used.mp (List.mem_filter.mp hi).1).1, (List.mem_filter.mp hi).2⟩
  have hnames (p : Import → Bool) : ((d.used code).filter p).map Import.localName =
      ((d.used code).filter p).map (·.name) :=
    List.map_congr_left fun i hi => hlocal i (hused hi).1
  have hpart (p : Import → Bool) : (((d.used code).filter p).map (·.name)).Nodup :=
    hnodup.sublist ((List.filter_sublist.trans List.filter_sublist).map _)
  have hdefault {i : Import} (hi : d.usedDefault? code = some i) :
      i ∈ d.exports ∧ i.isDefault = true :=
    ⟨(mem_used.mp (List.mem_of_find?_eq_some hi)).1, List.find?_some hi⟩
  -- two exports of one name are one export, and the three parts tell exports apart by their flags
  have hapart {p q : Import → Bool} {i j : Import} (hi : i ∈ d.exports ∧ p i = true)
      (hj : j ∈ d.exports ∧ q j = true) (hpq : ∀ k, (p k && q k) = false) : i.name ≠ j.name := by
    intro hij
    obtain rfl := List.inj_on_of_nodup_map hnodup hi.1 hj.1 hij
    simpa [hi.2, hj.2] using hpq i
  rw [importedNames_statements, usedValues, usedTypes, hnames, hnames, List.nodup_append,
    List.nodup_append]
  refine ⟨⟨?_, hpart _, ?_⟩, hpart _, ?_⟩
  · cases d.usedDefault? code <;> simp
  · intro a ha b hb
    obtain ⟨i, hi, rfl⟩ := Option.map_eq_some_iff.mp (Option.mem_toList.mp ha)
    obtain ⟨j, hj, rfl⟩ := List.mem_map.mp hb
    exact hapart (hdefault hi) (hused hj) fun k => by cases k.isDefault <;> simp
  · intro a ha b hb
    obtain ⟨j, hj, rfl⟩ := List.mem_map.mp hb
    rcases List.mem_append.mp ha with ha | ha
    · obtain ⟨i, hi, rfl⟩ := Option.map_eq_some_iff.mp (Option.mem_toList.mp ha)
      exact hapart (hdefault hi) (hused hj) fun k => by cases k.isDefault <;> simp
    · obtain ⟨i, hi, rfl⟩ := List.mem_map.mp ha
      exact hapart (hused hi) (hused hj) fun k => by cases k.isValue <;> simp

end Dependency

/-- If the packages have different exports throughout, what is imported of them is bound once. -/
theorem nodup_importedNames_dependencyImports {dependencies : List Dependency} {code : String}
    {allowed : Bool} (hplain : ∀ d ∈ dependencies, d.HasPlainExports)
    (hnodup : (dependencies.flatMap fun d => d.exports.map (·.name)).Nodup) :
    (importedNames (dependencyImports dependencies code allowed)).Nodup := by
  have hflat : importedNames (dependencyImports dependencies code allowed) =
      dependencies.flatMap fun d => importedNames (d.statements code allowed) :=
    List.flatMap_assoc
  rw [hflat, List.nodup_flatMap]
  refine ⟨fun d hd => Dependency.nodup_importedNames_statements (hplain d hd), ?_⟩
  refine (List.nodup_flatMap.mp hnodup).2.imp_of_mem fun {d other} hd hother hdisjoint => ?_
  intro name hname hagain
  exact hdisjoint (Dependency.mem_exports_of_mem_importedNames (hplain d hd) hname)
    (Dependency.mem_exports_of_mem_importedNames (hplain other hother) hagain)

/-! ### Functions of the user -/

namespace Mutator

/-- The statement that imports a function of the user from its path, in its own form. -/
def importStatement (m : Mutator) : ImportStatement where
  clause := if m.isDefault then .default m.name else .values [{ name := m.name }]
  module := m.path

variable {m other : Mutator}

theorem localNames_importStatement : m.importStatement.clause.localNames = [m.name] := by
  unfold importStatement
  dsimp only
  split <;> rfl

theorem importStatement_inj : m.importStatement = other.importStatement ↔
    m.name = other.name ∧ m.path = other.path ∧ m.isDefault = other.isDefault := by
  unfold importStatement
  rw [ImportStatement.mk.injEq]
  cases m.isDefault <;> cases other.isDefault <;> simp [and_comm]

/-- The first of the functions with that name and a path. -/
def firstNamed? (mutators : List Mutator) (name : String) : Option Mutator :=
  mutators.find? fun m => m.name = name && m.path ≠ ""

theorem exists_firstNamed? {mutators : List Mutator} (hm : m ∈ mutators) (hpath : m.path ≠ "") :
    ∃ first, firstNamed? mutators m.name = some first := by
  rw [← Option.isSome_iff_exists, firstNamed?, List.find?_isSome]
  exact ⟨m, hm, by simpa using hpath⟩

theorem of_firstNamed? {mutators : List Mutator} {name : String}
    (h : firstNamed? mutators name = some m) : m ∈ mutators ∧ m.name = name ∧ m.path ≠ "" := by
  have hfound := List.find?_some h
  rw [Bool.and_eq_true, decide_eq_true_iff, decide_eq_true_iff] at hfound
  exact ⟨List.mem_of_find?_eq_some h, hfound⟩

end Mutator

theorem mem_mutatorImports_go_iff {seen : List String} {mutators : List Mutator}
    {s : ImportStatement} :
    s ∈ mutatorImports.go seen mutators ↔
      ∃ m, m.name ∉ seen ∧ Mutator.firstNamed? mutators m.name = some m ∧
        s = m.importStatement := by
  induction mutators generalizing seen with
  | nil => simp [mutatorImports.go, Mutator.firstNamed?]
  | cons first mutators ih =>
    rw [mutatorImports.go]
    split
    · next hskip =>
      -- a function that is left out is not the first of a name that is still to come
      rw [ih]
      refine exists_congr fun m => and_congr_right fun hseen => ?_
      have hfirst : ¬ (first.name = m.name ∧ first.path ≠ "") := by
        rintro ⟨hname, hpath⟩
        rcases hskip with hskip | hskip
        · exact hseen (hname ▸ hskip)
        · exact hpath hskip
      rw [Mutator.firstNamed?, Mutator.firstNamed?, List.find?_cons_of_neg (by simpa using hfirst)]
    · next hkeep =>
      obtain ⟨hseen, hpath⟩ := not_or.mp hkeep
      rw [List.mem_cons, ih]
      constructor
      · rintro (rfl | ⟨m, hm, hfind, rfl⟩)
        · refine ⟨first, hseen, ?_, rfl⟩
          rw [Mutator.firstNamed?, List.find?_cons_of_pos (by simpa using hpath)]
        · obtain ⟨hne, hm⟩ := not_or.mp (mt List.mem_cons.mpr hm)
          refine ⟨m, hm, ?_, rfl⟩
          rw [Mutator.firstNamed?, List.find?_cons_of_neg (by simp [Ne.symm hne])]
          exact hfind
      · rintro ⟨m, hm, hfind, rfl⟩
        rw [Mutator.firstNamed?] at hfind
        by_cases hname : first.name = m.name
        · rw [List.find?_cons_of_pos (by simpa [hname] using hpath)] at hfind
          obtain rfl := Option.some.inj hfind
          exact .inl rfl
        · rw [List.find?_cons_of_neg (by simp [hname])] at hfind
          refine .inr ⟨m, ?_, hfind, rfl⟩
          exact mt List.mem_cons.mp (not_or.mpr ⟨Ne.symm hname, hm⟩)

/-- The functions of the user that are imported: of each name the first that has a path. -/
theorem mem_mutatorImports_iff {mutators : List Mutator} {s : ImportStatement} :
    s ∈ mutatorImports mutators ↔
      ∃ m, Mutator.firstNamed? mutators m.name = some m ∧ s = m.importStatement := by
  rw [mutatorImports, mem_mutatorImports_go_iff]
  simp

theorem nodup_importedNames_mutatorImports (mutators : List Mutator) :
    (importedNames (mutatorImports mutators)).Nodup := by
  have hgo (seen : List String) : (importedNames (mutatorImports.go seen mutators)).Nodup := by
    induction mutators generalizing seen with
    | nil => exact List.nodup_nil
    | cons m mutators ih =>
      rw [mutatorImports.go]
      split
      · exact ih seen
      · have hcons : importedNames (m.importStatement ::
            mutatorImports.go (m.name :: seen) mutators) =
              m.name :: importedNames (mutatorImports.go (m.name :: seen) mutators) := by
          rw [importedNames, List.flatMap_cons, Mutator.localNames_importStatement]
          rfl
        refine (congrArg List.Nodup hcons).mpr (List.nodup_cons.mpr ⟨fun h => ?_, ih _⟩)
        exact (mem_importedNames_mutatorImports_go.mp h).1 List.mem_cons_self
  exact hgo []

/-! ### Model types -/

theorem nodup_dedupe (imports : List Import) :
    ((Import.dedupe imports).map fun i => (i.name, i.localAlias)).Nodup := by
  have hgo (seen : List (String × Option String)) :
      ((Import.dedupe.go seen imports).map fun i => (i.name, i.localAlias)).Nodup := by
    induction imports generalizing seen with
    | nil => exact List.nodup_nil
    | cons i imports ih =>
      rw [Import.dedupe.go]
      split
      · exact ih seen
      · rw [List.map_cons, List.nodup_cons]
        refine ⟨fun h => ?_, ih _⟩
        exact (mem_dedupe_go.mp h).1 List.mem_cons_self
  exact hgo []

/-- Model types are bound once exactly if those of one local name are the same symbol under the same
alias. -/
theorem nodup_importedNames_modelImports_iff {imports : List Import} {schemas : String} :
    (importedNames (modelImports imports schemas)).Nodup ↔
      ∀ i ∈ imports, ∀ j ∈ imports, i.localName = j.localName →
        (i.name, i.localAlias) = (j.name, j.localAlias) := by
  let key (i : Import) : String × Option String := (i.name, i.localAlias)
  let nameOf (k : String × Option String) : String :=
    ({ name := k.1, localAlias := k.2 } : Import).localName
  have hnames : importedNames (modelImports imports schemas) =
      ((Import.dedupe imports).map key).map nameOf := by
    rw [List.map_map, modelImports]
    split
    · next hnil => rw [hnil]; rfl
    · next items hne => exact List.append_nil _
  rw [hnames, List.nodup_map_iff_inj_on (nodup_dedupe imports)]
  have hmem (k : String × Option String) :
      k ∈ (Import.dedupe imports).map key ↔ ∃ i ∈ imports, key i = k :=
    mem_dedupe.trans List.mem_map
  constructor
  · intro h i hi j hj hij
    exact h (key i) ((hmem _).mpr ⟨i, hi, rfl⟩) (key j) ((hmem _).mpr ⟨j, hj, rfl⟩) hij
  · intro h k hk l hl hkl
    obtain ⟨i, hi, rfl⟩ := (hmem k).mp hk
    obtain ⟨j, hj, rfl⟩ := (hmem l).mp hl
    exact h i hi j hj hkl

end RequestGen
