import RequestGen.Proofs.Client.BoundOnce
import RequestGen.Proofs.Group.PackageImports

/-! # Imports that clash

The import statements of a group are written for packages, for functions of the user and for model
types, and none of the three knows what the others bind. No name of a package is bound twice, nor
that of a function, so a local name is bound twice only where two different symbols are to have it
(`nodup_importedNames_iff`). Functions of one name are taken for one function: the first that has a
path is imported, and the others are called by what was imported for it
(`function_imported_iff`). -/

namespace RequestGen

/-! ### Packages of a style -/

namespace Style

variable {style : Style} {hasGlobalMutator hasSerializerOptions : Bool} {d : Dependency}

theorem hasPlainExports_of_mem_dependencies
    (h : d ∈ style.dependencies hasGlobalMutator hasSerializerOptions) : d.HasPlainExports := by
  have hall : ∀ d ∈ style.dependencies hasGlobalMutator hasSerializerOptions,
      (d.exports.map (·.name)).Nodup ∧ ∀ i ∈ d.exports, i.localName = i.name := by
    cases style <;> cases hasGlobalMutator <;> cases hasSerializerOptions <;> decide
  exact hall d h

theorem nodup_exports_dependencies (style : Style) (hasGlobalMutator hasSerializerOptions : Bool) :
    ((style.dependencies hasGlobalMutator hasSerializerOptions).flatMap fun d =>
      d.exports.map (·.name)).Nodup := by
  cases style <;> cases hasGlobalMutator <;> cases hasSerializerOptions <;> decide

end Style

/-! ### Groups -/

theorem nodup_importedNames_append {s t : List ImportStatement} :
    (importedNames (s ++ t)).Nodup ↔ (importedNames s).Nodup ∧ (importedNames t).Nodup ∧
      ∀ name ∈ importedNames t, name ∉ importedNames s := by
  rw [importedNames_append, List.nodup_append']
  exact and_congr_right fun _ => and_congr_right fun _ =>
    ⟨fun h name ht hs => h hs ht, fun h name hs ht => h name ht hs⟩

namespace Group

variable {style : Style} {ctx : Context} {t left : ResultTable} {title : String}
  {endpoints : List Endpoint} {g : Group}

/-- The statements for model types. -/
def typeImports (g : Group) : List ImportStatement :=
  match g.schemas with
  | none => []
  | some schemas => if schemas = "" then [] else modelImports g.imports schemas

theorem importStatements_eq :
    g.importStatements = g.packageImports ++ mutatorImports g.mutators ++ g.typeImports :=
  rfl

theorem mem_importedNames_typeImports {name : String} : name ∈ importedNames g.typeImports ↔
    ∃ schemas, g.schemas = some schemas ∧ schemas ≠ "" ∧ ∃ i ∈ g.imports, i.localName = name := by
  unfold typeImports
  split
  · next hnone => simp [hnone, importedNames]
  · next schemas hsome =>
    split
    · next hempty => simp [hsome, hempty, importedNames]
    · next hne => simp [hsome, hne, mem_importedNames_modelImports]

theorem nodup_importedNames_typeImports_iff : (importedNames g.typeImports).Nodup ↔
    ∀ schemas, g.schemas = some schemas → schemas ≠ "" →
      ∀ i ∈ g.imports, ∀ j ∈ g.imports, i.localName = j.localName →
        (i.name, i.localAlias) = (j.name, j.localAlias) := by
  unfold typeImports
  split
  · next hnone => simp [hnone, importedNames]
  · next schemas hsome =>
    split
    · next hempty => simp [hsome, hempty, importedNames]
    · next hne => simp only [hsome, Option.some.injEq, forall_eq', hne, ne_eq, not_false_eq_true,
        forall_const, nodup_importedNames_modelImports_iff]

theorem nodup_importedNames_packageImports
    (hg : rebuild t style ctx title endpoints = (left, .ok g)) :
    (importedNames g.packageImports).Nodup := by
  rw [packageImports, (imports_of_rebuild hg).1]
  exact nodup_importedNames_dependencyImports
    (fun d hd => Style.hasPlainExports_of_mem_dependencies hd)
    (Style.nodup_exports_dependencies _ _ _)

theorem mem_exports_of_mem_packageImports
    (hg : rebuild t style ctx title endpoints = (left, .ok g)) {name : String}
    (h : name ∈ importedNames g.packageImports) :
    name ∈ g.dependencies.flatMap fun d => d.exports.map (·.name) := by
  obtain ⟨s, hs, hname⟩ := mem_importedNames.mp h
  obtain ⟨d, hd, hs⟩ := List.mem_flatMap.mp hs
  refine List.mem_flatMap.mpr ⟨d, hd, ?_⟩
  rw [(imports_of_rebuild hg).1] at hd
  exact Dependency.mem_exports_of_mem_importedNames (Style.hasPlainExports_of_mem_dependencies hd)
    (mem_importedNames.mpr ⟨s, hs, hname⟩)

theorem schemas_eq (hg : rebuild t style ctx title endpoints = (left, .ok g)) :
    g.schemas = ctx.output.schemas := by
  obtain ⟨generated, rest, -, rfl⟩ := exists_of_rebuild hg
  rfl

/-- The import lines of a file bind each name once exactly if no function of the user has the name
of something that comes of a package, no model type that of either, and model types of one local
name are one symbol under one alias. -/
theorem nodup_importedNames_iff (hg : rebuild t style ctx title endpoints = (left, .ok g)) :
    g.Imports g.importStatements ∧
    ((importedNames g.importStatements).Nodup ↔
      (∀ m ∈ endpoints.flatMap (·.operation.mutators), m.path ≠ "" →
        m.name ∉ importedNames g.packageImports) ∧
      ∀ schemas, ctx.output.schemas = some schemas → schemas ≠ "" →
        ∀ i ∈ endpoints.flatMap (·.operation.modelImports),
          i.localName ∉ importedNames g.packageImports ∧
          (∀ m ∈ endpoints.flatMap (·.operation.mutators), m.path ≠ "" → m.name ≠ i.localName) ∧
          ∀ j ∈ endpoints.flatMap (·.operation.modelImports), i.localName = j.localName →
            (i.name, i.localAlias) = (j.name, j.localAlias)) := by
  refine ⟨g.imports_importStatements, ?_⟩
  rw [← mutators_eq hg, ← imports_eq hg, ← schemas_eq hg]
  rw [importStatements_eq, nodup_importedNames_append, nodup_importedNames_append,
    nodup_importedNames_typeImports_iff]
  constructor
  · rintro ⟨⟨-, -, hfunctions⟩, htypes, hapart⟩
    refine ⟨fun m hm hpath => hfunctions m.name ?_, fun schemas hschemas hne i hi => ?_⟩
    · exact mem_importedNames_mutatorImports.mpr ⟨m, hm, rfl, hpath⟩
    · have hnew := hapart i.localName
        (mem_importedNames_typeImports.mpr ⟨schemas, hschemas, hne, i, hi, rfl⟩)
      rw [importedNames_append, List.mem_append, not_or] at hnew
      refine ⟨hnew.1, fun m hm hpath hname => hnew.2 ?_, fun j hj hij => ?_⟩
      · exact mem_importedNames_mutatorImports.mpr ⟨m, hm, hname, hpath⟩
      · exact htypes schemas hschemas hne i hi j hj hij
  · rintro ⟨hfunctions, htypes⟩
    refine ⟨⟨nodup_importedNames_packageImports hg, nodup_importedNames_mutatorImports _, ?_⟩,
      fun schemas hschemas hne i hi j hj hij => ?_, ?_⟩
    · intro name hname
      obtain ⟨m, hm, rfl, hpath⟩ := mem_importedNames_mutatorImports.mp hname
      exact hfunctions m hm hpath
    · exact (htypes schemas hschemas hne i hi).2.2 j hj hij
    · intro name hname
      obtain ⟨schemas, hschemas, hne, i, hi, rfl⟩ := mem_importedNames_typeImports.mp hname
      obtain ⟨hpackages, hothers, -⟩ := htypes schemas hschemas hne i hi
      rw [importedNames_append, List.mem_append, not_or]
      refine ⟨hpackages, fun hbound => ?_⟩
      obtain ⟨m, hm, hsame, hpath⟩ := mem_importedNames_mutatorImports.mp hbound
      exact hothers m hm hpath hsame

/-- A run that imports model types. -/
def typedContext : Context where
  output := { schemas := some "./model" }

/-- An operation that resolves to a model type. -/
def listOf (type : String) (function : Option Mutator) : Endpoint where
  operation := {
    verb := .get
    operationName := "list" ++ type
    response := { success := type, imports := [{ name := type }] }
    mutator := function }
  route := "/list"
  pathRoute := "/list"

/-- Two functions of one name, and one model type of two operations: all is bound once. -/
theorem nodup_importedNames_pets :
    ∃ left g, rebuild .empty .functions typedContext "Pets"
        [listOf "Pet" none, listOf "Pet" (some { name := "send", path := "../send" }),
          listOf "Error" (some { name := "send", path := "../other" })] = (left, .ok g) ∧
      g.Imports g.importStatements ∧ (importedNames g.importStatements).Nodup := by
  have hg : rebuild .empty .functions typedContext "Pets"
      [listOf "Pet" none, listOf "Pet" (some { name := "send", path := "../send" }),
        listOf "Error" (some { name := "send", path := "../other" })] = (_, .ok _) := rfl
  have hnew {name : String} (h : name ∉ ["axios", "AxiosRequestConfig", "AxiosResponse"]) :=
    mt (mem_exports_of_mem_packageImports hg) h
  obtain ⟨himports, hiff⟩ := nodup_importedNames_iff hg
  refine ⟨_, _, hg, himports, hiff.mpr ⟨fun m hm hpath => hnew ?_, ?_⟩⟩
  · revert m
    decide
  · intro schemas _ _ i hi
    refine ⟨hnew ?_, ?_⟩
    · revert i
      decide
    · revert i
      decide

/-- A model type that is called like a type of axios is imported besides it. -/
theorem axiosResponse_bound_twice :
    ∃ left g, rebuild .empty .functions typedContext "Responses" [listOf "AxiosResponse" none] =
        (left, .ok g) ∧
      g.Imports g.importStatements ∧ ¬ (importedNames g.importStatements).Nodup := by
  have hg : rebuild .empty .functions typedContext "Responses" [listOf "AxiosResponse" none] =
      (_, .ok _) := rfl
  have hf : Style.functions.requestFunction typedContext (listOf "AxiosResponse" none) = .ok _ :=
    rfl
  have hrefers := refersTo_code_of_mentions rfl hg List.mem_cons_self hf (by decide) (by decide)
    (Endpoint.mentions_axiosResponse hf)
  obtain ⟨items, hitems, hmem⟩ := exists_types_mem_packageImports hg rfl (by decide) hrefers
  refine ⟨_, _, hg, imports_importStatements _, fun hnodup => ?_⟩
  rw [importStatements_eq, nodup_importedNames_append] at hnodup
  refine hnodup.2.2 "AxiosResponse" ?_ ?_
  · exact mem_importedNames_typeImports.mpr
      ⟨"./model", rfl, by decide, _, List.mem_cons_self, rfl⟩
  · rw [importedNames_append, List.mem_append]
    exact .inl (mem_importedNames.mpr ⟨_, hitems, hmem⟩)

theorem importStatement_notMem_typeImports {m : Mutator} : m.importStatement ∉ g.typeImports := by
  intro h
  -- model types are imported as types, and functions are not
  have htypes : ∃ items, m.importStatement.clause = .types items := by
    unfold typeImports at h
    split at h
    · exact absurd h List.not_mem_nil
    · split at h
      · exact absurd h List.not_mem_nil
      · unfold modelImports at h
        split at h
        · exact absurd h List.not_mem_nil
        · exact ⟨_, congrArg (·.clause) (List.mem_singleton.mp h)⟩
  obtain ⟨items, hitems⟩ := htypes
  unfold Mutator.importStatement at hitems
  dsimp only at hitems
  split at hitems <;> exact absurd hitems nofun

/-- A function of the user with a path is bound, but by the statement for the first function of its
name. That is its own statement exactly if both have one path and one form; else it is imported from
its path only if a package provides it in the same way. -/
theorem function_imported_iff (hg : rebuild t style ctx title endpoints = (left, .ok g))
    {e : Endpoint} (he : e ∈ endpoints) {m : Mutator} (hm : m ∈ e.operation.mutators)
    (hpath : m.path ≠ "") :
    g.Imports g.importStatements ∧
    ∃ first, Mutator.firstNamed? (endpoints.flatMap (·.operation.mutators)) m.name = some first ∧
      first.importStatement ∈ g.importStatements ∧
      (m.importStatement ∈ g.importStatements ↔ m.importStatement ∈ g.packageImports ∨
        (first.path = m.path ∧ first.isDefault = m.isDefault)) := by
  have hmem : m ∈ g.mutators := mutators_eq hg ▸ List.mem_flatMap.mpr ⟨e, he, hm⟩
  obtain ⟨first, hfirst⟩ := Mutator.exists_firstNamed? hmem hpath
  have hname : first.name = m.name := (Mutator.of_firstNamed? hfirst).2.1
  have himported : first.importStatement ∈ mutatorImports g.mutators :=
    mem_mutatorImports_iff.mpr ⟨first, hname ▸ hfirst, rfl⟩
  -- what is imported under the name of `m` is imported for `first`
  have hown : m.importStatement ∈ mutatorImports g.mutators ↔
      first.path = m.path ∧ first.isDefault = m.isDefault := by
    rw [mem_mutatorImports_iff]
    constructor
    · rintro ⟨other, hother, heq⟩
      obtain ⟨hsame, hplace, hform⟩ := Mutator.importStatement_inj.mp heq
      rw [← hsame, hfirst] at hother
      obtain rfl := Option.some.inj hother
      exact ⟨hplace.symm, hform.symm⟩
    · rintro ⟨hplace, hform⟩
      exact ⟨first, hname ▸ hfirst,
        Mutator.importStatement_inj.mpr ⟨hname.symm, hplace.symm, hform.symm⟩⟩
  refine ⟨g.imports_importStatements, first, mutators_eq hg ▸ hfirst, ?_, ?_⟩
  · rw [importStatements_eq]
    exact List.mem_append_left _ (List.mem_append_right _ himported)
  · rw [importStatements_eq, List.mem_append, List.mem_append, hown,
      or_iff_left importStatement_notMem_typeImports]

/-- Of two functions of one name the second is called by the import of the first. -/
theorem function_imported_send :
    ∃ left g, rebuild .empty .functions {} "Pets"
        [listOf "Pet" (some { name := "send", path := "../a" }),
          listOf "Error" (some { name := "send", path := "../b" })] = (left, .ok g) ∧
      g.Imports g.importStatements ∧
      ⟨.values [{ name := "send" }], "../a"⟩ ∈ g.importStatements ∧
      ⟨.values [{ name := "send" }], "../b"⟩ ∉ g.importStatements := by
  have hg : rebuild .empty .functions {} "Pets"
      [listOf "Pet" (some { name := "send", path := "../a" }),
        listOf "Error" (some { name := "send", path := "../b" })] = (_, .ok _) := rfl
  obtain ⟨himports, first, hfirst, himported, hiff⟩ := function_imported_iff hg
    (List.mem_cons_of_mem _ List.mem_cons_self) (m := { name := "send", path := "../b" })
    List.mem_cons_self (by decide)
  obtain rfl : { name := "send", path := "../a" } = first := Option.some.inj hfirst
  refine ⟨_, _, hg, himports, himported, fun h => ?_⟩
  rcases hiff.mp h with hpackage | ⟨hplace, -⟩
  · have hsend : "send" ∈ importedNames _ :=
      mem_importedNames.mpr ⟨_, hpackage, List.mem_singleton_self _⟩
    exact absurd (mem_exports_of_mem_packageImports hg hsend) (by decide)
  · exact absurd hplace (by decide)

end Group

end RequestGen
