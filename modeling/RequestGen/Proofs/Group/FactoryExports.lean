import RequestGen.Proofs.Group.Implementations
import RequestGen.Proofs.Request.ExportWord

/-! # Exports of a factory

Inside a factory nothing may be exported: an `export` belongs at top level. The functions of a
factory are written without `export`, but the types of single requests are declared as exported
wherever their function stands. So the code between the line that opens the factory and the brace
that closes it has the word `export` exactly if some operation takes a single request
(`exports_inside_iff`). -/

namespace RequestGen

/-- The code of an operation in a factory has the word `export` exactly if it takes a single
request. -/
theorem Endpoint.refersTo_implementation_iff {ctx : Context} {e : Endpoint} {code : String}
    (h : Style.factory.implementation ctx e = .ok code)
    (hown : ∀ text ∈ e.ownTexts, refersTo text "export" = false) :
    refersTo code "export" = true ↔ e.operation.overrides.singleRequest = true := by
  have hv : Style.factory.transport ctx e.operation ≠ .fetch := by
    show Transport.resolve .axios e.operation.mutator ≠ .fetch
    unfold Transport.resolve
    rw [if_neg (by decide)]
    split <;> exact nofun
  rw [implementation_eq] at h
  obtain ⟨f, hf, hcode⟩ := exists_of_map_eq_ok h
  rw [if_neg hv] at hcode
  rw [← hcode]
  exact refersTo_render_iff_singleRequest hv hown hf

namespace Group

variable {ctx : Context} {t left : ResultTable} {title : String} {endpoints : List Endpoint}
  {g : Group}

/-- The line that opens a factory. -/
def openingLine (title : String) : String :=
  "export const " ++ factoryTitle title ++ " = () => \x7b\n"

/-- What stands between the line that opens a factory and the brace that closes it: its functions,
and the object of them that it returns. -/
def insideFactory (implementations names : List String) : String :=
  "\n" ++ String.join (implementations.map fun implementation => implementation ++ "\n") ++
    ("  return \x7b " ++ Text.commaList names ++ " \x7d;\n")

theorem refersTo_insideFactory (implementations names : List String) :
    refersTo (insideFactory implementations names) "export" =
      (implementations.any (refersTo · "export") || names.any (refersTo · "export")) := by
  have hplain := isForeign_export.plain
  have hjoin : refersTo (String.join (implementations.map fun i => i ++ "\n")) "export" =
      implementations.any (refersTo · "export") :=
    refersTo_join_map hplain (by decide) id implementations
  have hreturn : refersTo ("  return \x7b " ++ Text.commaList names ++ " \x7d;\n") "export" =
      names.any (refersTo · "export") := by
    rw [refersTo_between hplain (by decide) (by decide), refersTo_commaList hplain,
      (by decide : refersTo "  return \x7b " "export" = false), Bool.false_or]
  rw [insideFactory, refersTo_append hplain (.inr ?_), refersTo_mark_append hplain (by decide),
    hjoin, hreturn]
  rw [String.append_assoc, startsApart_append (by decide)]; decide

theorem exists_header_eq (hg : rebuild t .factory ctx title endpoints = (left, .ok g)) :
    ∃ types, g.header = types ++ openingLine title := by
  obtain ⟨generated, rest, -, rfl⟩ := exists_of_rebuild hg
  exact ⟨_, rfl⟩

theorem exists_footer_eq (hg : rebuild t .factory ctx title endpoints = (left, .ok g)) :
    ∃ types, g.footer =
      "  return \x7b " ++ Text.commaList (endpoints.map (·.operation.operationName)) ++
        " \x7d;\n\x7d;\n" ++ types := by
  obtain ⟨generated, rest, -, rfl⟩ := exists_of_rebuild hg
  have hnames : (endpoints.map (·.operation.operationName)) =
      (endpoints.map (·.operation)).map (·.operationName) := by
    rw [List.map_map]; rfl
  rw [hnames]
  exact ⟨_, String.append_assoc ..⟩

theorem lineIfAny_of_ne {text : String} (h : text ≠ "") : lineIfAny text = text ++ "\n" :=
  if_neg h

theorem exists_render_eq (hg : rebuild t .factory ctx title endpoints = (left, .ok g)) :
    ∃ before after, g.render =
      before ++ openingLine title ++
        insideFactory g.implementations (endpoints.map (·.operation.operationName)) ++ "\x7d;\n" ++
        after := by
  obtain ⟨types, hheader⟩ := exists_header_eq hg
  obtain ⟨results, hfooter⟩ := exists_footer_eq hg
  have hheaderNe : g.header ≠ "" := by
    rw [hheader, openingLine]
    simp
  have hfooterNe : g.footer ≠ "" := by
    rw [hfooter]
    simp
  refine ⟨s!"/**\n * Generated by clientgen. Do not edit manually.\n * {g.title}\n */\n" ++
    String.join (g.importLines.map fun line => s!"{line}\n") ++ "\n" ++ types, results ++ "\n", ?_⟩
  unfold render
  rw [lineIfAny_of_ne hheaderNe, lineIfAny_of_ne hfooterNe, hheader, hfooter, insideFactory]
  have hclose : " \x7d;\n\x7d;\n" = " \x7d;\n" ++ "\x7d;\n" := rfl
  simp only [hclose, String.append_assoc]
  rfl

/-- If the word `export` is in none of the texts that operations bring into their functions, it is
inside the factory of them exactly if one of them takes a single request. -/
theorem exports_inside_iff (hg : rebuild t .factory ctx title endpoints = (left, .ok g))
    (hown : ∀ e ∈ endpoints, ∀ text ∈ e.ownTexts, refersTo text "export" = false) :
    ∃ before inside after,
      g.render = before ++ openingLine title ++ inside ++
        "\x7d;\n" ++ after ∧
      inside = insideFactory g.implementations (endpoints.map (·.operation.operationName)) ∧
      (refersTo inside "export" = true ↔
        ∃ e ∈ endpoints, e.operation.overrides.singleRequest = true) := by
  have hplain := isForeign_export.plain
  obtain ⟨before, after, hrender⟩ := exists_render_eq hg
  refine ⟨before, _, after, hrender, rfl, ?_⟩
  have hnames : (endpoints.map (·.operation.operationName)).any (refersTo · "export") = false := by
    rw [List.any_map, List.any_eq_false]
    intro e he
    simp [Endpoint.not_refersTo_operationName (hown e he)]
  rw [refersTo_insideFactory, hnames, Bool.or_false]
  have hall := forall₂_implementations hg
  -- along the operations and their code
  generalize g.implementations = implementations at hall
  clear hg hrender hnames
  induction hall with
  | nil => simp
  | @cons e code endpoints codes hcode _ ih =>
    have hhead : refersTo code "export" = true ↔ e.operation.overrides.singleRequest = true :=
      Endpoint.refersTo_implementation_iff hcode (hown e List.mem_cons_self)
    have htail := ih fun e he => hown e (List.mem_cons_of_mem _ he)
    simp only [List.any_cons, Bool.or_eq_true, hhead, htail, List.mem_cons, exists_eq_or_imp]

/-- An operation without parameters. -/
def health (singleRequest : Bool) : Endpoint where
  operation := { verb := .get, operationName := "health", overrides := { singleRequest } }
  route := "/health"
  pathRoute := "/health"

/-- The type of a single request is exported inside the factory, where a list of arguments leaves
nothing to export. -/
theorem export_inside_health :
    (∃ left g, rebuild .empty .factory {} "Pets" [health true] = (left, .ok g) ∧
      refersTo (insideFactory g.implementations ["health"]) "export" = true) ∧
    ∃ left g, rebuild .empty .factory {} "Pets" [health false] = (left, .ok g) ∧
      ¬ refersTo (insideFactory g.implementations ["health"]) "export" = true := by
  have hown (singleRequest : Bool) : ∀ e ∈ [health singleRequest], ∀ text ∈ e.ownTexts,
      refersTo text "export" = false := by
    cases singleRequest <;> decide
  constructor
  · have hg : rebuild .empty .factory {} "Pets" [health true] = (_, .ok _) := rfl
    obtain ⟨_, _, _, -, rfl, hiff⟩ := exports_inside_iff hg (hown true)
    exact ⟨_, _, hg, hiff.mpr ⟨_, List.mem_cons_self, rfl⟩⟩
  · have hg : rebuild .empty .factory {} "Pets" [health false] = (_, .ok _) := rfl
    obtain ⟨_, _, _, -, rfl, hiff⟩ := exports_inside_iff hg (hown false)
    exact ⟨_, _, hg, mt hiff.mp (by simp [health])⟩

end Group

end RequestGen
