import RequestGen.Proofs.Code.DeclaredTypes
import RequestGen.Proofs.Group.FactoryExports
import RequestGen.Proofs.Group.StatusTypes
import RequestGen.Proofs.Request.OptionsType

/-! # The type of a mutator's second parameter

A function that hands its options over to a mutator gives them the type of the mutator's second
parameter, by the helper type `SecondParameter`. Whether it does is decided operation by operation,
but the header is written for the whole group: it declares the helper type once if some operation
takes options and some operation, maybe another, has a mutator (`count_secondParameter`). So where a
function names the type, the header declares it once (`declared_once_of_used`). -/

namespace RequestGen

/-! ### The status types -/

theorem mem_unionOf {c : Char} {types : List String} (h : c ∈ (unionOf types).toList) :
    c ∈ " | ".toList ∨ ∃ type ∈ types, c ∈ type.toList := by
  unfold unionOf at h
  induction types with
  | nil => exact nomatch h
  | cons type types ih =>
    cases types with
    | nil => exact .inr ⟨type, List.mem_cons_self, by simpa using h⟩
    | cons next types =>
      rw [String.intercalate_cons_cons, String.toList_append, String.toList_append, List.mem_append,
        List.mem_append] at h
      rcases h with (h | h) | h
      · exact .inr ⟨type, List.mem_cons_self, h⟩
      · exact .inl h
      · exact (ih h).imp_right fun ⟨other, hother, hc⟩ =>
          ⟨other, List.mem_cons_of_mem _ hother, hc⟩

theorem notMem_unionOf {types : List String} (h : ∀ type ∈ types, '\n' ∉ type.toList) :
    '\n' ∉ (unionOf types ++ ";").toList := by
  rw [String.toList_append, List.mem_append]
  rintro (hc | hc)
  · rcases mem_unionOf hc with hc | ⟨type, htype, hc⟩
    · exact absurd hc (by decide)
    · exact h type htype hc
  · exact absurd hc (by decide)

theorem declaredTypes_hundreds {hundreds : List (Nat × List Nat)}
    (hnames : ∀ hundred ∈ hundreds, ∀ c ∈ (hundredTypeName hundred.1).toList,
      Text.isNameChar c = true)
    (hcodes : ∀ hundred ∈ hundreds, ∀ code ∈ hundred.2.map toString, '\n' ∉ code.toList) :
    declaredTypes (String.join (hundreds.map hundredDeclaration)) =
      hundreds.map fun hundred => hundredTypeName hundred.1 := by
  induction hundreds with
  | nil => rfl
  | cons hundred hundreds ih =>
    have htext : hundredDeclaration hundred = "type " ++ hundredTypeName hundred.1 ++ " = " ++
        (unionOf (hundred.2.map toString) ++ ";") ++ "\n" := by
      simp only [hundredDeclaration, String.append_assoc]
    have hdeclaration :
        declaredTypes (hundredDeclaration hundred) = [hundredTypeName hundred.1] := by
      rw [htext]
      exact declaredTypes_line (hnames hundred List.mem_cons_self)
        (notMem_unionOf (hcodes hundred List.mem_cons_self))
    have hwhole : IsLines (hundredDeclaration hundred) := .inr ⟨_, rfl⟩
    rw [List.map_cons, String.join_cons, declaredTypes_append hwhole, hdeclaration,
      List.map_cons, ih (fun other ho => hnames other (List.mem_cons_of_mem _ ho))
        fun other ho => hcodes other (List.mem_cons_of_mem _ ho)]
    rfl

theorem declaredTypes_statusTypes_append (rest : String) :
    declaredTypes (statusTypes ++ rest) =
      (statusHundreds.map fun hundred => hundredTypeName hundred.1) ++
        "HTTPStatusCodes" :: declaredTypes rest := by
  have hplain : IsPlainName "HTTPStatusCodes" := Status.isPlainName_of_mem List.mem_cons_self
  have hcodes : ∀ hundred ∈ statusHundreds, ∀ code ∈ hundred.2.map toString,
      '\n' ∉ code.toList := by
    decide
  have hlines : ∀ name ∈ statusHundreds.map fun hundred => hundredTypeName hundred.1,
      '\n' ∉ name.toList := by
    decide
  have htext : statusTypes ++ rest = String.join (statusHundreds.map hundredDeclaration) ++
      ("type " ++ "HTTPStatusCodes" ++ " = " ++
        (unionOf (statusHundreds.map fun hundred => hundredTypeName hundred.1) ++ ";") ++ "\n" ++
          ("\n" ++ rest)) := by
    rw [statusTypes_eq, show ";\n\n" = ";" ++ "\n" ++ "\n" from rfl]
    simp only [String.append_assoc]
  have hwhole (lines : String) : IsLines (lines ++ "\n") := .inr ⟨lines, rfl⟩
  have hempty : IsLines "\n" := hwhole ""
  rw [htext, declaredTypes_append (join_hundreds_eq _),
    declaredTypes_hundreds isNameChar_hundredTypeName hcodes, declaredTypes_append (hwhole _),
    declaredTypes_line hplain.2 (notMem_unionOf hlines), declaredTypes_append hempty]
  rfl

/-! ### The header -/

namespace HeaderInput

variable (h : HeaderInput)

theorem declaredTypes_secondParameter_append (rest : String) :
    declaredTypes (h.secondParameter ++ rest) =
      (if h.takesOptions && h.hasMutator then ["SecondParameter"] else []) ++
        declaredTypes rest := by
  unfold secondParameter
  split
  · have hown : declaredTypes secondParameterType = ["SecondParameter"] := by decide
    have hwhole : IsLines secondParameterType := .inr
      ⟨"type SecondParameter<T extends (...args: never) => unknown> = Parameters<T>[1];\n", rfl⟩
    rw [declaredTypes_append hwhole, hown]
  · rw [String.empty_append, List.nil_append]

theorem declaredTypes_openingLine {title : String} (ht : '\n' ∉ title.toList) :
    declaredTypes (s!"export const {title} = () => \x7b\n") = [] := by
  have hline : '\n' ∉ "export const ".toList ++ (title.toList ++ " = () => \x7b".toList) := by
    simp [ht]
  have hchars : ("export const " ++ title ++ " = () => \x7b\n").toList =
      "export const ".toList ++ (title.toList ++ " = () => \x7b".toList) ++ '\n' :: [] := by
    simp [String.toList_append]
  show declaredTypes ("export const " ++ title ++ " = () => \x7b\n") = []
  rw [declaredTypes, hchars, Text.splitOn_append_cons, Text.splitOn_eq_singleton hline]
  rfl

end HeaderInput

theorem Style.count_secondParameter_header (style : Style) (h : HeaderInput)
    (ht : '\n' ∉ h.title.toList) :
    (declaredTypes (style.header h)).count "SecondParameter" =
      if h.takesOptions && h.hasMutator then 1 else 0 := by
  have hown (rest : String) (hrest : "SecondParameter" ∉ declaredTypes rest) :
      (declaredTypes (h.secondParameter ++ rest)).count "SecondParameter" =
        if h.takesOptions && h.hasMutator then 1 else 0 := by
    rw [HeaderInput.declaredTypes_secondParameter_append, List.count_append,
      List.count_eq_zero.mpr hrest]
    split <;> rfl
  have haxios (topLevel : Bool) :
      (declaredTypes (HeaderInput.axiosHeader { h with topLevel })).count "SecondParameter" =
        if h.takesOptions && h.hasMutator then 1 else 0 := by
    refine hown _ ?_
    dsimp only
    split
    · decide
    · rw [HeaderInput.declaredTypes_openingLine ht]; decide
  -- over axios the header ends with the line of the factory, over fetch it starts with status types
  cases style with
  | factory => exact haxios _
  | functions => exact haxios _
  | swr =>
    show (declaredTypes (if h.output.httpClient = .fetch then h.hookHeader
      else HeaderInput.axiosHeader { h with topLevel := true })).count "SecondParameter" = _
    split
    · next hfetch =>
      rw [HeaderInput.hookHeader, if_pos hfetch, HeaderInput.fetchHeader]
      have hsecond := hown "" (by decide)
      rw [String.append_empty] at hsecond
      split
      · have hnames : ((statusHundreds.map fun hundred => hundredTypeName hundred.1) ++
            ["HTTPStatusCodes"]).count "SecondParameter" = 0 := by
          decide
        rw [declaredTypes_statusTypes_append, ← List.singleton_append, ← List.append_assoc,
          List.count_append, hnames, hsecond, Nat.zero_add]
      · rw [String.empty_append, hsecond]
    · exact haxios true

/-! ### Groups -/

namespace Group

variable {style : Style} {ctx : Context} {t left : ResultTable} {title : String}
  {endpoints : List Endpoint} {g : Group}

theorem notMem_factoryTitle (title : String) : '\n' ∉ (factoryTitle title).toList := by
  have htitle : factoryTitle title = "get" ++ Naming.pascal (Naming.clean title) := rfl
  rw [htitle, String.toList_append, List.mem_append, not_or]
  refine ⟨by decide, fun h => ?_⟩
  exact absurd (Naming.isAlphanum_of_mem_pascal h) (by decide)

theorem exists_header_eq_header (hg : rebuild t style ctx title endpoints = (left, .ok g)) :
    ∃ input : HeaderInput, g.header = style.header input ∧ input.title = factoryTitle title ∧
      input.takesOptions = endpoints.any (·.operation.overrides.requestOptions.isTaken) ∧
      input.hasMutator = endpoints.any (·.operation.mutator.isSome) := by
  obtain ⟨generated, rest, -, rfl⟩ := exists_of_rebuild hg
  exact ⟨_, rfl, rfl, List.any_map, List.any_map⟩

/-- The header of a group declares the type of a mutator's second parameter once if some operation
takes options and some operation has a mutator, and else not at all. -/
theorem count_secondParameter (hg : rebuild t style ctx title endpoints = (left, .ok g)) :
    (declaredTypes g.header).count "SecondParameter" =
      if endpoints.any (·.operation.overrides.requestOptions.isTaken) &&
        endpoints.any (·.operation.mutator.isSome) then 1 else 0 := by
  obtain ⟨input, hheader, htitle, htakes, hmutator⟩ := exists_header_eq_header hg
  rw [hheader, style.count_secondParameter_header input (htitle ▸ notMem_factoryTitle title),
    htakes, hmutator]

/-- Where a function of the group gives its options the type of a mutator's second parameter, the
header declares that type, and once. -/
theorem declared_once_of_used (hg : rebuild t style ctx title endpoints = (left, .ok g))
    {e : Endpoint} {f : RequestFunction} {isOptional : Bool} {mutator : String}
    (he : e ∈ endpoints) (hf : style.requestFunction ctx e = .ok f)
    (hp : .options isOptional (secondParameterOf mutator) ∈ f.params) :
    (declaredTypes g.header).count "SecondParameter" = 1 := by
  have hbracket : '>' ∈ (secondParameterOf mutator).toList := by
    unfold secondParameterOf
    rw [String.toList_append, List.mem_append]
    exact .inr (by decide)
  rw [count_secondParameter hg]
  rcases Endpoint.optionsType_of_mem_params hf hp with ⟨-, h⟩ | ⟨-, h⟩ | ⟨own, hm, htaken, -⟩
  · rw [h] at hbracket
    exact absurd hbracket (by decide)
  · rw [h] at hbracket
    exact absurd hbracket (by decide)
  · rw [if_pos]
    rw [Bool.and_eq_true, List.any_eq_true, List.any_eq_true]
    exact ⟨⟨e, he, htaken⟩, ⟨e, he, by rw [hm]; rfl⟩⟩

/-- An operation that hands over to a function of the user with options of its own. -/
def listPetsOver (mutator : String) : Endpoint where
  operation := {
    verb := .get
    operationName := "listPets"
    mutator := some { name := mutator, hasSecondArg := true } }
  route := "/pets"
  pathRoute := "/pets"

/-- One function of the group names the type, the other takes the options of axios. -/
theorem declared_once_listPets :
    ∃ left g, rebuild .empty .factory {} "Pets" [health false, listPetsOver "customInstance"] =
        (left, .ok g) ∧
      (declaredTypes g.header).count "SecondParameter" = 1 := by
  have hg : rebuild .empty .factory {} "Pets" [health false, listPetsOver "customInstance"] =
      (_, .ok _) := rfl
  have hf : Style.factory.requestFunction {} (listPetsOver "customInstance") = .ok _ := rfl
  have hp : .options true (secondParameterOf "customInstance") ∈
      ((listPetsOver "customInstance").mutatorFlat {}
        { name := "customInstance", hasSecondArg := true } false).params :=
    List.mem_cons_of_mem _ List.mem_cons_self
  exact ⟨_, _, hg, declared_once_of_used hg (List.mem_cons_of_mem _ List.mem_cons_self) hf hp⟩

end Group

end RequestGen
