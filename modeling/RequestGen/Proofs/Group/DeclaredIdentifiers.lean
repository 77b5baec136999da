import RequestGen.Proofs.Group.DeclaredNames
import RequestGen.Proofs.Naming.FirstLetters
import RequestGen.Proofs.Request.BindingNames

/-! # Declared names that are identifiers

The types that are declared for an operation are called by the casing of its name and a word behind
it. A casing has no underscore, so an operation name that is an identifier may still have a casing
that starts with a digit. The declared names are identifiers exactly if a letter comes first among
the letters and digits of the name; the name of the URL function always is one
(`Endpoint.declared_identifiers_iff`). -/

namespace RequestGen

open DeclaredKind (nameFor)
open Script (IsBindingName unbindableWords)

namespace DeclaredKind

variable {kind : DeclaredKind} {name : String}

theorem isNamePart_of_mem_nameFor {c : Char} (hc : c ∈ (kind.nameFor (Naming.pascal name)).toList) :
    Naming.isNamePart c = true := by
  have hall : (kind.front.toList ++ kind.ending.toList).all Naming.isNamePart = true := by
    cases kind <;> rfl
  have hends := List.all_eq_true.mp hall
  rw [nameFor, String.toList_append, String.toList_append, List.mem_append, List.mem_append] at hc
  rcases hc with (hc | hc) | hc
  · exact hends c (List.mem_append_left _ hc)
  · exact Naming.isNamePart_of_mem_pascal hc
  · exact hends c (List.mem_append_right _ hc)

theorem nameFor_notMem_unbindableWords (kind : DeclaredKind) (casing : String) :
    kind.nameFor casing ∉ unbindableWords := by
  have hcapital : kind.ending.toList.any Char.isUpper = true := by cases kind <;> rfl
  have hsmall : ∀ word ∈ unbindableWords, word.toList.any Char.isUpper = false := by
    decide +kernel
  intro hmem
  have hnone := hsmall _ hmem
  rw [nameFor, String.toList_append, List.any_append, hcapital, Bool.or_true] at hnone
  exact absurd hnone (by decide)

theorem isBindingName_nameFor_iff :
    IsBindingName (kind.nameFor (Naming.pascal name)) ↔
      kind = .urlFunction ∨ Naming.LeadsWithLetter name := by
  rw [IsBindingName, and_iff_left (nameFor_notMem_unbindableWords kind _),
    Naming.isIdentifierText_iff_head? fun c hc => isNamePart_of_mem_nameFor hc]
  by_cases hkind : kind = .urlFunction
  · subst hkind
    refine iff_of_true ⟨'g', ?_, rfl⟩ (.inl rfl)
    simp [nameFor, front]
  · have hfront : kind.front = "" := by
      cases kind with
      | urlFunction => exact absurd rfl hkind
      | _ => rfl
    have hending : ∃ c ∈ kind.ending.toList.head?, c.isAlpha = true := by
      cases kind <;> exact ⟨_, rfl, rfl⟩
    rw [or_iff_right hkind, nameFor, hfront, String.empty_append, String.toList_append,
      Naming.isNameStart_head?_pascal_append_iff hending]

end DeclaredKind

namespace Endpoint

variable {style : Style} {ctx : Context} {e : Endpoint}

/-- The code of an operation declares these names, and their casing starts as the first letter or
digit of the operation's name does. So they are identifiers exactly if that is a letter or no type
is declared; a URL function is always called by one. -/
theorem declared_identifiers_iff {code : String} (h : style.implementation ctx e = .ok code) :
    DeclaresInOrder (e.declaredNames style ctx) ("\n" ++ code) ∧
      IsBindingName e.operation.urlFunctionName ∧
      ((∀ name ∈ e.declaredNames style ctx ++ e.resultNames style, IsBindingName name) ↔
        (style ≠ .swr ∨
            (ctx.output.httpClient ≠ .fetch ∧ e.operation.overrides.singleRequest = true) →
          Naming.LeadsWithLetter e.operation.operationName)) := by
  have hurl : e.operation.urlFunctionName = nameFor .urlFunction e.operation.casing := rfl
  refine ⟨declaresInOrder_implementation h, ?_, ?_⟩
  · rw [hurl]
    exact DeclaredKind.isBindingName_nameFor_iff.mpr (.inl rfl)
  rw [implementation_eq] at h
  obtain ⟨f, hf, -⟩ := exists_of_map_eq_ok h
  have hf : style.requestFunction ctx e = .ok f := hf
  obtain ⟨kinds, hnames, hprefix, hrequest⟩ := exists_requestKinds hf
  have hbinding (kind : DeclaredKind) : IsBindingName (nameFor kind e.operation.casing) ↔
      kind = .urlFunction ∨ Naming.LeadsWithLetter e.operation.operationName :=
    DeclaredKind.isBindingName_nameFor_iff
  rw [hnames, List.forall_mem_map]
  constructor
  · rintro hall (hstyle | ⟨hclient, hsingle⟩)
    · have hresult : .result ∈ style.resultKinds := by simp [Style.resultKinds, hstyle]
      exact ((hbinding _).mp (hall _ (List.mem_append_right _ hresult))).resolve_left nofun
    · have hkind : .request ∈ kinds :=
        hrequest.mpr ⟨fun hvia => hclient (Style.transport_eq_fetch_iff.mp hvia).2, hsingle⟩
      have hmem : .request ∈ style.urlKinds ctx e.operation ++ kinds ++ style.resultKinds :=
        List.mem_append_left _ (List.mem_append_right _ hkind)
      exact ((hbinding _).mp (hall _ hmem)).resolve_left nofun
  · intro hletter kind hkind
    rw [hbinding, or_iff_not_imp_left]
    intro hne
    refine hletter ?_
    rcases List.mem_append.mp hkind with hkind | hkind
    · rcases List.mem_append.mp hkind with hkind | hkind
      · -- over fetch only the URL function comes before the types
        unfold Style.urlKinds at hkind
        split at hkind
        · exact absurd (List.mem_singleton.mp hkind) hne
        · exact absurd hkind List.not_mem_nil
      · have hmem : .request ∈ kinds :=
          (eq_nil_or_request_mem hprefix).resolve_left (List.ne_nil_of_mem hkind)
        obtain ⟨hvia, hsingle⟩ := hrequest.mp hmem
        by_cases hstyle : style = .swr
        · exact .inr ⟨fun hclient => hvia (Style.transport_eq_fetch_iff.mpr ⟨hstyle, hclient⟩),
            hsingle⟩
        · exact .inl hstyle
    · left
      rintro rfl
      exact absurd hkind List.not_mem_nil

/-- The name `_2fa` is an identifier, and the types that are called by its casing are not. -/
theorem declared_identifiers_twoFactor :
    IsBindingName "_2fa" ∧
      (Group.operationNamed "_2fa" true).declaredNames .functions {} = ["2faRequest"] ∧
      ¬ (∀ name ∈ ["2faRequest", "2faResult"], IsBindingName name) ∧
      ∀ name ∈ ["Fa2Request", "Fa2Result"], IsBindingName name := by
  have hcode (name : String) : Style.functions.implementation {} (Group.operationNamed name true) =
      .ok _ := rfl
  have hnames : (Group.operationNamed "_2fa" true).declaredNames .functions {} ++
      (Group.operationNamed "_2fa" true).resultNames .functions = ["2faRequest", "2faResult"] := by
    decide +kernel
  have hothers : (Group.operationNamed "_fa2" true).declaredNames .functions {} ++
      (Group.operationNamed "_fa2" true).resultNames .functions = ["Fa2Request", "Fa2Result"] := by
    decide +kernel
  refine ⟨⟨by decide, by decide⟩, by decide +kernel, ?_, ?_⟩
  · rw [← hnames, (declared_identifiers_iff (hcode "_2fa")).2.2]
    decide +kernel
  · rw [← hothers, (declared_identifiers_iff (hcode "_fa2")).2.2]
    decide +kernel

end Endpoint

end RequestGen
