import RequestGen.Proofs.Request.SentBody

/-! # The body under another name

The statements that encode a body speak of it by its own identifier, and where the body has another
name that identifier is exchanged (`Operation.toList_encode`). The exchange is one of texts:
every token of the statements is rewritten by itself, but one that only holds the identifier, as
`formData` holds `form`, is rewritten too. `Operation.renames_tokens_iff` says when none is, so that
the exchange renames the body and nothing else. -/

namespace RequestGen

open Code (Declares IsRun renamed tokens)
open Text (replace)

namespace Code

variable {old new : List Char}

theorem infix_tokens_replace (hold : IsRun old) (hnew : IsRun new) {s : List Char}
    {ts : List (List Char)} (h : ts <:+: tokens s) (hts : ∀ t ∈ ts, replace old new t = t) :
    ts <:+: tokens (replace old new s) := by
  rw [tokens_replace hold hnew]
  have hmap := h.map (replace old new)
  rwa [List.map_congr_left hts, List.map_id'] at hmap

end Code

namespace Operation

variable {op : Operation} {encoding : FormEncoding} {new : String}

/-- Without a builder of the user, a body under another name is encoded by its own statements, with
the identifier exchanged wherever it occurs. -/
theorem toList_encode (hi : IsRun op.body.implementation.toList) (hn : IsRun new.toList)
    (he : op.body.encoding? op.forms = some encoding) (hb : op.builder? encoding = none) :
    (op.body.encode op.forms op.formData op.formUrlEncoded (some new)).toList =
      replace op.body.implementation.toList new.toList (op.body.snippet encoding).toList := by
  have hown : op.body.implementation ≠ "" := fun h => hi.1 (h ▸ rfl)
  have hnew : new ≠ "" := fun h => hn.1 (h ▸ rfl)
  have hcode : op.body.encode op.forms op.formData op.formUrlEncoded (some new) =
      Body.rename (op.body.snippet encoding) op.body.implementation new := by
    unfold Body.encode
    cases encoding <;> simp_all [builder?]
  rw [hcode, Body.rename]
  simp only [hown, false_or]
  split
  · next h =>
    rw [← h, Text.replace_eq_replaceFrom hi.1, Text.replaceFrom_self hi.1]
  · rw [Text.replaceText, String.toList_ofList]

/-- The statements of a body under another name are rewritten token by token. That renames the body,
and leaves every other token as it is, exactly if no token holds the identifier of the body without
being it; in particular the declaration of the payload is left if the identifier occurs neither in
the keyword nor in the name of the payload. -/
theorem renames_tokens_iff (hi : Naming.isIdentifierText op.body.implementation.toList = true)
    (hn : Naming.isIdentifierText new.toList = true)
    (he : op.body.encoding? op.forms = some encoding) (hb : op.builder? encoding = none) :
    let own := op.body.implementation.toList
    let snippet := op.body.snippet encoding
    let code := op.body.encode op.forms op.formData op.formUrlEncoded (some new)
    tokens code.toList = (tokens snippet.toList).map (replace own new.toList) ∧
      (tokens code.toList = (tokens snippet.toList).map (renamed own new.toList) ↔
        own = new.toList ∨ ∀ t ∈ tokens snippet.toList, own <:+: t → t = own) ∧
      (Declares encoding.identifier snippet →
        ¬ own <:+: "const".toList ∧ ¬ own <:+: encoding.identifier.toList →
        Declares encoding.identifier code) := by
  have hown := Code.isRun_of_isIdentifierText hi
  have hnew := Code.isRun_of_isIdentifierText hn
  intro own snippet code
  have hcode : code.toList = replace own new.toList snippet.toList := toList_encode hown hnew he hb
  rw [hcode]
  refine ⟨Code.tokens_replace hown hnew _, Code.tokens_replace_eq_renamed_iff hown hnew _, ?_⟩
  intro hdeclares ⟨hkeyword, hname⟩
  rw [Declares, hcode]
  refine Code.infix_tokens_replace hown hnew hdeclares ?_
  simp only [List.forall_mem_cons, List.not_mem_nil, false_implies, implies_true, and_true,
    Text.replace_eq_self_iff hown.1]
  exact ⟨.inr hkeyword, .inr (Code.not_infix_mark hown (by decide)), .inr hname⟩

end Operation

/-- With `form` for `request`, the statements of a form declare `requestData`, which is more than a
renaming of the body. -/
theorem formData_renamed_uploadForm :
    ¬ (Code.tokens (uploadForm.operation.body.encode uploadForm.operation.forms none none
        (some "request")).toList =
      (Code.tokens (uploadForm.operation.body.snippet .formData).toList).map
        (renamed "form".toList "request".toList)) := by
  have hiff := (@Operation.renames_tokens_iff uploadForm.operation .formData "request"
    (by decide) (by decide) (by decide) rfl).2.1
  refine mt hiff.mp ?_
  rintro (hsame | hall)
  · exact absurd hsame (by decide)
  · exact absurd (hall "formData".toList (by decide) (by decide)) (by decide)

end RequestGen
