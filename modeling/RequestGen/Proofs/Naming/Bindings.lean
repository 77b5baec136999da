import Mathlib.Data.List.TakeWhile
import RequestGen.Naming.Identifier

/-! # The names that identifiers bind

A name that passes for an identifier is one up to a line feed that may stand at its end. Where it is
written, the identifier before that is bound (`toList_eq_binding_append`), so what is bound is the
name itself only if all of the name is an identifier (`isIdentifierText_iff`). -/

namespace RequestGen

namespace Naming

/-- The name that a destructuring binds for an identifier, which may stand before a line feed. -/
def binding (name : String) : String :=
  String.ofList (name.toList.takeWhile isNamePart)

theorem isIdentifierText_takeWhile {s : List Char} (h : isIdentifierLine s = true) :
    isIdentifierText (s.takeWhile isNamePart) = true := by
  cases s with
  | nil => exact nomatch h
  | cons c s =>
    simp only [isIdentifierLine, Bool.and_eq_true] at h
    rw [List.takeWhile_cons, isNamePart_of_isNameStart h.1, if_pos rfl]
    simp only [isIdentifierText, h.1, Bool.true_and]
    exact List.all_takeWhile

theorem isIdentifierLine_of_isIdentifierText {s : List Char} (h : isIdentifierText s = true) :
    isIdentifierLine s = true := by
  cases s with
  | nil => exact nomatch h
  | cons c s =>
    simp only [isIdentifierText, Bool.and_eq_true] at h
    have hrest : s.dropWhile isNamePart = [] :=
      List.dropWhile_eq_nil_iff.mpr (List.all_eq_true.mp h.2)
    simp [isIdentifierLine, h.1, hrest]

theorem binding_eq_self {name : String} (h : isIdentifierText name.toList = true) :
    binding name = name := by
  rw [binding, List.takeWhile_eq_self_iff.mpr fun _ => isNamePart_of_mem h, String.ofList_toList]

theorem isIdentifier_binding {name : String} (h : isIdentifier name = true) :
    isIdentifier (binding name) = true := by
  rw [isIdentifier, binding, String.toList_ofList]
  exact isIdentifierLine_of_isIdentifierText (isIdentifierText_takeWhile h)

/-- A name that passes for an identifier is the identifier it is bound to, and perhaps a line
feed. -/
theorem toList_eq_binding_append {name : String} (h : isIdentifier name = true) :
    isIdentifierText (binding name).toList = true ∧ ∃ lineEnd, name.toList =
      (binding name).toList ++ lineEnd ∧ (lineEnd = [] ∨ lineEnd = ['\n']) := by
  rw [binding, String.toList_ofList]
  refine ⟨isIdentifierText_takeWhile h, name.toList.dropWhile isNamePart,
    List.takeWhile_append_dropWhile.symm, ?_⟩
  obtain ⟨c, s, hs, hstart, hend⟩ := exists_of_isIdentifier h
  rw [hs, List.dropWhile_cons_of_pos (isNamePart_of_isNameStart hstart)]
  exact hend

theorem isIdentifierText_iff {name : String} :
    isIdentifierText name.toList = true ↔ isIdentifier name = true ∧ binding name = name := by
  constructor
  · intro h
    exact ⟨isIdentifierLine_of_isIdentifierText h, binding_eq_self h⟩
  · rintro ⟨h, hbinding⟩
    exact hbinding ▸ (toList_eq_binding_append h).1

/-- A name that passes for an identifier is one unless it ends in a line feed. -/
theorem isIdentifierText_iff_getLast? {name : String} (h : isIdentifier name = true) :
    isIdentifierText name.toList = true ↔ name.toList.getLast? ≠ some '\n' := by
  obtain ⟨htext, lineEnd, hsplit, rfl | rfl⟩ := toList_eq_binding_append h
  · rw [List.append_nil] at hsplit
    refine iff_of_true (hsplit ▸ htext) ?_
    rw [hsplit]
    intro hlast
    have hpart := isNamePart_of_mem htext (List.mem_of_getLast? hlast)
    exact absurd hpart (by decide)
  · have hlast : name.toList.getLast? = some '\n' := by rw [hsplit, List.getLast?_concat]
    refine iff_of_false ?_ (fun hne => hne hlast)
    intro hall
    exact absurd (isNamePart_of_mem hall (List.mem_of_getLast? hlast)) (by decide)

end Naming

end RequestGen
