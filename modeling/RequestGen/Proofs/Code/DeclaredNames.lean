import Mathlib.Data.List.Infix
import RequestGen.Client.Style
import RequestGen.Proofs.Code.DeclaredTypes
import RequestGen.Proofs.Naming.Casings

/-! # The names that are declared for an operation

Each name is the casing of the operation's name between two fixed texts, which depend on what is
declared. No name of one kind is one of another kind, whatever the casings (`nameFor_inj`). -/

namespace RequestGen

/-! ### Lines that declare names -/

/-- The text declares a type of that name and nothing else. -/
def IsTypeDeclaration (text name : String) : Prop :=
  ∃ definition, text = "export type " ++ name ++ " = " ++ definition

theorem isTypeDeclaration_of (name opening inside closing : String) : IsTypeDeclaration
    ("export type " ++ name ++ (" = " ++ opening) ++ inside ++ closing) name :=
  ⟨opening ++ inside ++ closing, by simp only [String.append_assoc]⟩

theorem IsTypeDeclaration.ne_empty {text name : String} (h : IsTypeDeclaration text name) :
    text ≠ "" := by
  obtain ⟨definition, rfl⟩ := h
  simp

/-- The text has lines that export the types and constants of those names, in that order. -/
def DeclaresInOrder : List String → String → Prop
  | [], _ => True
  | name :: names, text => ∃ before keyword rest, keyword ∈ ["type", "const"] ∧
      text = before ++ ("\nexport " ++ keyword ++ " " ++ name ++ " = ") ++ rest ∧
      DeclaresInOrder names rest

namespace DeclaresInOrder

variable {names others : List String} {text : String}

theorem append_left (h : DeclaresInOrder names text) (before : String) :
    DeclaresInOrder names (before ++ text) := by
  cases names with
  | nil => trivial
  | cons name names =>
    obtain ⟨first, keyword, rest, hkeyword, rfl, hrest⟩ := h
    exact ⟨before ++ first, keyword, rest, hkeyword, by simp only [String.append_assoc], hrest⟩

theorem append {after : String} (h : DeclaresInOrder names text)
    (hafter : DeclaresInOrder others after) :
    DeclaresInOrder (names ++ others) (text ++ after) := by
  induction names generalizing text with
  | nil => exact hafter.append_left text
  | cons name names ih =>
    obtain ⟨before, keyword, rest, hkeyword, rfl, hrest⟩ := h
    exact ⟨before, keyword, rest ++ after, hkeyword, String.append_assoc, ih hrest⟩

theorem append_right (h : DeclaresInOrder names text) (after : String) :
    DeclaresInOrder names (text ++ after) := by
  have htrivial : DeclaresInOrder [] after := trivial
  simpa using h.append htrivial

theorem join_declarations {declarations : List String}
    (h : List.Forall₂ IsTypeDeclaration declarations names) :
    DeclaresInOrder names (String.join (declarations.map fun d => "\n" ++ d ++ "\n")) := by
  induction h with
  | nil => trivial
  | @cons d name declarations names hd _ ih =>
    obtain ⟨definition, rfl⟩ := hd
    rw [List.map_cons, String.join_cons]
    let rest := String.join (declarations.map fun d => "\n" ++ d ++ "\n")
    refine ⟨"", "type", definition ++ ("\n" ++ rest), by simp, ?_, ?_⟩
    · rw [String.empty_append, show "\nexport " ++ "type" ++ " " = "\n" ++ "export type " from rfl]
      simp only [String.append_assoc, rest]
    · exact (ih.append_left "\n").append_left definition

end DeclaresInOrder

/-- The types that are declared with a function. -/
def RequestFunction.declaredTypes (f : RequestFunction) : List String :=
  f.declarations.filterMap fun d => declaredType? d.toList

theorem IsTypeDeclaration.declaredType? {text name : String} (h : IsTypeDeclaration text name)
    (hname : ∀ c ∈ name.toList, Text.isNameChar c = true) :
    declaredType? text.toList = some name := by
  obtain ⟨definition, rfl⟩ := h
  let rest := ' ' :: ("= ".toList ++ definition.toList)
  have hchars : ("export type " ++ name ++ " = " ++ definition).toList =
      "export ".toList ++ ("type ".toList ++ (name.toList ++ rest)) := by
    simp [String.toList_append, rest]
  have htake : (name.toList ++ rest).takeWhile Text.isNameChar = name.toList := by
    rw [List.takeWhile_append_of_pos hname, List.takeWhile_cons_of_neg (by decide), List.append_nil]
  rw [hchars]
  show some (String.ofList ((name.toList ++ rest).takeWhile Text.isNameChar)) = some name
  rw [htake, String.ofList_toList]

/-! ### Kinds of names -/

/-- What a name is declared for. -/
inductive DeclaredKind where
  | request
  | pathParams
  | result
  | urlFunction
deriving DecidableEq

namespace DeclaredKind

variable {kind other : DeclaredKind} {casing name : String}

def front : DeclaredKind → String
  | urlFunction => "get"
  | _ => ""

def ending : DeclaredKind → String
  | request => "Request"
  | pathParams => "PathParams"
  | result => "Result"
  | urlFunction => "Url"

/-- The name of that kind for an operation whose name has the given casing. -/
def nameFor (kind : DeclaredKind) (casing : String) : String :=
  kind.front ++ casing ++ kind.ending

theorem eq_of_ending_suffix (h : kind.ending.toList <:+ other.ending.toList) : kind = other := by
  revert h
  cases kind <;> cases other <;> decide

/-- The name tells its kind and the casing. -/
theorem nameFor_inj : kind.nameFor casing = other.nameFor name ↔ kind = other ∧ casing = name := by
  constructor
  · intro h
    have hsuffix (k : DeclaredKind) (s : String) : k.ending.toList <:+ (k.nameFor s).toList := by
      rw [nameFor, String.toList_append]
      exact List.suffix_append _ _
    have hkind : kind = other := by
      rcases List.suffix_or_suffix_of_suffix (hsuffix kind casing) (h ▸ hsuffix other name) with
        hends | hends
      · exact eq_of_ending_suffix hends
      · exact (eq_of_ending_suffix hends).symm
    subst hkind
    rw [nameFor, nameFor, String.append_left_inj, String.append_right_inj] at h
    exact ⟨rfl, h⟩
  · rintro ⟨rfl, rfl⟩
    rfl

end DeclaredKind

end RequestGen
