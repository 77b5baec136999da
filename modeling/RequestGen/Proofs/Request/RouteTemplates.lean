import Mathlib.Data.List.Infix
import RequestGen.Proofs.Distinct
import RequestGen.Request.ParameterNames

/-! # The names of a route template

A route is literal text with placeholders in it: a mark, a name and a closing brace. `Template`
holds the parts of one in turn. Any text without the mark can be literal, and any text without a
closing brace can be a name. The names are read back from the written text one after another
(`Template.placeholders_chars`): no placeholder starts in a literal text and goes on outside, since
no mark ends as it starts (`IsUnbordered`). So the parameters of a path and of a route are the
identifiers among the names of both, each once (`listsFirst_routeParamNames`). -/

namespace RequestGen

namespace Naming

/-- No text but the whole stands both at the start and at the end of a mark. -/
def IsUnbordered (mark : List Char) : Prop :=
  ∀ v ∈ mark.tails, v <+: mark → v = [] ∨ v = mark

instance (mark : List Char) : Decidable (IsUnbordered mark) := by
  unfold IsUnbordered
  infer_instance

/-- A text that the mark does not occur in. -/
def Literal (mark : List Char) : Type := { s : List Char // ¬ mark <:+: s }

/-- What may stand in a placeholder. -/
def PlaceholderName : Type := { s : List Char // s ≠ [] ∧ '\x7d' ∉ s }

/-- Literal text with placeholders in it. -/
inductive Template (mark : List Char) : Type where
  | literal (s : Literal mark)
  | placeholder (s : Literal mark) (name : PlaceholderName) (rest : Template mark)

namespace Template

variable {mark : List Char}

/-- The characters of the written text. -/
def chars : Template mark → List Char
  | literal s => s.val
  | placeholder s name rest => s.val ++ (mark ++ (name.val ++ '\x7d' :: rest.chars))

/-- The names in the placeholders, from left to right. -/
def nameChars : Template mark → List (List Char)
  | literal _ => []
  | placeholder _ name rest => name.val :: rest.nameChars

def text (t : Template mark) : String := String.ofList t.chars

def names (t : Template mark) : List String := t.nameChars.map String.ofList

end Template

/-! ### Reading placeholders -/

variable {mark s name rest : List Char}

theorem placeholders_append (h : ∀ x, x <:+ s → x ≠ [] → ¬ mark <+: x ++ rest) :
    placeholders mark (s ++ rest) = placeholders mark rest := by
  induction s with
  | nil => rfl
  | cons c s ih =>
    have hc : ¬ mark <+: c :: (s ++ rest) := h (c :: s) (List.suffix_refl _) (List.cons_ne_nil c s)
    rw [List.cons_append, placeholders, if_neg (by simpa using hc),
      ih fun x hx => h x (hx.trans (List.suffix_cons c s))]

theorem placeholders_mark (hmark : mark ≠ []) (hname : name ≠ []) (hbrace : '\x7d' ∉ name) :
    placeholders mark (mark ++ (name ++ '\x7d' :: rest)) = name :: placeholders mark rest := by
  obtain ⟨c, tail, rfl⟩ := List.exists_cons_of_ne_nil hmark
  have hinside : (tail ++ (name ++ '\x7d' :: rest)).drop ((c :: tail).length - 1) =
      name ++ '\x7d' :: rest := by
    rw [List.length_cons, Nat.add_sub_cancel, List.drop_left]
  have hother : ∀ d ∈ name, decide (d ≠ '\x7d') = true := by
    intro d hd
    exact decide_eq_true fun heq => hbrace (heq ▸ hd)
  have htake : (name ++ '\x7d' :: rest).takeWhile (· ≠ '\x7d') = name := by
    rw [List.takeWhile_append_of_pos hother, List.takeWhile_cons_of_neg (by simp), List.append_nil]
  have hdrop : (name ++ '\x7d' :: rest).dropWhile (· ≠ '\x7d') = '\x7d' :: rest := by
    rw [List.dropWhile_append_of_pos hother, List.dropWhile_cons_of_neg (by simp)]
  rw [List.cons_append, placeholders, if_pos (by simp)]
  dsimp only
  split
  · next hnil =>
    rw [hinside, hdrop] at hnil
    exact absurd hnil (List.cons_ne_nil _ _)
  · next hcons =>
    rw [hinside, hdrop] at hcons
    obtain ⟨-, rfl⟩ := List.cons.inj hcons
    simp only [hinside, htake, List.isEmpty_iff, if_neg hname]

namespace Literal

variable (s : Literal mark) {x : List Char}

theorem not_prefix (hx : x <:+ s.val) : ¬ mark <+: x :=
  fun h => s.property (h.isInfix.trans hx.isInfix)

theorem not_prefix_append (hmark : IsUnbordered mark) (hx : x <:+ s.val) (hne : x ≠ []) :
    ¬ mark <+: x ++ (mark ++ rest) := by
  intro h
  rcases List.prefix_or_prefix_of_prefix h (List.prefix_append x _) with hinside | ⟨v, hv⟩
  · exact s.not_prefix hx hinside
  -- the mark is `x` and a text `v` that the mark behind `x` starts with
  have hstart : v <+: mark := by
    rw [← hv, List.prefix_append_right_inj, hv] at h
    exact List.prefix_of_prefix_length_le h (List.prefix_append mark rest) (by simp [← hv])
  have hend : v ∈ mark.tails := (List.mem_tails v mark).mpr ⟨x, hv⟩
  rcases hmark v hend hstart with rfl | rfl
  · rw [List.append_nil] at hv
    exact s.not_prefix hx (hv ▸ List.prefix_refl x)
  · exact hne (List.append_left_eq_self.mp hv)

end Literal

/-- The names of a written template are read back in order. -/
theorem Template.placeholders_chars (hne : mark ≠ []) (hmark : IsUnbordered mark)
    (t : Template mark) : placeholders mark t.chars = t.nameChars := by
  induction t with
  | literal s =>
    have hnone : placeholders mark (s.val ++ []) = placeholders mark [] := by
      refine placeholders_append fun x hx _ => ?_
      rw [List.append_nil]
      exact s.not_prefix hx
    rwa [List.append_nil, placeholders] at hnone
  | placeholder s name rest ih =>
    obtain ⟨hname, hbrace⟩ := name.property
    rw [chars, placeholders_append fun x hx => s.not_prefix_append hmark hx,
      placeholders_mark hne hname hbrace, ih, nameChars]

end Naming

/-- The parameter names of a path and a route are the identifiers among the names in their
placeholders, those of the path first, each once and in order of first occurrence. -/
theorem listsFirst_routeParamNames (path : Naming.Template ['\x7b'])
    (route : Naming.Template ['$', '\x7b']) :
    ListsFirst Naming.isIdentifier (path.names ++ route.names)
      (routeParamNames path.text route.text) := by
  have hpath := path.placeholders_chars (by decide) (by decide)
  have hroute := route.placeholders_chars (by decide) (by decide)
  have hnames : routeParamNames path.text route.text =
      ((path.names ++ route.names).filter Naming.isIdentifier).eraseDups := by
    rw [routeParamNames, Naming.Template.text, Naming.Template.text, String.toList_ofList,
      String.toList_ofList, hpath, hroute, List.map_append, eraseDups_filter]
    rfl
  rw [hnames]
  exact listsFirst_eraseDups _ _

example : routeParamNames "/\x7bpetId\x7d\x7b\x7btag\x7d/\x7bv1\x7d" "/$$\x7bv1\x7d$\x7btag\x7d" =
    ["petId", "v1", "tag"] := by
  decide +kernel

end RequestGen
