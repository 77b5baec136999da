import Mathlib.Data.List.Basic
import Mathlib.Data.List.Induction

/-! # The distinct items of a list

`List.eraseDups` keeps the first occurrence of each item. Dropping repeats and dropping items of a
kind can be done in either order, and both together give the items of the other kind, each once and
in order of first occurrence (`listsFirst_eraseDups`). -/

namespace RequestGen

variable {α : Type} [BEq α] [LawfulBEq α]

theorem nodup_eraseDups : ∀ l : List α, l.eraseDups.Nodup
  | [] => by simp
  | a :: l => by
    rw [List.eraseDups_cons, List.nodup_cons]
    refine ⟨fun ha => ?_, nodup_eraseDups _⟩
    simp [List.mem_eraseDups] at ha
termination_by l => l.length
decreasing_by
  have := List.length_filter_le (fun b => !b == a) l
  simp only [List.length_cons]; omega

theorem eraseDups_of_nodup {l : List α} (h : l.Nodup) : l.eraseDups = l := by
  induction l with
  | nil => rfl
  | cons a l ih =>
    obtain ⟨ha, hl⟩ := List.nodup_cons.mp h
    have hkeep : l.filter (fun b => !b == a) = l := by
      refine List.filter_eq_self.mpr fun b hb => ?_
      simpa using fun hba : b = a => ha (hba ▸ hb)
    rw [List.eraseDups_cons, hkeep, ih hl]

theorem eraseDups_filter (p : α → Bool) :
    ∀ l : List α, (l.filter p).eraseDups = l.eraseDups.filter p
  | [] => by simp
  | a :: l => by
    have ih := eraseDups_filter p (l.filter fun b => !b == a)
    rw [List.filter_filter] at ih
    by_cases ha : p a = true
    · rw [List.filter_cons_of_pos ha, List.eraseDups_cons, List.eraseDups_cons,
        List.filter_cons_of_pos ha, ← ih, List.filter_filter]
      simp only [Bool.and_comm]
    · rw [List.filter_cons_of_neg ha, List.eraseDups_cons, List.filter_cons_of_neg ha, ← ih]
      -- an item that passes is not `a`, which does not
      congr 1
      refine List.filter_congr fun b _ => ?_
      by_cases hb : b = a
      · simp [hb, ha]
      · simp [hb]
termination_by l => l.length
decreasing_by
  have := List.length_filter_le (fun b => !b == a) l
  simp only [List.length_cons]; omega

theorem eraseDups_eraseDups_append (l m : List α) :
    (l.eraseDups ++ m).eraseDups = (l ++ m).eraseDups := by
  have hfilter : m.removeAll l.eraseDups = m.removeAll l := by
    refine List.filter_congr fun a _ => ?_
    simp
  rw [List.eraseDups_append, List.eraseDups_append, eraseDups_of_nodup (nodup_eraseDups l), hfilter]

theorem eraseDups_append_eraseDups_append (k l m : List α) :
    (k ++ (l.eraseDups ++ m)).eraseDups = (k ++ (l ++ m)).eraseDups := by
  rw [List.eraseDups_append, List.eraseDups_append]
  congr 1
  rw [List.removeAll, List.removeAll, List.filter_append, List.filter_append, ← eraseDups_filter,
    eraseDups_eraseDups_append]

theorem pairwise_idxOf_eraseDups (l : List α) :
    l.eraseDups.Pairwise fun a b => l.idxOf a < l.idxOf b := by
  induction l using List.reverseRecOn with
  | nil => exact .nil
  | append_singleton l c ih =>
    have hkept : l.eraseDups.Pairwise fun a b => (l ++ [c]).idxOf a < (l ++ [c]).idxOf b := by
      refine ih.imp_of_mem fun {a b} ha hb hab => ?_
      rw [List.idxOf_append_of_mem (List.mem_eraseDups.mp ha),
        List.idxOf_append_of_mem (List.mem_eraseDups.mp hb)]
      exact hab
    rw [List.eraseDups_append]
    by_cases hc : c ∈ l
    · have hnone : [c].removeAll l = [] := by simp [List.removeAll, hc]
      rw [hnone, List.eraseDups_nil, List.append_nil]
      exact hkept
    · have hone : ([c].removeAll l).eraseDups = [c] := by
        simp [List.removeAll, hc, List.eraseDups_cons]
      rw [hone, List.pairwise_append]
      refine ⟨hkept, List.pairwise_singleton _ c, fun a ha b hb => ?_⟩
      -- a new item stands after all that are kept
      obtain rfl := List.mem_singleton.mp hb
      have ha := List.mem_eraseDups.mp ha
      rw [List.idxOf_append_of_mem ha, List.idxOf_append_of_notMem hc]
      exact Nat.lt_add_right _ (List.idxOf_lt_length_of_mem ha)

/-- The items of a list that pass a test, each once and in order of first occurrence. -/
structure ListsFirst (p : α → Bool) (all l : List α) : Prop where
  nodup : l.Nodup
  mem_iff : ∀ a, a ∈ l ↔ a ∈ all ∧ p a = true
  order : l.Pairwise fun a b => all.idxOf a < all.idxOf b

theorem listsFirst_eraseDups (p : α → Bool) (all : List α) :
    ListsFirst p all (all.filter p).eraseDups where
  nodup := nodup_eraseDups _
  mem_iff a := by rw [List.mem_eraseDups, List.mem_filter]
  order := by
    rw [eraseDups_filter]
    exact (pairwise_idxOf_eraseDups all).filter p

end RequestGen
