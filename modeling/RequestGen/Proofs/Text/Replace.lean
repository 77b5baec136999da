import Mathlib.Data.List.Infix
import RequestGen.Text.Pieces

/-! # What an exchange of texts leaves

An exchange for another text leaves a text as it is exactly if the exchanged text does not occur in
it (`replace_eq_self_iff`), and where it does occur the new text occurs afterwards
(`replace_eq_iff`). Two texts are exchanged each on its
own where no occurrence reaches from one into the other (`replaceFrom_append`). -/

namespace RequestGen

namespace Text

variable {old new a b s : List Char}

theorem replace_eq_replaceFrom (hold : old ≠ []) : replace old new s = replaceFrom old new 0 s := by
  rw [replace, if_neg (by simpa using hold)]

/-- Where no occurrence reaches from one text into the next, each is exchanged on its own. -/
theorem replaceFrom_append (h : ∀ x, x <:+ a → x ≠ [] → old <+: x ++ b → old <+: x) (skip : Nat)
    (hskip : skip ≤ a.length) :
    replaceFrom old new skip (a ++ b) = replaceFrom old new skip a ++ replaceFrom old new 0 b := by
  -- over the first text; `skip` counts what is left of an occurrence, which ends in that text too
  induction a generalizing skip with
  | nil =>
    obtain rfl : skip = 0 := Nat.le_zero.mp hskip
    rfl
  | cons c a ih =>
    have ih := ih fun x hx => h x (hx.trans (List.suffix_cons c a))
    cases skip with
    | succ skip => exact ih skip (Nat.le_of_succ_le_succ hskip)
    | zero =>
      by_cases hold : old <+: c :: a
      · have hall : old <+: c :: (a ++ b) := hold.trans (List.prefix_append (c :: a) b)
        have hlength : old.length - 1 ≤ a.length := by
          have := hold.length_le
          rw [List.length_cons] at this
          omega
        simp only [List.cons_append, replaceFrom, List.isPrefixOf_iff_prefix.mpr hold,
          List.isPrefixOf_iff_prefix.mpr hall, if_true, ih _ hlength, List.append_assoc]
      · have hall : ¬ old <+: c :: (a ++ b) := fun hp =>
          hold (h (c :: a) (List.suffix_refl _) (List.cons_ne_nil c a) hp)
        simp only [List.cons_append, replaceFrom, List.isPrefixOf_iff_prefix, hold, hall, if_false,
          ih 0 (Nat.zero_le _)]

theorem mem_replaceFrom {skip : Nat} {c : Char} (h : c ∈ replaceFrom old new skip s) :
    c ∈ new ∨ c ∈ s := by
  induction s generalizing skip with
  | nil => exact .inr h
  | cons d s ih =>
    cases skip with
    | succ skip => exact (ih h).imp_right (List.mem_cons_of_mem d)
    | zero =>
      rw [replaceFrom] at h
      split at h
      · rcases List.mem_append.mp h with h | h
        · exact .inl h
        · exact (ih h).imp_right (List.mem_cons_of_mem d)
      · rcases List.mem_cons.mp h with rfl | h
        · exact .inr List.mem_cons_self
        · exact (ih h).imp_right (List.mem_cons_of_mem d)

theorem replace_ne_nil (hnew : new ≠ []) (hs : s ≠ []) : replace old new s ≠ [] := by
  cases s with
  | nil => exact absurd rfl hs
  | cons c s =>
    unfold replace
    split
    · exact hs
    · rw [replaceFrom]
      split <;> simp [hnew]

theorem replaceFrom_eq_self (h : ¬ old <:+: s) : replaceFrom old new 0 s = s := by
  induction s with
  | nil => rfl
  | cons c s ih =>
    rw [List.infix_cons_iff, not_or] at h
    rw [replaceFrom, if_neg (by simpa using h.1), ih h.2]

theorem infix_replaceFrom (hold : old ≠ []) (h : old <:+: s) :
    new <:+: replaceFrom old new 0 s := by
  induction s with
  | nil => exact absurd (List.infix_nil.mp h) hold
  | cons c s ih =>
    rw [replaceFrom]
    split
    · exact (List.prefix_append new _).isInfix
    · next hp =>
      rcases List.infix_cons_iff.mp h with h | h
      · exact absurd (List.isPrefixOf_iff_prefix.mpr h) hp
      · exact List.infix_cons (ih h)

/-- A text without `new` comes out of an exchange only if it went in and was left as it is. -/
theorem replace_eq_iff (hold : old ≠ []) (hs : ¬ new <:+: s) :
    replace old new a = s ↔ a = s ∧ ¬ old <:+: s := by
  rw [replace_eq_replaceFrom hold]
  constructor
  · rintro rfl
    have hfree : ¬ old <:+: a := fun h => hs (infix_replaceFrom hold h)
    rw [replaceFrom_eq_self hfree]
    exact ⟨rfl, hfree⟩
  · rintro ⟨rfl, hfree⟩
    exact replaceFrom_eq_self hfree

theorem replaceFrom_skip (skip : Nat) :
    replaceFrom old new skip s = replaceFrom old new 0 (s.drop skip) := by
  induction s generalizing skip with
  | nil => rw [List.drop_nil]; rfl
  | cons c s ih =>
    cases skip with
    | zero => rfl
    | succ skip => exact ih skip

variable (new) in
theorem exists_first_occurrence (hold : old ≠ []) (h : old <:+: s) :
    ∃ before after, s = before ++ (old ++ after) ∧ after.length < s.length ∧
      replaceFrom old new 0 s = before ++ (new ++ replaceFrom old new 0 after) := by
  induction s with
  | nil => exact absurd (List.infix_nil.mp h) hold
  | cons c s ih =>
    by_cases hp : old <+: c :: s
    · obtain ⟨after, hs⟩ := hp
      obtain ⟨d, old, rfl⟩ := List.exists_cons_of_ne_nil hold
      obtain ⟨rfl, rfl⟩ := List.cons.inj hs
      refine ⟨[], after, rfl, Nat.lt_succ_of_le (by simp), ?_⟩
      rw [replaceFrom, if_pos (by simp), replaceFrom_skip]
      simp
    · obtain ⟨before, after, rfl, hshorter, hreplaced⟩ :=
        ih ((List.infix_cons_iff.mp h).resolve_left hp)
      refine ⟨c :: before, after, rfl, Nat.lt_succ_of_lt hshorter, ?_⟩
      rw [replaceFrom, if_neg (by simpa using hp), hreplaced]
      rfl

theorem replaceFrom_self (hold : old ≠ []) (s : List Char) : replaceFrom old old 0 s = s := by
  by_cases h : old <:+: s
  · obtain ⟨before, after, hs, hshorter, hreplaced⟩ := exists_first_occurrence old hold h
    rw [hreplaced, replaceFrom_self hold after, ← hs]
  · exact replaceFrom_eq_self h
termination_by s.length

variable (new) in
theorem exists_length_replaceFrom (hold : old ≠ []) (s : List Char) :
    ∃ n, (replaceFrom old new 0 s).length + n * old.length = s.length + n * new.length := by
  by_cases h : old <:+: s
  · obtain ⟨before, after, hs, hshorter, hreplaced⟩ := exists_first_occurrence new hold h
    obtain ⟨n, hn⟩ := exists_length_replaceFrom hold after
    refine ⟨n + 1, ?_⟩
    rw [hreplaced, hs]
    simp only [List.length_append, Nat.add_mul, Nat.one_mul]
    omega
  · exact ⟨0, by rw [replaceFrom_eq_self h, Nat.zero_mul, Nat.zero_mul]⟩
termination_by s.length

/-- An exchange for another text changes every text in which the exchanged one occurs. -/
theorem replace_eq_self_iff (hold : old ≠ []) :
    replace old new s = s ↔ old = new ∨ ¬ old <:+: s := by
  rw [replace_eq_replaceFrom hold]
  constructor
  · intro h
    refine or_iff_not_imp_right.mpr fun hoccurs => ?_
    obtain ⟨before, after, hs, -, hreplaced⟩ :=
      exists_first_occurrence new hold (not_not.mp hoccurs)
    have hrest : new ++ replaceFrom old new 0 after = old ++ after :=
      List.append_cancel_left (hreplaced.symm.trans (h.trans hs))
    obtain ⟨n, hn⟩ := exists_length_replaceFrom new hold after
    have hlength := congrArg List.length hrest
    simp only [List.length_append] at hlength
    have hsame : (n + 1) * new.length = (n + 1) * old.length := by
      simp only [Nat.add_mul, Nat.one_mul]
      omega
    exact (List.append_inj hrest (Nat.eq_of_mul_eq_mul_left n.succ_pos hsame)).1.symm
  · rintro (rfl | hfree)
    · exact replaceFrom_self hold s
    · exact replaceFrom_eq_self hfree

theorem replace_own (hold : old ≠ []) : replace old new old = new := by
  rw [replace_eq_replaceFrom hold]
  obtain ⟨before, after, hs, -, hreplaced⟩ :=
    exists_first_occurrence new hold (List.infix_refl old)
  have hlength := congrArg List.length hs
  simp only [List.length_append] at hlength
  obtain rfl : before = [] := List.length_eq_zero_iff.mp (by omega)
  obtain rfl : after = [] := List.length_eq_zero_iff.mp (by omega)
  rw [hreplaced]
  exact List.append_nil new

/-! ### Marks for single characters -/

theorem replace_cons_self (c : Char) (new s : List Char) :
    replace [c] new (c :: s) = new ++ replace [c] new s := by
  simp [replace, replaceFrom]

theorem replace_cons_of_ne {c d : Char} (h : d ≠ c) (new s : List Char) :
    replace [c] new (d :: s) = d :: replace [c] new s := by
  simp [replace, replaceFrom, Ne.symm h]

theorem replace_cons_cons_self (m x : Char) (new s : List Char) :
    replace [m, x] new (m :: x :: s) = new ++ replace [m, x] new s := by
  simp [replace, replaceFrom]

theorem replace_cons_of_not_prefix {c : Char} (hold : old ≠ []) (h : ¬ old <+: c :: s) :
    replace old new (c :: s) = c :: replace old new s := by
  rw [replace_eq_replaceFrom hold, replace_eq_replaceFrom hold, replaceFrom,
    if_neg (by simpa using h)]

theorem notMem_replace {c : Char} (h : c ∉ new) (s : List Char) : c ∉ replace [c] new s := by
  induction s with
  | nil => simp [replace, replaceFrom]
  | cons d s ih =>
    by_cases hd : d = c
    · subst hd
      rw [replace_cons_self, List.mem_append]
      rintro (hc | hc)
      · exact h hc
      · exact ih hc
    · rw [replace_cons_of_ne hd]
      intro hc
      rcases List.mem_cons.mp hc with rfl | hc
      · exact hd rfl
      · exact ih hc

theorem not_infix_replace_self {m x y : Char} (hx : x ≠ m) (hy : y ≠ x) (s : List Char) :
    ¬ [m, y] <:+: replace [m] [m, x] s := by
  induction s with
  | nil => simp [replace, replaceFrom]
  | cons d s ih =>
    by_cases hd : d = m
    · subst hd
      simp only [replace_cons_self, List.cons_append, List.nil_append, List.infix_cons_iff,
        List.cons_prefix_cons, not_or]
      exact ⟨fun h => hy h.2.1, fun h => hx h.1.symm, ih⟩
    · rw [replace_cons_of_ne hd, List.infix_cons_iff, List.cons_prefix_cons]
      rintro (h | h)
      · exact hd h.1.symm
      · exact ih h

/-- A mark of two characters in the place of one is undone where the mark does not stand in the text
before, or where it is put in for the character that starts it. -/
theorem replace_replace_mark {m x c : Char} (hx : x ≠ m) (h : c = m ∨ ¬ [m, x] <:+: s) :
    replace [m, x] [c] (replace [c] [m, x] s) = s := by
  induction s with
  | nil => simp [replace, replaceFrom]
  | cons d s ih =>
    have hrest : c = m ∨ ¬ [m, x] <:+: s := h.imp_right fun h hs => h (List.infix_cons hs)
    by_cases hd : d = c
    · subst hd
      rw [replace_cons_self, List.cons_append, List.singleton_append, replace_cons_cons_self,
        ih hrest, List.singleton_append]
    · have hprefix : ¬ [m, x] <+: d :: replace [c] [m, x] s := by
        intro hp
        obtain ⟨rfl, hnext⟩ := List.cons_prefix_cons.mp hp
        have hs := h.resolve_left (Ne.symm hd)
        -- what follows is an `x` of the text itself, since a mark starts otherwise
        cases s with
        | nil => simp [replace, replaceFrom] at hnext
        | cons e s =>
          by_cases he : e = c
          · subst he
            rw [replace_cons_self, List.cons_append, List.cons_prefix_cons] at hnext
            exact hx hnext.1
          · rw [replace_cons_of_ne he, List.cons_prefix_cons] at hnext
            obtain ⟨rfl, -⟩ := hnext
            exact hs (List.prefix_append [m, x] s).isInfix
      rw [replace_cons_of_ne hd, replace_cons_of_not_prefix (List.cons_ne_nil m [x]) hprefix,
        ih hrest]

end Text

end RequestGen
