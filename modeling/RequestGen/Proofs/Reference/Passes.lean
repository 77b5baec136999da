import RequestGen.Proofs.Reference.Chain

/-! # The passes that follow references

References are followed in a loop. A `Visit` is what one pass hands to the next, `Visit.pass` is one
pass, and `Runs` is a whole run with the number of its passes. A pass goes on to the location that
the reference names if its mark is new and a value stands there (`Visit.pass_of_value?`), and ends
the run as cyclic if it is not new (`Visit.pass_of_seen`). `follow` makes the same passes, as far as
its fuel goes. -/

namespace RequestGen

namespace Reference

/-- What a pass starts from: where the run stands, the marks behind it and the imports so far. -/
structure Visit extends Stop where
  seen : List (String × String) := []
  imports : List Import := []

namespace Visit

/-- The first visit: of the start value, with the current document selected. -/
def start (ctx : Context) (value : Json) : Visit where
  specKey := ctx.specKey
  value := value

/-- The visit of a value at `l`, after `s`. -/
def arrive (s : Visit) (l : Location) (value : Json) : Visit where
  specKey := l.specKey
  value := value
  seen := l.mark :: s.seen
  imports := s.imports ++ l.import?.toList

/-- The imports so far before those that a resolved object adds. -/
def prepend (s : Visit) (r : Resolved) : Resolved := { r with imports := s.imports ++ r.imports }

/-- What a run gives if the value has no reference. -/
def outcome (s : Visit) : Except Fault Resolved :=
  match s.value with
  | .obj fields => .ok ⟨fields, s.imports⟩
  | value => .error (.reference (.notObject value))

/-- One pass, if the value has a reference. -/
def pass (specs : Json.Fields) (s : Visit) : Option (Except Fault Visit) :=
  (refOf? s.value).map fun
    | .str ref =>
      let r := ofText ref
      match select specs s.specKey r with
      | .error e => .error (.reference e)
      | .ok specKey =>
        if s.seen.contains (specKey, r.place) then .error (.reference (.cyclic ref))
        else
          match target specs specKey ref r with
          | .error e => .error (.reference e)
          | .ok next => .ok (s.arrive ⟨specKey, r.tokens⟩ next)
    | _ => .error .noMembers

end Visit

/-- The run from `s` has so many passes and that outcome. -/
inductive Runs (specs : Json.Fields) : Visit → Nat → Except Fault Resolved → Prop where
  | done {s : Visit} (h : s.pass specs = none) : Runs specs s 0 s.outcome
  | fails {s : Visit} {e : Fault} (h : s.pass specs = some (.error e)) : Runs specs s 1 (.error e)
  | passes {s s' : Visit} {n : Nat} {outcome : Except Fault Resolved}
      (h : s.pass specs = some (.ok s')) (hr : Runs specs s' n outcome) :
      Runs specs s (n + 1) outcome

theorem Runs.unique {specs : Json.Fields} {s : Visit} {n m : Nat} {r r' : Except Fault Resolved}
    (h : Runs specs s n r) (h' : Runs specs s m r') : n = m ∧ r = r' := by
  induction h generalizing m with
  | done h =>
    cases h' with
    | done => exact ⟨rfl, rfl⟩
    | fails h' => exact nomatch h.symm.trans h'
    | passes h' => exact nomatch h.symm.trans h'
  | fails h =>
    cases h' with
    | done h' => exact nomatch h.symm.trans h'
    | fails h' =>
      obtain rfl := Except.error.inj (Option.some.inj (h.symm.trans h'))
      exact ⟨rfl, rfl⟩
    | passes h' => exact nomatch Option.some.inj (h.symm.trans h')
  | passes h _ ih =>
    cases h' with
    | done h' => exact nomatch h.symm.trans h'
    | fails h' => exact nomatch Option.some.inj (h.symm.trans h')
    | passes h' hr' =>
      obtain rfl := Except.ok.inj (Option.some.inj (h.symm.trans h'))
      obtain ⟨rfl, rfl⟩ := ih hr'
      exact ⟨rfl, rfl⟩

namespace Visit

variable {specs : Json.Fields} {s s' : Visit} {l : Location} {value : Json} {fuel : Nat}

theorem pass_eq_none_iff : s.pass specs = none ↔ refOf? s.value = none :=
  Option.map_eq_none_iff

theorem pass_of_selects {text specKey : String} (hr : refOf? s.value = some (.str text))
    (hs : Selects specs s.specKey (ofText text).document specKey) :
    s.pass specs = some (
      if s.seen.contains (specKey, (ofText text).place) then .error (.reference (.cyclic text))
      else
        match target specs specKey text (ofText text) with
        | .error e => .error (.reference e)
        | .ok next => .ok (s.arrive ⟨specKey, (ofText text).tokens⟩ next)) := by
  unfold pass
  rw [hr, Option.map_some]
  dsimp only
  rw [select_eq_ok_iff.mpr hs]

theorem pass_of_value? (hn : Names specs s.toStop l) (hseen : l.mark ∉ s.seen)
    (hv : l.value? specs = some value) : s.pass specs = some (.ok (s.arrive l value)) := by
  obtain @⟨text, specKey, hr, hs⟩ := hn
  have hmark : ¬s.seen.contains (specKey, (ofText text).place) = true := fun h =>
    hseen (List.contains_iff_mem.mp h)
  rw [pass_of_selects hr hs, if_neg hmark, target_eq_ok_iff.mpr hv]

theorem pass_of_seen (hn : Names specs s.toStop l) (hseen : l.mark ∈ s.seen) :
    ∃ ref, s.pass specs = some (.error (.reference (.cyclic ref))) := by
  obtain @⟨text, specKey, hr, hs⟩ := hn
  have hmark : s.seen.contains (specKey, (ofText text).place) = true :=
    List.contains_iff_mem.mpr hseen
  exact ⟨text, by rw [pass_of_selects hr hs, if_pos hmark]⟩

/-- A pass is cyclic at a mark that is behind it, goes on at a new one, or fails for another
reason. -/
theorem pass_cases {r : Except Fault Visit} (h : s.pass specs = some r) :
    (∃ l ref, Names specs s.toStop l ∧ l.mark ∈ s.seen ∧
      r = .error (.reference (.cyclic ref))) ∨
    (∃ l value, Names specs s.toStop l ∧ l.mark ∉ s.seen ∧ l.value? specs = some value ∧
      r = .ok (s.arrive l value)) ∨
    ∃ e, r = .error e ∧ ∀ ref, e ≠ .reference (.cyclic ref) := by
  obtain ⟨ref, hr, rfl⟩ := Option.map_eq_some_iff.mp h
  cases ref with
  | str text =>
    dsimp only
    cases hs : select specs s.specKey (ofText text) with
    | error e =>
      exact .inr (.inr ⟨_, rfl, fun ref heq => select_ne_cyclic (Fault.reference.inj heq ▸ hs)⟩)
    | ok specKey =>
      have hn : Names specs s.toStop ⟨specKey, (ofText text).tokens⟩ :=
        .intro text hr (select_eq_ok_iff.mp hs)
      dsimp only
      by_cases hmark : s.seen.contains (specKey, (ofText text).place) = true
      · rw [if_pos hmark]
        exact .inl ⟨_, text, hn, List.contains_iff_mem.mp hmark, rfl⟩
      · rw [if_neg hmark]
        cases ht : target specs specKey text (ofText text) with
        | error e =>
          exact .inr (.inr ⟨_, rfl, fun ref heq => target_ne_cyclic (Fault.reference.inj heq ▸ ht)⟩)
        | ok next =>
          exact .inr (.inl ⟨_, next, hn, fun hmem => hmark (List.contains_iff_mem.mpr hmem),
            target_eq_ok_iff.mp ht, rfl⟩)
  | _ => exact .inr (.inr ⟨_, rfl, nofun⟩)

theorem exists_of_pass_eq_ok (h : s.pass specs = some (.ok s')) :
    ∃ l value, Names specs s.toStop l ∧ l.mark ∉ s.seen ∧ l.value? specs = some value ∧
      s' = s.arrive l value := by
  obtain ⟨_, _, -, -, h⟩ | ⟨l, value, hn, hseen, hv, h⟩ | ⟨_, h, -⟩ := pass_cases h
  · exact nomatch h
  · exact ⟨l, value, hn, hseen, hv, Except.ok.inj h⟩
  · exact nomatch h

theorem exists_of_pass_eq_cyclic {ref : String}
    (h : s.pass specs = some (.error (.reference (.cyclic ref)))) :
    ∃ l, Names specs s.toStop l ∧ l.mark ∈ s.seen := by
  obtain ⟨l, _, hn, hseen, -⟩ | ⟨_, _, -, -, -, h⟩ | ⟨e, h, hne⟩ := pass_cases h
  · exact ⟨l, hn, hseen⟩
  · exact nomatch h
  · exact absurd (Except.error.inj h).symm (hne ref)

/-! ### The run that `follow` makes -/

theorem follow_of_pass_eq_none (h : s.pass specs = none) :
    (follow specs fuel s.seen s.specKey s.value).map s.prepend = s.outcome := by
  unfold follow outcome
  rw [pass_eq_none_iff.mp h]
  cases s.value <;> simp [Except.map, prepend]

theorem follow_of_pass_eq_error {e : Fault} (h : s.pass specs = some (.error e)) :
    follow specs fuel s.seen s.specKey s.value = .error e := by
  obtain ⟨ref, hr, h⟩ := Option.map_eq_some_iff.mp h
  unfold follow
  rw [hr]
  cases ref with
  | str text =>
    dsimp only at h ⊢
    generalize select specs s.specKey (ofText text) = selected at h ⊢
    cases selected with
    | error _ => exact congrArg Except.error (Except.error.inj h)
    | ok specKey =>
      dsimp only at h ⊢
      by_cases hmark : s.seen.contains (specKey, (ofText text).place) = true
      · rw [if_pos hmark] at h ⊢
        exact congrArg Except.error (Except.error.inj h)
      · rw [if_neg hmark] at h ⊢
        generalize target specs specKey text (ofText text) = reached at h ⊢
        cases reached with
        | error _ => exact congrArg Except.error (Except.error.inj h)
        | ok _ => cases h
  | _ => exact congrArg Except.error (Except.error.inj h)

theorem follow_of_pass_eq_ok (h : s.pass specs = some (.ok s')) :
    (follow specs (fuel + 1) s.seen s.specKey s.value).map s.prepend =
      (follow specs fuel s'.seen s'.specKey s'.value).map s'.prepend := by
  obtain ⟨_, value, @⟨text, specKey, hr, hs⟩, hseen, hv, rfl⟩ := exists_of_pass_eq_ok h
  have hmark : ¬s.seen.contains (specKey, (ofText text).place) = true := fun h =>
    hseen (List.contains_iff_mem.mp h)
  rw [follow.eq_def]
  dsimp only
  rw [hr]
  dsimp only
  rw [select_eq_ok_iff.mpr hs]
  dsimp only
  rw [if_neg hmark, target_eq_ok_iff.mpr hv]
  dsimp only [arrive, Location.mark]
  rw [← Reference.place]
  cases follow specs fuel ((specKey, (ofText text).place) :: s.seen) specKey value with
  | error e => rfl
  | ok resolved =>
    simp only [Except.map, prepend, List.append_assoc, ← importOf_eq]

end Visit

end Reference

end RequestGen
