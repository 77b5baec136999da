import Mathlib.Data.List.Forall2

/-! # Outcomes of lists

A list of which each item is computed in turn has a result for each item, in order
(`forall₂_of_mapM_eq_ok`), or the fault of the first item that has none (`mapM_eq_error_iff`). -/

namespace RequestGen

variable {α β ε : Type} {f : α → Except ε β} {items : List α} {fault : ε}

/-! ### One outcome -/

theorem exists_of_map_eq_ok {x : Except ε α} {g : α → β} {b : β} (h : x.map g = .ok b) :
    ∃ a, x = .ok a ∧ g a = b := by
  cases x with
  | error _ => exact nomatch h
  | ok a => exact ⟨a, rfl, Except.ok.inj h⟩

theorem eq_error_of_map_eq_error {x : Except ε α} {g : α → β} (h : x.map g = .error fault) :
    x = .error fault := by
  cases x with
  | error _ => exact congrArg Except.error (Except.error.inj h)
  | ok _ => exact nomatch h

theorem exists_of_bind_eq_ok {x : Except ε α} {b : β} (h : x >>= f = .ok b) :
    ∃ a, x = .ok a ∧ f a = .ok b := by
  cases x with
  | error _ => exact nomatch h
  | ok a => exact ⟨a, rfl, h⟩

theorem eq_ok_of_mapError_eq_ok {ε' : Type} {x : Except ε α} {g : ε → ε'} {a : α}
    (h : x.mapError g = .ok a) : x = .ok a := by
  cases x with
  | error _ => exact nomatch h
  | ok b => exact congrArg Except.ok (Except.ok.inj h)

/-! ### Lists -/

theorem mapM_cons_of_error {item : α} (h : f item = .error fault) :
    (item :: items).mapM f = .error fault := by
  rw [List.mapM_cons, h]
  rfl

theorem mapM_cons_of_ok {item : α} {result : β} (h : f item = .ok result) :
    (item :: items).mapM f = (items.mapM f).map (result :: ·) := by
  rw [List.mapM_cons, h]
  cases items.mapM f <;> rfl

theorem forall₂_of_mapM_eq_ok {results : List β} (h : items.mapM f = .ok results) :
    List.Forall₂ (fun item result => f item = .ok result) items results := by
  induction items generalizing results with
  | nil =>
    rw [← Except.ok.inj h]
    exact .nil
  | cons item items ih =>
    cases hf : f item with
    | error fault => exact nomatch (mapM_cons_of_error hf).symm.trans h
    | ok result =>
      rw [mapM_cons_of_ok hf] at h
      cases hrest : items.mapM f with
      | error fault => rw [hrest] at h; exact nomatch h
      | ok rest =>
        rw [hrest] at h
        rw [← Except.ok.inj h]
        exact .cons hf (ih hrest)

theorem exists_of_forall₂_right {R : α → β → Prop} {l : List α} {m : List β}
    (h : List.Forall₂ R l m) {b : β} (hb : b ∈ m) : ∃ a ∈ l, R a b := by
  induction h with
  | nil => exact absurd hb List.not_mem_nil
  | cons hab _ ih =>
    rcases List.mem_cons.mp hb with rfl | hb
    · exact ⟨_, List.mem_cons_self, hab⟩
    · obtain ⟨a, ha, hab⟩ := ih hb
      exact ⟨a, List.mem_cons_of_mem _ ha, hab⟩

theorem exists_mapM_eq_ok (h : ∀ item ∈ items, ∃ result, f item = .ok result) :
    ∃ results, items.mapM f = .ok results := by
  induction items with
  | nil => exact ⟨[], rfl⟩
  | cons item items ih =>
    obtain ⟨result, hresult⟩ := h item List.mem_cons_self
    obtain ⟨results, hresults⟩ := ih fun other ho => h other (List.mem_cons_of_mem _ ho)
    exact ⟨result :: results, by rw [mapM_cons_of_ok hresult, hresults]; rfl⟩

theorem mapM_eq_error_of_first {before after : List α} {item : α}
    (hbefore : ∀ other ∈ before, ∃ result, f other = .ok result) (h : f item = .error fault) :
    (before ++ item :: after).mapM f = .error fault := by
  obtain ⟨results, hresults⟩ := exists_mapM_eq_ok hbefore
  rw [List.mapM_append, hresults, mapM_cons_of_error h]
  rfl

theorem exists_first_of_mapM_eq_error (h : items.mapM f = .error fault) :
    ∃ before item after, items = before ++ item :: after ∧
      (∀ other ∈ before, ∃ result, f other = .ok result) ∧ f item = .error fault := by
  induction items with
  | nil => exact nomatch h
  | cons item items ih =>
    cases hf : f item with
    | error other =>
      obtain rfl := Except.error.inj ((mapM_cons_of_error hf).symm.trans h)
      exact ⟨[], item, items, rfl, nofun, hf⟩
    | ok result =>
      rw [mapM_cons_of_ok hf] at h
      have hrest : items.mapM f = .error fault := by
        cases hitems : items.mapM f with
        | error other => rw [hitems] at h; exact h
        | ok rest => rw [hitems] at h; exact nomatch h
      obtain ⟨before, first, after, rfl, hbefore, hfirst⟩ := ih hrest
      refine ⟨item :: before, first, after, rfl, fun other ho => ?_, hfirst⟩
      rcases List.mem_cons.mp ho with rfl | ho
      · exact ⟨result, hf⟩
      · exact hbefore other ho

/-- The first item without a result decides the fault of a list. -/
theorem mapM_eq_error_iff :
    items.mapM f = .error fault ↔
      ∃ before item after, items = before ++ item :: after ∧
        (∀ other ∈ before, ∃ result, f other = .ok result) ∧ f item = .error fault := by
  constructor
  · exact exists_first_of_mapM_eq_error
  · rintro ⟨before, item, after, rfl, hbefore, hitem⟩
    exact mapM_eq_error_of_first hbefore hitem

end RequestGen
