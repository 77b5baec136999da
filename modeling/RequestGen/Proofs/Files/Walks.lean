import Mathlib.Data.List.Basic
import Mathlib.Data.List.Induction
import RequestGen.Files.Workspace

/-! # Places and walks

What stands at a place is a directory if something stands below it, so nothing stands below a place
where nothing stands (`entryAt_eq_none_of_isPrefix`). A walk without steps up visits the places
along its path: `lastStep_walkAlong` inverts its last step, and it still finds a directory where
more entries have been put on the way (`walkAlong_mono`). -/

namespace RequestGen

namespace Path

variable {p : Path}

theorem stepsFrom_of_up_notMem (hup : up ∉ p.steps) (directory : List String) :
    p.stepsFrom directory = (if p.isAbsolute then [] else directory) ++ p.steps := by
  have hfold : ∀ steps start : List String, up ∉ steps → steps.foldl
      (fun steps step => if step = up then steps.dropLast else steps ++ [step]) start =
        start ++ steps := by
    intro steps
    induction steps with
    | nil => simp
    | cons step steps ih =>
      intro start h
      obtain ⟨hstep, hrest⟩ := not_or.mp (mt List.mem_cons.mpr h)
      rw [List.foldl_cons, if_neg (Ne.symm hstep), ih _ hrest, List.append_assoc]
      rfl
  exact hfold _ _ hup

/-- A file can have the path: nothing in it is too long, and no name holds a null character. -/
structure IsNameable (p : Path) : Prop where
  noNull : p.hasNull = false
  short : p.text.utf8ByteSize ≤ Workspace.maxPath
  shortSteps : ∀ step ∈ p.steps, step.utf8ByteSize ≤ Workspace.maxName

theorem utf8ByteSize_intercalate_le (separator : String) (front back : List String) :
    (separator.intercalate front).utf8ByteSize ≤
      (separator.intercalate (front ++ back)).utf8ByteSize := by
  induction front with
  | nil => simp
  | cons step front ih =>
    cases front with
    | nil =>
      cases back with
      | nil => exact Nat.le_refl _
      | cons next back =>
        rw [List.cons_append, List.nil_append, String.intercalate_singleton,
          String.intercalate_cons_cons, String.utf8ByteSize_append, String.utf8ByteSize_append]
        omega
    | cons next front =>
      rw [List.cons_append, List.cons_append, String.intercalate_cons_cons,
        String.intercalate_cons_cons, String.utf8ByteSize_append, String.utf8ByteSize_append,
        String.utf8ByteSize_append, String.utf8ByteSize_append]
      exact Nat.add_le_add_left ih _

theorem first_first_succ (n : Nat) : (p.first (n + 1)).first n = p.first n := by
  unfold first
  rw [List.take_take, Nat.min_eq_left (Nat.le_succ n)]

theorem text_first_le (h : p.text.utf8ByteSize ≤ Workspace.maxPath) (n : Nat) :
    (p.first n).text.utf8ByteSize ≤ Workspace.maxPath := by
  obtain ⟨root, steps⟩ := p
  show (Path.mk root (steps.take n)).text.utf8ByteSize ≤ _
  unfold text at h ⊢
  dsimp only at h ⊢
  by_cases hfirst : (decide (root = "") && (steps.take n).isEmpty) = true
  · rw [if_pos hfirst]
    decide
  · rw [if_neg] at h
    · rw [if_neg hfirst]
      refine Nat.le_trans ?_ h
      rw [String.utf8ByteSize_append, String.utf8ByteSize_append]
      refine Nat.add_le_add_left ?_ _
      conv_rhs => rw [← List.take_append_drop n steps]
      exact utf8ByteSize_intercalate_le _ _ _
    · intro hempty
      apply hfirst
      simp only [Bool.and_eq_true, List.isEmpty_iff] at hempty ⊢
      exact ⟨hempty.1, by rw [hempty.2, List.take_nil]⟩

theorem IsNameable.first (h : p.IsNameable) (n : Nat) : (p.first n).IsNameable := by
  have hsteps : ∀ step ∈ p.steps.take n, step ∈ p.steps := fun _ hs => List.mem_of_mem_take hs
  refine ⟨?_, text_first_le h.short n, fun step hs => h.shortSteps step (hsteps step hs)⟩
  have hnull := h.noNull
  unfold hasNull at hnull ⊢
  rw [List.any_eq_false] at hnull ⊢
  exact fun step hs => hnull step (hsteps step hs)

end Path

namespace Workspace

variable {w w' : Workspace} {place q : Place} {entry : Entry}

/-! ### What stands at a place -/

/-- The current directory or an entry is at the place or below it. -/
def Covers (w : Workspace) (q : Place) : Prop :=
  q <+: w.current ∨ ∃ e ∈ w.entries, q <+: e.1

theorem covers_iff : w.Covers q ↔
    (q.isPrefixOf w.current || w.entries.any fun (p, _) => q.isPrefixOf p) = true := by
  simp [Covers, Bool.or_eq_true, List.any_eq_true]

theorem entryAt_ne_none_iff : w.entryAt q ≠ none ↔ w.Covers q := by
  unfold entryAt
  cases hlookup : w.entries.lookup q with
  | some entry =>
    obtain ⟨before, after, hentries, -⟩ := List.lookup_eq_some_iff.mp hlookup
    refine ⟨fun _ => .inr ⟨(q, entry), ?_, List.prefix_refl q⟩, fun _ => Option.some_ne_none _⟩
    rw [hentries]
    exact List.mem_append_right _ List.mem_cons_self
  | none =>
    dsimp only
    rw [covers_iff]
    split <;> simp [*]

theorem entryAt_of_covers (hlookup : w.entries.lookup q = none) (h : w.Covers q) :
    w.entryAt q = some .directory := by
  have hsome := entryAt_ne_none_iff.mpr h
  unfold entryAt at hsome ⊢
  rw [hlookup] at hsome ⊢
  dsimp only at hsome ⊢
  split
  · rfl
  · next hnone => exact absurd (if_neg hnone) hsome

theorem entryAt_eq_none_iff : w.entryAt q = none ↔ ¬w.Covers q := by
  rw [← entryAt_ne_none_iff, not_not]

/-- Where nothing stands, nothing stands below. -/
theorem entryAt_eq_none_of_isPrefix (hunder : q <+: place) (h : w.entryAt q = none) :
    w.entryAt place = none := by
  rw [entryAt_eq_none_iff] at h ⊢
  rintro (hcurrent | ⟨e, he, hentry⟩)
  · exact h (.inl (hunder.trans hcurrent))
  · exact h (.inr ⟨e, he, hunder.trans hentry⟩)

theorem lookup_filter_ne (entries : List (Place × Entry)) (h : q ≠ place) :
    (entries.filter (·.1 ≠ place)).lookup q = entries.lookup q := by
  induction entries with
  | nil => rfl
  | cons e entries ih =>
    obtain ⟨p, found⟩ := e
    by_cases hp : p = place
    · have hq : (q == p) = false := by simpa [hp] using h
      rw [List.filter_cons_of_neg (by simpa using hp), ih, List.lookup_cons, hq]
    · rw [List.filter_cons_of_pos (by simpa using hp), List.lookup_cons, List.lookup_cons, ih]

theorem covers_put : (w.put place entry).Covers q ↔ w.Covers q ∨ q <+: place := by
  unfold Covers put
  simp only [List.mem_cons, List.mem_filter, exists_eq_or_imp]
  constructor
  · rintro (h | h | ⟨e, ⟨he, -⟩, h⟩)
    · exact .inl (.inl h)
    · exact .inr h
    · exact .inl (.inr ⟨e, he, h⟩)
  · rintro ((h | ⟨e, he, h⟩) | h)
    · exact .inl h
    · by_cases hplace : e.1 = place
      · exact .inr (.inl (hplace ▸ h))
      · exact .inr (.inr ⟨e, ⟨he, by simpa using hplace⟩, h⟩)
    · exact .inr (.inl h)

theorem entryAt_put_self : (w.put place entry).entryAt place = some entry := by
  unfold entryAt put
  rw [List.lookup_cons_self]

theorem entryAt_put_of_ne (h : q ≠ place) :
    (w.put place entry).entryAt q = w.entryAt q ∨
      q <+: place ∧ w.entryAt q = none ∧ (w.put place entry).entryAt q = some .directory := by
  have hlookup : (w.put place entry).entries.lookup q = w.entries.lookup q := by
    show List.lookup q ((place, entry) :: w.entries.filter (·.1 ≠ place)) = _
    have hq : (q == place) = false := by simpa using h
    rw [List.lookup_cons, hq, lookup_filter_ne _ h]
  cases hfound : w.entries.lookup q with
  | some found =>
    refine .inl ?_
    unfold entryAt
    rw [hlookup, hfound]
  | none =>
    rw [hfound] at hlookup
    by_cases hcovers : w.Covers q
    · exact .inl ((entryAt_of_covers hlookup (covers_put.mpr (.inl hcovers))).trans
        (entryAt_of_covers hfound hcovers).symm)
    · have hnone := entryAt_eq_none_iff.mpr hcovers
      by_cases hunder : q <+: place
      · exact .inr ⟨hunder, hnone,
          entryAt_of_covers hlookup (covers_put.mpr (.inr hunder))⟩
      · have hput : ¬(w.put place entry).Covers q := fun h =>
          (covers_put.mp h).elim hcovers hunder
        exact .inl ((entryAt_eq_none_iff.mpr hput).trans hnone.symm)

/-! ### Walks without steps up -/

variable {start : Place} {steps : List String} {step : String}

/-- Where the walk along a path starts. -/
def startOf (w : Workspace) (path : Path) : Place := if path.isAbsolute then [] else w.current

/-- Where the steps lead from a directory. -/
def walkAlong (w : Workspace) (start : Place) (steps : List String) : Walk :=
  steps.foldl w.step (.found start .directory)

theorem walk_eq (path : Path) : w.walk path =
    if maxPath < path.text.utf8ByteSize then .tooLong
    else w.walkAlong (w.startOf path) path.steps := rfl

/-- Where a last step leads. -/
inductive LastStep (w : Workspace) (start : Place) (steps : List String) (step : String) :
    Walk → Prop where
  | found {entry : Entry}
      (hdirectory : w.walkAlong start steps = .found (start ++ steps) .directory)
      (hshort : step.utf8ByteSize ≤ maxName)
      (h : w.entryAt (start ++ (steps ++ [step])) = some entry) :
      LastStep w start steps step (.found (start ++ (steps ++ [step])) entry)
  | absent (hdirectory : w.walkAlong start steps = .found (start ++ steps) .directory)
      (hshort : step.utf8ByteSize ≤ maxName)
      (h : w.entryAt (start ++ (steps ++ [step])) = none) :
      LastStep w start steps step (.absent (start ++ (steps ++ [step])))
  | missing (h : w.entryAt (start ++ steps) = none)
      (hmissing : w.walkAlong start steps = .absent (start ++ steps) ∨
        w.walkAlong start steps = .missing) : LastStep w start steps step .missing
  | blocked : LastStep w start steps step .blocked
  | tooLong (h : ∃ s ∈ steps ++ [step], maxName < s.utf8ByteSize) :
      LastStep w start steps step .tooLong

theorem walkAlong_concat :
    w.walkAlong start (steps ++ [step]) = w.step (w.walkAlong start steps) step :=
  List.foldl_concat ..

theorem step_directory (hup : step ≠ Path.up) (hshort : step.utf8ByteSize ≤ maxName) :
    w.step (.found place .directory) step =
      match w.entryAt (place ++ [step]) with
      | some entry => .found (place ++ [step]) entry
      | none => .absent (place ++ [step]) := by
  unfold Workspace.step
  exact (if_neg hup).trans (if_neg (Nat.not_lt.mpr hshort))

theorem step_of_long (hup : step ≠ Path.up) (hlong : maxName < step.utf8ByteSize) :
    w.step (.found place .directory) step = .tooLong := by
  unfold Workspace.step
  exact (if_neg hup).trans (if_pos hlong)

theorem lastStep_of_directory (hup : step ≠ Path.up)
    (hdirectory : w.walkAlong start steps = .found (start ++ steps) .directory) :
    LastStep w start steps step (w.walkAlong start (steps ++ [step])) := by
  rw [walkAlong_concat, hdirectory]
  by_cases hshort : step.utf8ByteSize ≤ maxName
  · rw [step_directory hup hshort, List.append_assoc]
    split
    · next h => exact .found hdirectory hshort h
    · next h => exact .absent hdirectory hshort h
  · rw [step_of_long hup (Nat.not_le.mp hshort)]
    exact .tooLong ⟨step, by simp, Nat.not_le.mp hshort⟩

/-- A walk stops at the first step that is too long or whose directory is missing. -/
theorem lastStep_walkAlong (w : Workspace) (start : Place) (hup : Path.up ∉ steps ++ [step]) :
    LastStep w start steps step (w.walkAlong start (steps ++ [step])) := by
  have hstep : step ≠ Path.up := fun h => hup (by simp [h])
  induction steps using List.reverseRecOn generalizing step with
  | nil => exact lastStep_of_directory hstep (by rw [List.append_nil]; rfl)
  | append_singleton init last ih =>
    have hinit : Path.up ∉ init ++ [last] := fun h => hup (List.mem_append_left _ h)
    have hlast := ih hinit fun h => hinit (by simp [h])
    generalize hwalk : w.walkAlong start (init ++ [last]) = walk at hlast
    cases hlast with
    | @found entry _ _ h =>
      cases entry with
      | directory => exact lastStep_of_directory hstep hwalk
      | file text =>
        rw [walkAlong_concat, hwalk]
        exact .blocked
    | absent _ _ h =>
      rw [walkAlong_concat, hwalk]
      exact .missing h (.inl hwalk)
    | missing h =>
      rw [walkAlong_concat, hwalk]
      refine .missing (entryAt_eq_none_of_isPrefix ?_ h) (.inr hwalk)
      exact (List.prefix_append_right_inj start).mpr (List.prefix_append init [last])
    | blocked =>
      rw [walkAlong_concat, hwalk]
      exact .blocked
    | tooLong h =>
      obtain ⟨long, hmem, hlong⟩ := h
      rw [walkAlong_concat, hwalk]
      exact .tooLong ⟨long, List.mem_append_left _ hmem, hlong⟩

theorem eq_of_walkAlong_found (hup : Path.up ∉ steps)
    (h : w.walkAlong start steps = .found place entry) : place = start ++ steps := by
  rcases List.eq_nil_or_concat' steps with rfl | ⟨init, last, rfl⟩
  · obtain ⟨rfl, -⟩ := Walk.found.inj h
    exact (List.append_nil _).symm
  · have hlast := lastStep_walkAlong w start hup
    rw [h] at hlast
    cases hlast
    rfl

/-- A walk still finds a directory where every directory on its way is one. -/
theorem walkAlong_mono (hup : Path.up ∉ steps)
    (hdirectories : ∀ q, q <+: start ++ steps → w.entryAt q = some .directory →
      w'.entryAt q = some .directory)
    (h : w.walkAlong start steps = .found place .directory) :
    w'.walkAlong start steps = .found place .directory := by
  induction steps using List.reverseRecOn generalizing place with
  | nil => exact h
  | append_singleton init last ih =>
    have hlast := lastStep_walkAlong w start hup
    rw [h] at hlast
    obtain @⟨_, hdirectory, hshort, hentry⟩ := hlast
    have hinit := ih (fun hm => hup (List.mem_append_left _ hm))
      (fun q hq => hdirectories q (hq.trans ?_)) hdirectory
    · rw [walkAlong_concat, hinit, step_directory (fun hs => hup (by simp [hs])) hshort,
        List.append_assoc, hdirectories _ (List.prefix_refl _) hentry]
    · exact (List.prefix_append_right_inj start).mpr (List.prefix_append init [last])

/-! ### Walks along a path -/

variable {path : Path} {n : Nat}

theorem walk_first : w.walk (path.first n) =
    if maxPath < (path.first n).text.utf8ByteSize then .tooLong
    else w.walkAlong (w.startOf path) (path.steps.take n) := rfl

theorem walkAlong_of_walk_first (h : w.walk (path.first n) ≠ .tooLong) :
    w.walkAlong (w.startOf path) (path.steps.take n) = w.walk (path.first n) := by
  rw [walk_first] at h ⊢
  split at h
  · exact absurd rfl h
  · next hshort => rw [if_neg hshort]

/-- Nothing stands where the walk has ended, or would end. -/
def Walk.isOpen : Walk → Bool
  | .absent _ => true
  | .missing => true
  | _ => false

theorem walkAlong_of_isOpen (h : (w.walk (path.first n)).isOpen = true) :
    w.walkAlong (w.startOf path) (path.steps.take n) = w.walk (path.first n) := by
  refine walkAlong_of_walk_first fun hlong => ?_
  rw [hlong] at h
  exact nomatch h

theorem walk_of_directory {steps : List String} {last : String}
    (hsteps : path.steps = steps ++ [last]) (hlast : last ≠ Path.up)
    (h : w.walkAlong (w.startOf path) steps = .found place .directory) :
    w.walk path =
      if maxPath < path.text.utf8ByteSize ∨ maxName < last.utf8ByteSize then .tooLong
      else
        match w.entryAt (place ++ [last]) with
        | some entry => .found (place ++ [last]) entry
        | none => .absent (place ++ [last]) := by
  show (if _ then _ else w.walkAlong (w.startOf path) path.steps) = _
  rw [hsteps, walkAlong_concat, h]
  by_cases hpath : maxPath < path.text.utf8ByteSize
  · rw [if_pos hpath, if_pos (.inl hpath)]
  · rw [if_neg hpath]
    by_cases hname : maxName < last.utf8ByteSize
    · rw [if_pos (.inr hname), step_of_long hlast hname]
    · rw [if_neg (not_or.mpr ⟨hpath, hname⟩), step_directory hlast (Nat.le_of_not_lt hname)]

theorem walk_first_succ (hup : Path.up ∉ path.steps) (hn : n < path.steps.length)
    (h : w.walk (path.first n) = .found place .directory) :
    w.walk (path.first (n + 1)) =
      if maxPath < (path.first (n + 1)).text.utf8ByteSize ∨
          maxName < path.steps[n].utf8ByteSize then .tooLong
      else
        match w.entryAt (place ++ [path.steps[n]]) with
        | some entry => .found (place ++ [path.steps[n]]) entry
        | none => .absent (place ++ [path.steps[n]]) :=
  walk_of_directory (List.take_append_getElem hn).symm
    (fun hstep => hup (hstep ▸ List.getElem_mem hn))
    ((walkAlong_of_walk_first fun hlong => nomatch h.symm.trans hlong).trans h)

theorem entryAt_of_isOpen (hup : Path.up ∉ path.steps)
    (h : (w.walk (path.first n)).isOpen = true) :
    w.entryAt (w.startOf path ++ path.steps.take n) = none := by
  have hwalk := walkAlong_of_isOpen h
  have htake : Path.up ∉ path.steps.take n := fun hmem => hup (List.mem_of_mem_take hmem)
  rcases List.eq_nil_or_concat' (path.steps.take n) with hnil | ⟨init, last, hlast⟩
  · rw [hnil] at hwalk
    rw [← hwalk] at h
    exact nomatch h
  · rw [hlast] at hwalk htake ⊢
    have hstep := lastStep_walkAlong w (w.startOf path) htake
    rw [hwalk] at hstep
    generalize w.walk (path.first n) = walk at h hstep
    cases hstep with
    | absent _ _ hnone => exact hnone
    | missing hnone _ =>
      refine entryAt_eq_none_of_isPrefix ?_ hnone
      exact (List.prefix_append_right_inj _).mpr (List.prefix_append init [last])
    | _ => exact nomatch h

theorem isOpen_of_missing (hup : Path.up ∉ path.steps) (hn : n < path.steps.length)
    (h : w.walk (path.first (n + 1)) = .missing) : (w.walk (path.first n)).isOpen = true := by
  have htake : path.steps.take (n + 1) = path.steps.take n ++ [path.steps[n]] :=
    (List.take_append_getElem hn).symm
  have hshort : ¬maxPath < (path.first n).text.utf8ByteSize := by
    rw [walk_first] at h
    split at h
    · exact nomatch h
    · next hshort =>
      rw [← Path.first_first_succ]
      exact Nat.not_lt.mpr (Path.text_first_le (Nat.le_of_not_lt hshort) n)
  have hwalk := walkAlong_of_walk_first fun hlong => nomatch h.symm.trans hlong
  have hstep := lastStep_walkAlong w (w.startOf path)
    (htake ▸ fun hmem => hup (List.mem_of_mem_take hmem))
  rw [walk_first, if_neg hshort]
  rw [htake] at hwalk
  rw [hwalk, h] at hstep
  cases hstep with
  | missing _ hmissing => rcases hmissing with hmissing | hmissing <;> rw [hmissing] <;> rfl

theorem walk_eq_missing (hn : n < path.steps.length)
    (hshort : (path.first (n + 1)).text.utf8ByteSize ≤ maxPath)
    (h : (w.walk (path.first n)).isOpen = true) : w.walk (path.first (n + 1)) = .missing := by
  rw [walk_first, if_neg (Nat.not_lt.mpr hshort), ← List.take_append_getElem hn, walkAlong_concat,
    walkAlong_of_isOpen h]
  generalize w.walk (path.first n) = walk at h
  cases walk with
  | absent | missing => rfl
  | _ => exact nomatch h

/-- A file stands at the place where the walk has ended, or nothing where something can be put. -/
def Walk.IsFree (walk : Walk) (place : Place) : Prop :=
  walk = .absent place ∨ ∃ text, walk = .found place (.file text)

theorem walk_put (hup : Path.up ∉ path.steps) (h : (w.walk path).IsFree place) (entry : Entry) :
    place = w.startOf path ++ path.steps ∧ w.entryAt place ≠ some .directory ∧
      (w.put place entry).walk path = .found place entry := by
  have hshort : ¬maxPath < path.text.utf8ByteSize := fun hlong => by
    rw [walk_eq, if_pos hlong] at h
    rcases h with h | ⟨_, h⟩ <;> exact nomatch h
  have hwalk : w.walk path = w.walkAlong (w.startOf path) path.steps := by
    rw [walk_eq, if_neg hshort]
  rcases List.eq_nil_or_concat' path.steps with hnil | ⟨init, last, hsteps⟩
  · rw [hwalk, hnil] at h
    rcases h with h | ⟨_, h⟩ <;> exact nomatch h
  · rw [hsteps] at hwalk hup
    have hstep := lastStep_walkAlong w (w.startOf path) hup
    rw [← hwalk] at hstep
    have hlast : w.walkAlong (w.startOf path) init = .found (w.startOf path ++ init) .directory ∧
        last.utf8ByteSize ≤ maxName ∧ place = w.startOf path ++ (init ++ [last]) ∧
        w.entryAt place ≠ some .directory := by
      generalize w.walk path = walk at h hstep
      rcases h with rfl | ⟨text, rfl⟩
      · cases hstep with
        | absent hdirectory hname hnone =>
          exact ⟨hdirectory, hname, rfl, fun h => nomatch hnone.symm.trans h⟩
      · cases hstep with
        | found hdirectory hname hfile =>
          exact ⟨hdirectory, hname, rfl, fun h => nomatch hfile.symm.trans h⟩
    obtain ⟨hdirectory, hname, hplace, hfree⟩ := hlast
    refine ⟨hsteps ▸ hplace, hfree, ?_⟩
    -- the entry is put at no directory, so the walk still comes as far as before
    have hmono : (w.put place entry).walkAlong (w.startOf path) init =
        .found (w.startOf path ++ init) .directory := by
      refine walkAlong_mono (fun hmem => hup (List.mem_append_left _ hmem)) (fun q _ hq => ?_)
        hdirectory
      have hput : (w.put place entry).entryAt q = w.entryAt q ∨ _ :=
        entryAt_put_of_ne fun h : q = place => hfree (h ▸ hq)
      rcases hput with heq | ⟨-, hnone, -⟩
      · exact heq.trans hq
      · exact nomatch hq.symm.trans hnone
    rw [walk_of_directory hsteps (fun h => hup (by simp [h])) hmono,
      if_neg (not_or.mpr ⟨hshort, Nat.not_lt.mpr hname⟩), List.append_assoc, ← hplace,
      entryAt_put_self]

end Workspace

end RequestGen
