import RequestGen.Proofs.Files.Walks

/-! # Writing a file

A text is written in two parts: the missing directories around the file are made, from the outermost
on, and then the file is. Whatever happens, nothing but these directories and the file is touched
(`makesDirectories`, `Written.writes`). Directories are only made where a walk has found that they
can be, so a file that cannot be written leaves everything as it is, unless its path is one that no
file can have (`Written.eq_of_isNameable`). -/

namespace RequestGen

namespace Workspace

variable {w w' : Workspace} {place q : Place} {path : Path} {n : Nat}

/-! ### What a change may touch -/

/-- Nothing has changed but that missing directories were made on the way to a place. -/
structure MakesWay (w : Workspace) (place : Place) (w' : Workspace) : Prop where
  current : w'.current = w.current
  entryAt : ∀ q, w'.entryAt q = w.entryAt q ∨
    q <+: place ∧ w.entryAt q = none ∧ w'.entryAt q = some .directory

/-- Nothing has changed but that a file was written at a place, with the missing directories
around it. -/
structure Writes (w : Workspace) (place : Place) (text : String) (w' : Workspace) : Prop where
  current : w'.current = w.current
  file : w'.entryAt place = some (.file text)
  noDirectory : w.entryAt place ≠ some .directory
  around : ∀ q, q ≠ place → w'.entryAt q = w.entryAt q ∨
    q <+: place ∧ w.entryAt q = none ∧ w'.entryAt q = some .directory

namespace MakesWay

theorem refl (w : Workspace) (place : Place) : w.MakesWay place w := ⟨rfl, fun _ => .inl rfl⟩

theorem mono (h : w.MakesWay place w') (hplace : place <+: q) : w.MakesWay q w' :=
  ⟨h.current, fun r => (h.entryAt r).imp_right fun ⟨hr, hnone, hmade⟩ =>
    ⟨hr.trans hplace, hnone, hmade⟩⟩

theorem trans {w'' : Workspace} (h : w.MakesWay place w') (h' : w'.MakesWay place w'') :
    w.MakesWay place w'' := by
  refine ⟨h'.current.trans h.current, fun q => ?_⟩
  rcases h.entryAt q with hq | ⟨hq, hnone, hmade⟩
  · rcases h'.entryAt q with hq' | ⟨hq', hnone', hmade'⟩
    · exact .inl (hq'.trans hq)
    · exact .inr ⟨hq', hq ▸ hnone', hmade'⟩
  · rcases h'.entryAt q with hq' | ⟨-, hnone', -⟩
    · exact .inr ⟨hq, hnone, hq'.trans hmade⟩
    · exact nomatch hmade.symm.trans hnone'

theorem startOf_eq (h : w.MakesWay place w') (path : Path) : w'.startOf path = w.startOf path := by
  unfold startOf
  rw [h.current]

theorem put (h : w.entryAt place = none) : w.MakesWay place (w.put place .directory) := by
  refine ⟨rfl, fun q => ?_⟩
  by_cases hq : q = place
  · subst hq
    exact .inr ⟨List.prefix_refl q, h, entryAt_put_self⟩
  · exact entryAt_put_of_ne hq

theorem directory (h : w.MakesWay place w') (hq : w.entryAt q = some .directory) :
    w'.entryAt q = some .directory := by
  rcases h.entryAt q with heq | ⟨-, hnone, -⟩
  · exact heq.trans hq
  · exact nomatch hq.symm.trans hnone

end MakesWay

theorem Writes.put {text : String} (hdirectory : w.entryAt place ≠ some .directory) :
    w.Writes place text (w.put place (.file text)) :=
  ⟨rfl, entryAt_put_self, hdirectory, fun _ hq => entryAt_put_of_ne hq⟩

theorem MakesWay.writes {w'' : Workspace} {text : String} (h : w.MakesWay place w')
    (h' : w'.Writes place text w'') : w.Writes place text w'' := by
  refine ⟨h'.current.trans h.current, h'.file, fun hd => h'.noDirectory (h.directory hd),
    fun q hq => ?_⟩
  rcases h.entryAt q with heq | ⟨hunder, hnone, hmade⟩
  · rcases h'.around q hq with heq' | ⟨hunder, hnone', hmade'⟩
    · exact .inl (heq'.trans heq)
    · exact .inr ⟨hunder, heq ▸ hnone', hmade'⟩
  · rcases h'.around q hq with heq' | ⟨-, hnone', -⟩
    · exact .inr ⟨hunder, hnone, heq'.trans hmade⟩
    · exact nomatch hmade.symm.trans hnone'

/-! ### Making directories -/

variable {fault : FileFault} {text : String} {result : Except FileFault Unit}

theorem run_bind {α β : Type} (c : Change α) (f : α → Change β) :
    (c >>= f).run.run w =
      match c.run.run w with
      | (.ok a, w') => (f a).run.run w'
      | (.error fault, w') => (.error fault, w') := by
  rw [ExceptT.run_bind, StateT.run_bind]
  rcases c.run.run w with ⟨result, w'⟩
  cases result <;> rfl

theorem run_makeDirectories_succ : (makeDirectories path (n + 1)).run.run w =
    (match w.walk (path.first (n + 1)) with
    | .missing => (do
      makeDirectories path n
      makeDirectory ((← get).walk (path.first (n + 1))) : Change Unit)
    | walk => makeDirectory walk).run.run w := rfl

theorem run_makeDirectories_of_ne (h : w.walk (path.first (n + 1)) ≠ .missing) :
    (makeDirectories path (n + 1)).run.run w =
      (makeDirectory (w.walk (path.first (n + 1)))).run.run w := by
  rw [run_makeDirectories_succ]
  split
  · next hmissing => exact absurd hmissing h
  · rfl

theorem run_makeDirectories_of_missing (h : w.walk (path.first (n + 1)) = .missing) :
    (makeDirectories path (n + 1)).run.run w =
      match (makeDirectories path n).run.run w with
      | (.ok _, w') => (makeDirectory (w'.walk (path.first (n + 1)))).run.run w'
      | (.error fault, w') => (.error fault, w') := by
  rw [run_makeDirectories_succ, h]
  dsimp only
  rw [run_bind]
  rcases (makeDirectories path n).run.run w with ⟨result, w1⟩
  cases result <;> rfl

/-- What making the directories at the first steps of a path comes to. -/
structure MakesDirectories (w : Workspace) (path : Path) (n : Nat)
    (result : Except FileFault Unit) (w' : Workspace) : Prop where
  makesWay : w.MakesWay (w.startOf path ++ path.steps.take n) w'
  directory : result = .ok () →
    w'.walk (path.first n) = .found (w.startOf path ++ path.steps.take n) .directory
  unchanged : (w.walk (path.first n)).isOpen = false → w' = w
  made : path.IsNameable → (w.walk (path.first n)).isOpen = true → result = .ok ()

theorem MakesDirectories.failed (hclosed : (w.walk (path.first n)).isOpen = false) :
    w.MakesDirectories path n (.error fault) w :=
  ⟨.refl _ _, nofun, fun _ => rfl, fun _ hopen => nomatch hclosed.symm.trans hopen⟩

theorem MakesDirectories.of_run_makeDirectory (hup : Path.up ∉ path.steps)
    (hne : w.walk (path.first n) ≠ .missing)
    (h : (makeDirectory (w.walk (path.first n))).run.run w = (result, w')) :
    w.MakesDirectories path n result w' := by
  have hup' : Path.up ∉ (path.first n).steps := fun hmem => hup (List.mem_of_mem_take hmem)
  cases hwalk : w.walk (path.first n) with
  | found place entry =>
    rw [hwalk] at h
    cases entry with
    | file text =>
      obtain ⟨rfl, rfl⟩ := Prod.mk.inj h
      exact .failed (by rw [hwalk]; rfl)
    | directory =>
      obtain ⟨rfl, rfl⟩ := Prod.mk.inj h
      refine ⟨.refl _ _, fun _ => ?_, fun _ => rfl, fun _ _ => rfl⟩
      rw [hwalk, eq_of_walkAlong_found hup'
        ((walkAlong_of_walk_first fun hlong => nomatch hwalk.symm.trans hlong).trans hwalk)]
      rfl
  | absent place =>
    rw [hwalk] at h
    obtain ⟨rfl, rfl⟩ := Prod.mk.inj h
    obtain ⟨hplace, -, hput⟩ := walk_put hup' (.inl hwalk) .directory
    have hopen : (w.walk (path.first n)).isOpen = true := by rw [hwalk]; rfl
    refine ⟨?_, fun _ => ?_,
      fun hclosed => (nomatch hclosed.symm.trans hopen), fun _ _ => rfl⟩
    · subst hplace
      exact MakesWay.put (entryAt_of_isOpen hup hopen)
    · rw [hput, hplace]
      rfl
  | missing => exact absurd hwalk hne
  | blocked =>
    rw [hwalk] at h
    obtain ⟨rfl, rfl⟩ := Prod.mk.inj h
    exact .failed (by rw [hwalk]; rfl)
  | tooLong =>
    rw [hwalk] at h
    obtain ⟨rfl, rfl⟩ := Prod.mk.inj h
    exact .failed (by rw [hwalk]; rfl)

theorem MakesDirectories.walk_first_succ (hup : Path.up ∉ path.steps)
    (hn : n < path.steps.length) (hopen : (w.walk (path.first (n + 1))).isOpen = true)
    (h : w.MakesDirectories path n (.ok ()) w') :
    w'.walk (path.first (n + 1)) =
      if maxPath < (path.first (n + 1)).text.utf8ByteSize ∨
          maxName < path.steps[n].utf8ByteSize then .tooLong
      else .absent (w.startOf path ++ path.steps.take n ++ [path.steps[n]]) := by
  rw [Workspace.walk_first_succ hup hn (h.directory rfl)]
  have hnone := entryAt_of_isOpen hup hopen
  rw [← List.take_append_getElem hn, ← List.append_assoc] at hnone
  rcases h.makesWay.entryAt _ with heq | ⟨hlonger, -, -⟩
  · rw [heq, hnone]
  · refine absurd hlonger.length_le ?_
    rw [List.length_append]
    exact Nat.not_succ_le_self _

theorem MakesDirectories.trans {w'' : Workspace} (hup : Path.up ∉ path.steps)
    (hn : n < path.steps.length) (hopen : (w.walk (path.first (n + 1))).isOpen = true)
    (h : w.MakesDirectories path n (.ok ()) w') (h' : w'.MakesDirectories path (n + 1) result w'') :
    w.MakesDirectories path (n + 1) result w'' := by
  have hstart := h.makesWay.startOf_eq path
  have hway := h'.makesWay
  have hdirectory := h'.directory
  rw [hstart] at hway hdirectory
  refine ⟨(h.makesWay.mono ?_).trans hway, hdirectory,
    fun hclosed => (nomatch hclosed.symm.trans hopen), fun hnameable _ => h'.made hnameable ?_⟩
  · exact (List.prefix_append_right_inj _).mpr (List.take_prefix_take_left (Nat.le_succ n))
  · rw [h.walk_first_succ hup hn hopen, if_neg]
    · rfl
    · rw [not_or]
      exact ⟨Nat.not_lt.mpr (hnameable.first (n + 1)).short,
        Nat.not_lt.mpr (hnameable.shortSteps _ (List.getElem_mem hn))⟩

/-- Directories are made only where the walk to the last of them has ended open, and then up to
there. -/
theorem makesDirectories (hup : Path.up ∉ path.steps) (hn : n ≤ path.steps.length)
    (h : (makeDirectories path n).run.run w = (result, w')) :
    w.MakesDirectories path n result w' := by
  induction n generalizing result w' with
  | zero =>
    refine .of_run_makeDirectory hup (fun hmissing => ?_) h
    have hwalk := walkAlong_of_walk_first fun hlong => nomatch hmissing.symm.trans hlong
    exact nomatch hwalk.trans hmissing
  | succ n ih =>
    by_cases hmissing : w.walk (path.first (n + 1)) = .missing
    · have hopen : (w.walk (path.first (n + 1))).isOpen = true := by rw [hmissing]; rfl
      rw [run_makeDirectories_of_missing hmissing] at h
      rcases hrun : (makeDirectories path n).run.run w with ⟨before, w1⟩
      have hbefore := ih (Nat.le_of_succ_le hn) hrun
      rw [hrun] at h
      cases before with
      | error fault =>
        obtain ⟨rfl, rfl⟩ := Prod.mk.inj h
        refine ⟨hbefore.makesWay.mono ?_, nofun, fun hclosed => (nomatch hclosed.symm.trans hopen),
          fun hnameable _ => hbefore.made hnameable (isOpen_of_missing hup hn hmissing)⟩
        exact (List.prefix_append_right_inj _).mpr (List.take_prefix_take_left (Nat.le_succ n))
      | ok =>
        refine hbefore.trans hup hn hopen (.of_run_makeDirectory hup ?_ h)
        rw [hbefore.walk_first_succ hup hn hopen]
        split <;> nofun
    · rw [run_makeDirectories_of_ne hmissing] at h
      exact .of_run_makeDirectory hup hmissing h

/-! ### Writing a text -/

/-- How a text is written, or why it is not. -/
inductive Written (w : Workspace) (path : Path) (text : String) :
    Except FileFault Unit → Workspace → Prop where
  | noName (hnull : path.parent.hasNull = true) : Written w path text (.error .nullCharacter) w
  | noDirectory {fault : FileFault} {w' : Workspace}
      (h : w.MakesDirectories path (path.steps.length - 1) (.error fault) w') :
      Written w path text (.error fault) w'
  | notFree {fault : FileFault} {w' : Workspace}
      (h : w.MakesDirectories path (path.steps.length - 1) (.ok ()) w')
      (hfree : path.hasNull = true ∨ ∀ place, ¬(w'.walk path).IsFree place) :
      Written w path text (.error fault) w'
  | put {place : Place} {w' : Workspace}
      (h : w.MakesDirectories path (path.steps.length - 1) (.ok ()) w')
      (hnull : path.hasNull = false) (hfree : (w'.walk path).IsFree place) :
      Written w path text (.ok ()) (w'.put place (.file text))

/-- The directories around a file are those at all but the last of its steps. -/
theorem MakesDirectories.of_parent
    (h : w.MakesDirectories path.parent path.parent.steps.length result w') :
    w.MakesDirectories path (path.steps.length - 1) result w' := by
  have hsteps : path.parent.steps.take path.parent.steps.length =
      path.steps.take (path.steps.length - 1) := by
    rw [List.take_length]
    exact List.dropLast_eq_take
  have hfirst : path.parent.first path.parent.steps.length =
      path.first (path.steps.length - 1) := by
    unfold Path.first
    rw [hsteps]
    rfl
  have hstart : w.startOf path.parent = w.startOf path := rfl
  obtain ⟨hway, hdirectory, hunchanged, hmade⟩ := h
  rw [hstart, hsteps] at hway hdirectory
  rw [hfirst] at hdirectory hunchanged hmade
  refine ⟨hway, hdirectory, hunchanged, fun hnameable => hmade ?_⟩
  have hparent : path.parent = path.first (path.steps.length - 1) := by
    unfold Path.parent Path.first
    rw [List.dropLast_eq_take]
  exact hparent ▸ hnameable.first _

theorem written (hup : Path.up ∉ path.steps)
    (h : (write path text).run.run w = (result, w')) : w.Written path text result w' := by
  have hparent : Path.up ∉ path.parent.steps := fun hmem => hup (List.dropLast_subset _ hmem)
  unfold write at h
  dsimp only at h
  by_cases hnull : path.parent.hasNull = true
  · rw [if_pos hnull] at h
    obtain ⟨rfl, rfl⟩ := Prod.mk.inj h
    exact .noName hnull
  · rw [if_neg hnull] at h
    rw [run_bind] at h
    rcases hrun : (makeDirectories path.parent path.parent.steps.length).run.run w
      with ⟨before, w1⟩
    have hbefore := (makesDirectories hparent (Nat.le_refl _) hrun).of_parent
    rw [hrun] at h
    cases before with
    | error fault =>
      obtain ⟨rfl, rfl⟩ := Prod.mk.inj h
      exact .noDirectory hbefore
    | ok =>
      dsimp only at h
      by_cases hpath : path.hasNull = true
      · rw [if_pos hpath] at h
        obtain ⟨rfl, rfl⟩ := Prod.mk.inj h
        exact .notFree hbefore (.inl hpath)
      · rw [if_neg hpath] at h
        have hget : (get : Change Workspace).run.run w1 = (.ok w1, w1) := rfl
        rw [run_bind, hget] at h
        dsimp only at h
        have hnull := Bool.eq_false_iff.mpr hpath
        split at h
        · next hwalk =>
          obtain ⟨rfl, rfl⟩ := Prod.mk.inj h
          exact .notFree hbefore (.inr (by simp [Walk.IsFree, hwalk]))
        · next place old hwalk =>
          obtain ⟨rfl, rfl⟩ := Prod.mk.inj h
          exact .put hbefore hnull (.inr ⟨old, hwalk⟩)
        · next place hwalk =>
          obtain ⟨rfl, rfl⟩ := Prod.mk.inj h
          exact .put hbefore hnull (.inl hwalk)
        all_goals
          next hwalk =>
          obtain ⟨rfl, rfl⟩ := Prod.mk.inj h
          exact .notFree hbefore (.inr (by simp [Walk.IsFree, hwalk]))

namespace Written

/-- Only the file is written, and it can be read. -/
theorem writes (hup : Path.up ∉ path.steps) (h : w.Written path text (.ok ()) w') :
    w.Writes (path.stepsFrom w.current) text w' ∧ w'.read path = .ok (some text) := by
  cases h with
  | @put place w1 h hnull hfree =>
    obtain ⟨hplace, hdirectory, hwalk⟩ := walk_put hup hfree (.file text)
    rw [h.makesWay.startOf_eq path] at hplace
    constructor
    · rw [Path.stepsFrom_of_up_notMem hup]
      show w.Writes (w.startOf path ++ path.steps) text _
      rw [← hplace]
      refine (h.makesWay.mono ?_).writes (.put hdirectory)
      rw [hplace]
      exact (List.prefix_append_right_inj _).mpr (List.take_prefix _ _)
    · unfold read
      rw [hnull, hwalk]
      rfl

/-- A file that is not written still may have got directories around it. -/
theorem makesWay (h : w.Written path text (.error fault) w') :
    w.MakesWay (w.startOf path ++ path.steps.take (path.steps.length - 1)) w' := by
  cases h with
  | noName _ => exact .refl _ _
  | noDirectory h => exact h.makesWay
  | notFree h _ => exact h.makesWay

/-- A file that can have its path is either written, or nothing is. -/
theorem eq_of_isNameable (hup : Path.up ∉ path.steps) (hnameable : path.IsNameable)
    (h : w.Written path text (.error fault) w') : w' = w := by
  cases h with
  | noName _ => rfl
  | noDirectory h =>
    refine h.unchanged (Bool.eq_false_iff.mpr fun hopen => ?_)
    exact nomatch h.made hnameable hopen
  | notFree h hfree =>
    refine h.unchanged (Bool.eq_false_iff.mpr fun hopen => ?_)
    have hfree := hfree.resolve_left (by rw [hnameable.noNull]; exact Bool.false_ne_true)
    rcases Nat.eq_zero_or_pos path.steps.length with hzero | hpos
    · have hwalk := walkAlong_of_isOpen hopen
      rw [hzero] at hwalk hopen
      rw [← hwalk] at hopen
      exact nomatch hopen
    · -- nothing stands in the directory that has just been made, so there is a place for the file
      obtain ⟨n, hn⟩ : ∃ n, path.steps.length = n + 1 := ⟨_, (Nat.succ_pred_eq_of_pos hpos).symm⟩
      have hall : path.first (n + 1) = path := by
        unfold Path.first
        rw [← hn, List.take_length]
      have hlt : n < path.steps.length := hn ▸ Nat.lt_succ_self n
      rw [hn, Nat.add_sub_cancel] at h hopen
      have hmissing := walk_eq_missing hlt (hall.symm ▸ hnameable.short) hopen
      have hwalk := h.walk_first_succ hup hlt (by rw [hmissing]; rfl)
      rw [hall, if_neg] at hwalk
      · exact hfree _ (.inl hwalk)
      · rw [not_or]
        exact ⟨Nat.not_lt.mpr hnameable.short,
          Nat.not_lt.mpr (hnameable.shortSteps _ (List.getElem_mem hlt))⟩

end Written

end Workspace

end RequestGen
