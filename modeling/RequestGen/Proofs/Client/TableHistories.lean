import Mathlib.Data.Set.Card
import RequestGen.Proofs.Group.Results

/-! # What a table hands out over a history

A history is the steps that callers take with one table, in any order. What writes a declaration is
pending if it was registered for its name and no later step has registered something else, has taken
the name out or has cleared the table (`Pending`); so the steps alone tell what the table holds
(`get?_after`). A step hands out what is pending for the names that it asks for, each once
(`Answered`), and over a history nothing is handed out but what was registered, each registration at
most once: what is handed out and what is left of them never exceed the registrations
(`out_append_subperm`). -/

namespace RequestGen

namespace ResultTable

/-- A step that a caller takes with a table. -/
inductive Step where
  | register (name : String) (result : ResultAlias)
  | pop (name : String)
  | render (title : Option String) (names : List String)
  | contains (name : String)
  | clear

/-- What a table answers to a step. -/
inductive Answer where
  | done
  | taken (result : Option ResultAlias)
  | declared (declarations : List String)
  | found (isPending : Bool)

namespace Step

/-- The names that are taken out. -/
def asked : Step → List String
  | pop name => [name]
  | render _ names => names
  | _ => []

/-- What is registered, with its name. -/
def registered? : Step → Option (String × ResultAlias)
  | register name result => some (name, result)
  | _ => none

/-- Whether a step may change what is pending under a name: it registers the name, asks for it or
clears the table. -/
def Touches (s : Step) (name : String) : Prop :=
  (∃ result, s = register name result) ∨ name ∈ s.asked ∨ s = clear

end Step

/-- The answer to a step, and the table after it. -/
def step (t : ResultTable) : Step → Answer × ResultTable
  | .register name result => (.done, t.register name result)
  | .pop name => (.taken (t.pop name).1, (t.pop name).2)
  | .render title names => (.declared (render title names t).1, (render title names t).2)
  | .contains name => (.found (t.contains name), t)
  | .clear => (.done, t.clear)

/-- The answers to steps that are taken one after another. -/
def answers : List Step → ResultTable → List Answer
  | [], _ => []
  | s :: steps, t => (t.step s).1 :: answers steps (t.step s).2

/-- A new table after some steps. -/
def after (steps : List Step) : ResultTable := steps.foldl (fun t s => (t.step s).2) empty

theorem after_concat (steps : List Step) (s : Step) :
    after (steps ++ [s]) = ((after steps).step s).2 := by
  simp [after]

theorem answers_concat (steps : List Step) (s : Step) :
    answers (steps ++ [s]) empty = answers steps empty ++ [((after steps).step s).1] := by
  have h (t : ResultTable) : answers (steps ++ [s]) t =
      answers steps t ++ [((steps.foldl (fun t s => (t.step s).2) t).step s).1] := by
    induction steps generalizing t with
    | nil => rfl
    | cons first steps ih => rw [List.cons_append, answers, ih]; rfl
  exact h empty

/-! ### What is pending -/

/-- The result was registered for the name, and nothing about the name has happened since. -/
def Pending (past : List Step) (name : String) (result : ResultAlias) : Prop :=
  ∃ before since, past = before ++ .register name result :: since ∧
    ∀ s ∈ since, ¬ s.Touches name

def IsPending (past : List Step) (name : String) : Prop := ∃ d, Pending past name d

theorem pending_concat {past : List Step} {s : Step} {name : String} {d : ResultAlias} :
    Pending (past ++ [s]) name d ↔
      s = .register name d ∨ (¬ s.Touches name ∧ Pending past name d) := by
  constructor
  · rintro ⟨before, since, h, hsince⟩
    rcases List.eq_nil_or_concat since with rfl | ⟨since, last, rfl⟩
    · obtain ⟨-, hs⟩ := List.append_inj' h rfl
      exact .inl (List.cons.inj hs).1
    · rw [List.concat_eq_append, ← List.cons_append, ← List.append_assoc] at h
      obtain ⟨rfl, hs⟩ := List.append_inj' h rfl
      obtain ⟨rfl, -⟩ := List.cons.inj hs
      exact .inr ⟨hsince s (by simp), before, since, rfl, fun s hs => hsince s (by simp [hs])⟩
  · rintro (rfl | ⟨hs, before, since, rfl, hsince⟩)
    · exact ⟨past, [], rfl, by simp⟩
    · refine ⟨before, since ++ [s], by simp, fun other ho => ?_⟩
      rcases List.mem_append.mp ho with ho | ho
      · exact hsince other ho
      · rwa [List.mem_singleton.mp ho]

theorem get?_step {t : ResultTable} {s : Step} {name : String} {d : ResultAlias} :
    (t.step s).2.get? name = some d ↔
      s = .register name d ∨ (¬ s.Touches name ∧ t.get? name = some d) := by
  cases s with
  | register other result =>
    by_cases h : name = other
    · subst h; simp [step, Step.Touches]
    · simp [step, Step.Touches, Step.asked, h, Ne.symm h]
  | pop other => simp [step, pop, Step.Touches, Step.asked]
  | render title names => simp [step, render_eq, get?_eraseAll, Step.Touches, Step.asked]
  | contains other => simp [step, Step.Touches, Step.asked]
  | clear => simp [step, clear, Step.Touches]

/-- What a table holds is what the steps have left pending. -/
theorem get?_after {steps : List Step} {name : String} {d : ResultAlias} :
    (after steps).get? name = some d ↔ Pending steps name d := by
  induction steps using List.reverseRecOn with
  | nil => simp [after, Pending]
  | append_singleton steps s ih => rw [after_concat, get?_step, ih, pending_concat]

theorem contains_after {steps : List Step} {name : String} :
    (after steps).contains name = true ↔ IsPending steps name := by
  rw [contains, Option.isSome_iff_exists]
  exact exists_congr fun _ => get?_after

instance (steps : List Step) (name : String) : Decidable (IsPending steps name) :=
  decidable_of_iff _ contains_after

theorem contains_iff {t : ResultTable} {name : String} :
    t.contains name = true ↔ name ∈ t.entries.map Prod.fst := by
  rw [contains, get?, List.lookup_isSome_iff, List.mem_map]
  exact exists_congr fun entry => and_congr_right' (beq_iff_eq.trans eq_comm)

theorem encard_isPending (steps : List Step) :
    {name | IsPending steps name}.encard = (after steps).size := by
  have hnames : {name | IsPending steps name} =
      (((after steps).entries.map Prod.fst).toFinset : Set String) := by
    ext name
    rw [List.coe_toFinset]
    exact contains_after.symm.trans contains_iff
  rw [hnames, Set.encard_coe_eq_coe_finsetCard, List.toFinset_card_of_nodup (after steps).nodup,
    List.length_map]
  rfl

/-! ### What is handed out -/

/-- The entries that a step takes out of a table. -/
def out (t : ResultTable) (s : Step) : List (String × ResultAlias) :=
  s.asked.eraseDups.filterMap fun name => (t.get? name).map (name, ·)

theorem mem_out {t : ResultTable} {s : Step} {entry : String × ResultAlias} :
    entry ∈ t.out s ↔ entry.1 ∈ s.asked ∧ t.get? entry.1 = some entry.2 := by
  obtain ⟨name, result⟩ := entry
  simp only [out, List.mem_filterMap, List.mem_eraseDups, Option.map_eq_some_iff, Prod.mk.injEq]
  constructor
  · rintro ⟨_, hname, _, hget, rfl, rfl⟩
    exact ⟨hname, hget⟩
  · rintro ⟨hname, hget⟩
    exact ⟨name, hname, result, hget, rfl, rfl⟩

theorem map_fst_out (t : ResultTable) (s : Step) :
    (t.out s).map Prod.fst = (s.asked.filter t.contains).eraseDups := by
  rw [eraseDups_filter, out]
  induction s.asked.eraseDups with
  | nil => rfl
  | cons name names ih =>
    cases h : t.get? name with
    | none => simp [contains, h, ih]
    | some result => simp [contains, h, ih]

/-- What a step answers after the steps before it, when it takes the entries `out` out of the
table. -/
def answerOf (past : List Step) (out : List (String × ResultAlias)) : Step → Answer
  | .register .. => .done
  | .pop _ => .taken (out.head?.map Prod.snd)
  | .render title _ => .declared (out.map (·.2.render title))
  | .contains name => .found (decide (IsPending past name))
  | .clear => .done

/-- What a step after the given ones answers, and which entries it takes out: of the names that it
asks for those that are pending, each once and in the order in which it asks for them first, with
what is pending for them. -/
structure Answered (past : List Step) (s : Step) (answer : Answer)
    (out : List (String × ResultAlias)) : Prop where
  names : ListsFirst (fun name => decide (IsPending past name)) s.asked (out.map Prod.fst)
  latest : ∀ entry ∈ out, Pending past entry.1 entry.2
  answer_eq : answer = answerOf past out s

/-- Steps with what they answer and with all the entries that they take out. -/
inductive History : List Step → List Answer → List (String × ResultAlias) → Prop
  | nil : History [] [] []
  | concat {past : List Step} {answers : List Answer} {taken out : List (String × ResultAlias)}
      {s : Step} {answer : Answer} (h : History past answers taken)
      (hs : Answered past s answer out) :
      History (past ++ [s]) (answers ++ [answer]) (taken ++ out)

theorem answered_step (past : List Step) (s : Step) :
    Answered past s ((after past).step s).1 ((after past).out s) where
  names := by
    have hpending : (fun name => decide (IsPending past name)) = (after past).contains := by
      funext name
      rw [Bool.eq_iff_iff, decide_eq_true_iff, contains_after]
    rw [map_fst_out, hpending]
    exact listsFirst_eraseDups _ _
  latest entry hentry := get?_after.mp (mem_out.mp hentry).2
  answer_eq := by
    cases s with
    | register name result => rfl
    | pop name =>
      have hout : (after past).out (.pop name) =
          (((after past).get? name).map (name, ·)).toList := by
        simp [out, Step.asked, List.eraseDups_cons, List.filterMap_cons]
        cases (after past).get? name <;> rfl
      rw [hout, answerOf]
      show Answer.taken ((after past).get? name) = _
      cases (after past).get? name <;> rfl
    | render title names =>
      have hout : ((after past).out (.render title names)).map (·.2.render title) =
          (render title names (after past)).1 := by
        simp [out, Step.asked, render_eq, List.map_filterMap, Function.comp_def]
      rw [answerOf, hout]
      rfl
    | contains name =>
      show Answer.found ((after past).contains name) = _
      rw [answerOf, Answer.found.injEq, Bool.eq_iff_iff, decide_eq_true_iff, contains_after]
    | clear => rfl

theorem entries_eraseAll (names : List String) (t : ResultTable) :
    (t.eraseAll names).entries = t.entries.filter (·.1 ∉ names) := by
  induction names generalizing t with
  | nil => simp [eraseAll]
  | cons name names ih =>
    rw [eraseAll, List.foldl_cons, ← eraseAll, ih, erase, List.filter_filter]
    refine List.filter_congr fun entry _ => ?_
    simp [Bool.and_comm]

/-- What a step takes out and what it leaves was in the table or is registered by it. -/
theorem out_append_subperm (t : ResultTable) (s : Step) :
    List.Subperm (t.out s ++ (t.step s).2.entries) (t.entries ++ s.registered?.toList) := by
  have htaken (left : ResultTable) (hleft : left.entries = t.entries.filter (·.1 ∉ s.asked)) :
      List.Subperm (t.out s ++ left.entries) (t.entries ++ []) := by
    have hnodup : (t.out s).Nodup :=
      .of_map Prod.fst (by rw [map_fst_out]; exact nodup_eraseDups _)
    rw [hleft, List.append_nil]
    refine List.subperm_of_subset ?_ ?_
    · refine List.nodup_append.mpr ⟨hnodup, (List.Nodup.of_map _ t.nodup).filter _, ?_⟩
      rintro entry hout _ hkept rfl
      have hasked := (mem_out.mp hout).1
      simp [hasked] at hkept
    · intro entry hentry
      rcases List.mem_append.mp hentry with hout | hkept
      · obtain ⟨before, behind, hentries, -⟩ := List.lookup_eq_some_iff.mp (mem_out.mp hout).2
        rw [hentries]
        simp
      · exact (List.mem_filter.mp hkept).1
  cases s with
  | register name result =>
    exact (List.filter_sublist.append (List.Sublist.refl [(name, result)])).subperm
  | pop name => exact htaken (t.erase name) (by simp [erase, Step.asked])
  | render title names =>
    rw [step, render_eq]
    exact htaken (t.eraseAll names) (entries_eraseAll names t)
  | contains name => exact htaken t (by simp [Step.asked])
  | clear => exact List.nil_subperm

theorem exists_history (steps : List Step) :
    ∃ taken, History steps (answers steps empty) taken ∧
      List.Subperm (taken ++ (after steps).entries) (steps.filterMap Step.registered?) := by
  induction steps using List.reverseRecOn with
  | nil => exact ⟨[], .nil, List.nil_subperm⟩
  | append_singleton steps s ih =>
    obtain ⟨taken, hhistory, htaken⟩ := ih
    refine ⟨taken ++ (after steps).out s, ?_, ?_⟩
    · rw [answers_concat]
      exact .concat hhistory (answered_step steps s)
    · have hstep := (List.Subperm.refl taken).append (out_append_subperm (after steps) s)
      have hregistered := htaken.append (List.Subperm.refl s.registered?.toList)
      rw [after_concat, List.filterMap_append, List.append_assoc]
      refine hstep.trans ?_
      rw [← List.append_assoc]
      convert hregistered using 2
      cases s <;> rfl

/-- What a new table answers to steps in any order: each answer hands out what is pending then, of
the names that are asked for, and no registration is handed out twice, nor left after it was handed
out. A name is held as long as it is pending, the size is the number of pending names, and rendering
some names changes nothing about the others. -/
theorem answers_of_history (steps : List Step) :
    (∃ taken, History steps (answers steps empty) taken ∧
      List.Subperm (taken ++ (after steps).entries) (steps.filterMap Step.registered?)) ∧
    (∀ name, (after steps).contains name = true ↔ IsPending steps name) ∧
    {name | IsPending steps name}.encard = (after steps).size ∧
    ∀ title names name, name ∉ names →
      (after (steps ++ [.render title names])).get? name = (after steps).get? name := by
  refine ⟨exists_history steps, fun _ => contains_after, encard_isPending steps, ?_⟩
  intro title names name hname
  rw [after_concat]
  show (render title names (after steps)).2.get? name = _
  rw [render_eq, get?_eraseAll, if_neg hname]

end ResultTable

end RequestGen
