import RequestGen.Proofs.Command.Arguments
import RequestGen.Proofs.Files.Writing
import RequestGen.Proofs.Job.Reading

/-! # What runs leave of the files

Until it delivers its text, a run only reads, and what it reads and generates does not depend on
where the text is wanted (`follow_deliversLast`). So a run that comes to no text leaves the files as
they are, and one that writes a file writes what the same run without one shows
(`run_leaves_files`). A run may still fail while it delivers: on the way to a file that no path
leads to, in a file that keeps only part of the text, or when the file is written and only the news
of it cannot be shown. -/

namespace RequestGen

namespace Command

variable {s : Surroundings} {templates : Templates (StateM Workspace)} {w w' : Workspace}
  {environment : Variables} {words : List String} {arguments : Arguments} {outcome : Outcome}
  {path : Path}

/-- No files are changed when templates are read. -/
def Templates.ReadOnly (templates : Templates (StateM Workspace)) : Prop :=
  ∀ directory style l, ReadsOnly (templates directory style l)

theorem Templates.readOnly_none : Templates.ReadOnly .none := fun _ _ _ => .pure _

theorem readsOnly_generateUnder (htemplates : templates.ReadOnly) (settings : Settings)
    (style : Style) (l : LoadedJob) : ReadsOnly (generateUnder templates settings style l) := by
  unfold generateUnder
  split
  · exact .pure _
  · exact htemplates _ _ _

/-! ### Delivery comes last -/

/-- Only reports are added to an outcome. -/
def AddsReports (f : Outcome → Outcome) : Prop :=
  ∀ o, (f o).exit = o.exit ∧ (f o).output = o.output

/-- Where the text is wanted is looked at only when there is a text to deliver: else the run comes
to the same for all, and leaves the files as they are. -/
inductive DeliversLast (s : Surroundings) (w : Workspace)
    (x : Choice Path → StateM Workspace Outcome) : Prop where
  | fails (outcome : Outcome) (hexit : outcome.exit ≠ .ok 0)
      (h : ∀ output, (x output).run w = (outcome, w))
  | delivers (text : String) (f : Outcome → Outcome) (hf : AddsReports f)
      (h : ∀ output, (x output).run w =
        Prod.map f id ((deliver (Workspace.accessIn s) text output).run w))

theorem DeliversLast.map {x : Choice Path → StateM Workspace Outcome} {f : Outcome → Outcome}
    (hx : DeliversLast s w x) (hf : AddsReports f) :
    DeliversLast s w fun output => f <$> x output := by
  have hmap (output : Choice Path) :
      (f <$> x output).run w = Prod.map f id ((x output).run w) := rfl
  cases hx with
  | fails outcome hexit h =>
    refine .fails (f outcome) ((hf outcome).1 ▸ hexit) fun output => ?_
    rw [hmap, h]
    rfl
  | delivers text g hg h =>
    refine .delivers text (f ∘ g) (fun o => ?_) fun output => ?_
    · exact ⟨(hf (g o)).1.trans (hg o).1, (hf (g o)).2.trans (hg o).2⟩
    · rw [hmap, h]
      rfl

theorem DeliversLast.congr {x y : Choice Path → StateM Workspace Outcome}
    (hx : DeliversLast s w x) (h : ∀ output, (y output).run w = (x output).run w) :
    DeliversLast s w y := by
  cases hx with
  | fails outcome hexit hx => exact .fails outcome hexit fun output => (h output).trans (hx output)
  | delivers text f hf hx => exact .delivers text f hf fun output => (h output).trans (hx output)

theorem DeliversLast.bind {α : Type} {x : StateM Workspace α}
    {f : Choice Path → α → StateM Workspace Outcome} (hx : ReadsOnly x)
    (h : DeliversLast s w fun output => f output (x.run w).1) :
    DeliversLast s w fun output => x >>= f output :=
  h.congr fun _ => hx.run_bind w

theorem perform_deliversLast (s : Surroundings) (htemplates : templates.ReadOnly) (w : Workspace)
    (settings : Settings) (arguments : Arguments) :
    DeliversLast s w fun output =>
      perform (Workspace.accessIn s) templates settings { arguments with output } := by
  unfold perform
  refine .bind (Job.readsOnly_load arguments.job) ?_
  cases ((Job.load (Workspace.accessIn s) arguments.job).run w).1 with
  | error fault =>
    cases fault with
    | rejected error => exact .fails (.rejected error.message) nofun fun _ => rfl
    | unreadable fault => exact .fails (.broken (.file fault)) nofun fun _ => rfl
    | unusable fault => exact .fails (.broken (.value fault)) nofun fun _ => rfl
  | ok loaded =>
    dsimp only
    refine .bind (readsOnly_generateUnder htemplates _ _ loaded) ?_
    generalize ((generateUnder templates settings _ loaded).run w).1 = found
    obtain ⟨news, result⟩ := found
    dsimp only
    split
    · next error => exact .fails ((Outcome.rejected error.message).after _) nofun fun _ => rfl
    · next fault _ => exact .fails ((Outcome.broken fault).after _) nofun fun _ => rfl
    · next text => exact .delivers text (Outcome.after _) (fun _ => ⟨rfl, rfl⟩) fun _ => rfl

theorem follow_deliversLast (s : Surroundings) (htemplates : templates.ReadOnly) (w : Workspace)
    (environment : Variables) (arguments : Arguments) :
    DeliversLast s w fun output =>
      follow (Workspace.accessIn s) templates environment { arguments with output } := by
  unfold follow
  refine .bind Settings.readsOnly_loadFile ?_
  generalize ((Settings.loadFile (Workspace.accessIn s)).run w).1 = file
  cases Settings.ofFile environment file with
  | error issues => exact .fails ((Outcome.broken (.settings issues)).after _) nofun fun _ => rfl
  | ok settings =>
    dsimp only
    have hlevel (output : Choice Path) :
        logLevel settings { arguments with output } = logLevel settings arguments := rfl
    simp only [hlevel]
    cases Log.levels.lookup (logLevel settings arguments) with
    | none => exact .fails ((Outcome.broken .logLevel).after _) nofun fun _ => rfl
    | some rank =>
      have hreports : AddsReports fun o => ((o.after
          [.log (.configured (logLevel settings arguments))]).atRank rank).after (reportsOf file) :=
        fun _ => ⟨rfl, rfl⟩
      exact ((perform_deliversLast s htemplates w settings arguments).map hreports).congr
        fun _ => rfl

/-! ### Delivery -/

/-- What showing a text comes to. -/
def shown (s : Surroundings) (text : String) (reports : List Report) : Outcome :=
  match s.refuses text with
  | none => { output := text, reports }
  | some fault => (Outcome.broken (.value fault)).after reports

theorem run_put (text : String) (reports : List Report) :
    (put (Workspace.accessIn s) text reports).run w = (shown s text reports, w) := by
  have haccepts : ((Workspace.accessIn s).accepts text).run w =
      ((match s.refuses text with
        | none => .ok ()
        | some fault => .error fault), w) := rfl
  unfold put shown
  rw [run_bind_of_eq haccepts]
  cases s.refuses text <;> rfl

theorem run_store_of_error {text : String} {fault : FileFault}
    (h : (Workspace.write path (s.part text)).run.run w = (.error fault, w')) :
    (Workspace.store s path text).run w = (.error (.file fault), w') := by
  unfold Workspace.store
  rw [run_bind_of_eq h]
  rfl

theorem run_store_of_ok {text : String}
    (h : (Workspace.write path (s.part text)).run.run w = (.ok (), w')) :
    (Workspace.store s path text).run w = (s.kept text, w') := by
  unfold Workspace.store
  rw [run_bind_of_eq h]
  rfl

/-- What the writing of a file comes to. -/
def outcomeOfStore (s : Surroundings) (path : Path) : Except WriteFault Unit → Outcome
  | .error (.file fault) => .broken (.file fault)
  | .error (.value fault) => .broken (.value fault)
  | .ok () => shown s (written path) [.log (.wrote path)]

theorem run_deliver_value {text : String} {result : Except WriteFault Unit}
    (h : (Workspace.store s path text).run w = (result, w')) :
    (deliver (Workspace.accessIn s) text (.value path)).run w =
      (outcomeOfStore s path result, w') := by
  unfold deliver
  have hwrite : ((Workspace.accessIn s).write path text).run w = (result, w') := h
  dsimp only
  rw [run_bind_of_eq hwrite]
  cases result with
  | error fault => cases fault <;> rfl
  | ok => exact run_put _ _

/-- What is left of the files by a run that fails while it delivers its text. -/
inductive Leaves (s : Surroundings) (w : Workspace) (path : Path) (text : String) :
    Workspace → Prop where
  /-- Directories have been made on the way to a file that there cannot be. -/
  | directories {w' : Workspace} (hname : ¬path.IsNameable)
      (h : w.MakesWay (path.parent.stepsFrom w.current) w') : Leaves s w path text w'
  /-- The file keeps only a part of the text. -/
  | part {part : String} {fault : ValueFault} {w' : Workspace}
      (hkeeps : s.keeps text = some (part, fault))
      (h : w.Writes (path.stepsFrom w.current) part w') : Leaves s w path text w'
  /-- The file is written, but the news of it cannot be shown. -/
  | unreported {fault : ValueFault} {w' : Workspace} (hkeeps : s.keeps text = none)
      (hrefuses : s.refuses (written path) = some fault)
      (h : w.Writes (path.stepsFrom w.current) text w') : Leaves s w path text w'

/-- What delivery into a file comes to. -/
inductive Delivery (s : Surroundings) (w : Workspace) (path : Path) (text : String) :
    Outcome → Workspace → Prop where
  | fails {o : Outcome} {w' : Workspace} (hexit : o.exit ≠ .ok 0)
      (h : w' = w ∨ Leaves s w path text w') : Delivery s w path text o w'
  | writes {o : Outcome} {w' : Workspace} (hexit : o.exit = .ok 0)
      (hwrites : w.Writes (path.stepsFrom w.current) text w')
      (hread : w'.read path = .ok (some text)) : Delivery s w path text o w'

theorem delivery {text : String} {o : Outcome} (hup : Path.up ∉ path.steps)
    (h : (deliver (Workspace.accessIn s) text (.value path)).run w = (o, w')) :
    Delivery s w path text o w' := by
  rcases hwrite : (Workspace.write path (s.part text)).run.run w with ⟨result, left⟩
  have hwritten := Workspace.written hup hwrite
  cases result with
  | error fault =>
    rw [run_deliver_value (run_store_of_error hwrite)] at h
    obtain ⟨rfl, rfl⟩ := Prod.mk.inj h
    refine .fails nofun ?_
    by_cases hname : path.IsNameable
    · exact .inl (hwritten.eq_of_isNameable hup hname)
    · have hparent : Path.up ∉ path.parent.steps := fun hmem => hup (List.dropLast_subset _ hmem)
      have hway := hwritten.makesWay
      rw [← List.dropLast_eq_take] at hway
      refine .inr (.directories hname ?_)
      rw [Path.stepsFrom_of_up_notMem hparent]
      exact hway
  | ok =>
    rw [run_deliver_value (run_store_of_ok hwrite)] at h
    obtain ⟨rfl, rfl⟩ := Prod.mk.inj h
    obtain ⟨hwrites, hread⟩ := hwritten.writes hup
    unfold Surroundings.kept
    unfold Surroundings.part at hwrites hread
    cases hkeeps : s.keeps text with
    | some kept =>
      rw [hkeeps] at hwrites
      exact .fails nofun (.inr (.part hkeeps hwrites))
    | none =>
      rw [hkeeps] at hwrites hread
      dsimp only [outcomeOfStore, shown]
      cases hrefuses : s.refuses (written path) with
      | some fault => exact .fails nofun (.inr (.unreported hkeeps hrefuses hwrites))
      | none => exact .writes rfl hwrites hread

/-! ### Runs -/

/-- The file that a command line asks for. -/
def target? (words : List String) : Option Path :=
  match Arguments.parse words with
  | .ok arguments => arguments.output.value?
  | .error _ => none

theorem run_of_parse (h : Arguments.parse words = .ok arguments) :
    run (Workspace.accessIn s) environment words templates =
      follow (Workspace.accessIn s) templates environment arguments := by
  unfold run
  rw [h]

theorem exists_of_target? (h : target? words = some path) :
    ∃ arguments : Arguments,
      Arguments.parse words = .ok { arguments with output := .value path } := by
  unfold target? at h
  split at h
  · next arguments hparse =>
    obtain ⟨job, output, style, level⟩ := arguments
    refine ⟨⟨job, output, style, level⟩, hparse.trans ?_⟩
    cases output with
    | value asked => rw [← Option.some.inj h]
    | _ => exact nomatch h
  · exact nomatch h

/-- The other command line asks for the same, but for the text to be shown. -/
def ShowsInstead (words other : List String) : Prop :=
  ∃ arguments, Arguments.parse words = .ok arguments ∧
    Arguments.parse other = .ok { arguments with output := .unset }

/-- The same run shows the text if it is asked for no file, where the text can be shown. -/
def Shows (s : Surroundings) (templates : Templates (StateM Workspace)) (environment : Variables)
    (words : List String) (w : Workspace) (text : String) : Prop :=
  (∃ other, ShowsInstead words other) ∧
    ∀ other, ShowsInstead words other → s.refuses text = none →
      ∃ reports, (run (Workspace.accessIn s) environment other templates).run w =
        ({ exit := .ok 0, output := text, reports }, w)

theorem shows_of_delivers {text : String} {f : Outcome → Outcome}
    (hparse : Arguments.parse words = .ok { arguments with output := .value path })
    (hf : AddsReports f)
    (hall : ∀ output,
      (follow (Workspace.accessIn s) templates environment { arguments with output }).run w =
        Prod.map f id ((deliver (Workspace.accessIn s) text output).run w)) :
    Shows s templates environment words w text := by
  constructor
  · obtain ⟨other, hother⟩ := Arguments.exists_words hparse
    exact ⟨other, _, hparse, hother⟩
  · rintro other ⟨same, hsame, hother⟩ htakes
    obtain rfl := Except.ok.inj (hparse.symm.trans hsame)
    have hput : (deliver (Workspace.accessIn s) text .unset).run w =
        ({ output := text, reports := [] }, w) := by
      have h := run_put (s := s) (w := w) text []
      unfold shown at h
      rw [htakes] at h
      exact h
    have hshown := hf { output := text, reports := [] }
    rw [run_of_parse hother]
    refine ⟨(f { output := text, reports := [] }).reports, (hall .unset).trans ?_⟩
    rw [hput]
    show (f { output := text, reports := [] }, w) = _
    generalize f { output := text, reports := [] } = o at hshown
    obtain ⟨exit, output, reports⟩ := o
    dsimp only at hshown
    rw [hshown.1, hshown.2]

theorem run_of_target?_eq_none (htemplates : templates.ReadOnly) (w : Workspace)
    (environment : Variables) (h : target? words = none) :
    ((run (Workspace.accessIn s) environment words templates).run w).2 = w := by
  unfold target? at h
  unfold run
  split at h
  · next arguments hparse =>
    rw [hparse]
    have hdeliver (text : String) :
        ((deliver (Workspace.accessIn s) text arguments.output).run w).2 = w := by
      cases houtput : arguments.output with
      | value path => exact nomatch houtput ▸ h
      | void => rfl
      | unset => exact congrArg Prod.snd (run_put text [])
    cases follow_deliversLast s htemplates w environment arguments with
    | fails _ _ hall => exact congrArg Prod.snd (hall arguments.output)
    | delivers text f _ hall =>
      exact (congrArg Prod.snd (hall arguments.output)).trans (hdeliver text)
  · next usage hparse =>
    rw [hparse]
    rfl

/-- The command line for a file with the pets. -/
def petsWords : List String := ["job.yaml", "--output", "out/pets.ts"]

/-- Two jobs without operations, one with half of a surrogate pair in its title, and a file. -/
def briefFiles : Workspace where
  current := ["home"]
  entries :=
    [(["home", "job"], .file "\x7btitle: P\x7d"),
      (["home", "half"], .file "\x7btitle: \"\\ud83d\"\x7d"),
      (["home", "out.ts"], .file "// pets")]

/-- Surroundings in which nothing can be shown. -/
def mute : Surroundings := { Surroundings.own with refuses := fun _ => some (.reported "") }

/-- What a run without variables comes to, and what it leaves of the brief files. -/
def ranBriefly (s : Surroundings) (words : List String) : Outcome × Workspace :=
  (run (Workspace.accessIn s) [] words).run briefFiles

end Command

end RequestGen
