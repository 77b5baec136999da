import RequestGen.Proofs.Command.Runs
import RequestGen.Proofs.Group.Histories
import RequestGen.Proofs.Request.DocumentReads
import RequestGen.Proofs.Request.IllTypedDocuments

/-! # How runs end

A run with usable settings whose files can be read ends with its text, or with words for what is
wrong with the job, its document or a reference. It is broken off exactly if the reader of a file
breaks off, no file can have the document's name, the text cannot be delivered, or generation is
broken off (`run_broken_iff`). With the templates of the program the last means that the first
operation that cannot be generated takes a single request, and that a place of the document that the
names of its parameters are read from is of the wrong kind. -/

namespace RequestGen

namespace Command

variable {s : Surroundings} {templates : Templates (StateM Workspace)} {w : Workspace}
  {style : Style} {l : LoadedJob} {fault : Fault}

theorem generate_eq_error_iff :
    generate style l = .error fault ↔
      Group.FirstFault style l.context l.job.operations fault := by
  rw [Group.firstFault_iff]
  have hgenerate : generate style l =
      (Group.rebuild .empty style l.context l.job.title l.job.operations).2.map (·.render) := rfl
  rw [hgenerate]
  cases h : l.job.operations.mapM (style.generated l.context) with
  | error other =>
    rw [Group.rebuild_snd_of_error _ _ h, Except.map, Except.error.injEq, Except.error.injEq]
  | ok generated =>
    obtain ⟨g, hg, -⟩ := Group.exists_rebuild_snd_of_ok .empty l.job.title h
    rw [hg]
    exact ⟨nofun, nofun⟩

/-- The first operation that cannot be generated takes a single request, and a place that the names
of its parameters are read from is of the wrong kind. -/
def MeetsIllTyped (style : Style) (l : LoadedJob) : Prop :=
  ∃ before e after, l.job.operations = before ++ e :: after ∧
    (∀ other ∈ before, ∃ code, style.implementation l.context other = .ok code) ∧
    e.ReadsNames style l.context ∧ e.IllTyped l.context

theorem misreads_generate_iff
    (hdocument : ∀ document ∈ l.document, checkDocument document.fields = .ok document.fields) :
    Misreads (generate style l) ↔ MeetsIllTyped style l := by
  unfold Misreads MeetsIllTyped
  simp only [generate_eq_error_iff, Group.FirstFault, Endpoint.implementation_eq_error_iff]
  constructor
  · rintro ⟨fault, ⟨before, e, after, hoperations, hbefore, hreads, hread⟩, hreference⟩
    obtain ⟨item, hitem⟩ := LoadedJob.exists_pathItem hdocument e.pathRoute
    exact ⟨before, e, after, hoperations, hbefore, hreads,
      (ParameterNames.misreads_read_iff hitem).mp ⟨fault, hread, hreference⟩⟩
  · rintro ⟨before, e, after, hoperations, hbefore, hreads, hill⟩
    obtain ⟨fault, hread, hreference⟩ := ParameterNames.misreads_of_illTyped hill
    exact ⟨fault, ⟨before, e, after, hoperations, hbefore, hreads, hread⟩, hreference⟩

/-! ### Runs -/

variable {settings : Settings} {arguments : Arguments} {environment : Variables}
  {words : List String}

/-- Why a run with these settings is broken off. -/
inductive Breaks (s : Surroundings) (templates : Templates (StateM Workspace)) (w : Workspace)
    (settings : Settings) (arguments : Arguments) : Prop where
  | files (h : Job.Unusable s w arguments.job)
  | operation {l : LoadedJob}
      (hload : (Job.load (Workspace.accessIn s) arguments.job).run w = (.ok l, w))
      (hbundled : settings.templates = none)
      (h : MeetsIllTyped (styleOf arguments.style settings l.job) l)
  | templates {l : LoadedJob} {directory : Path} {fault : RunFault}
      (hload : (Job.load (Workspace.accessIn s) arguments.job).run w = (.ok l, w))
      (hdirectory : settings.templates = some directory)
      (h : ((templates directory (styleOf arguments.style settings l.job) l).run w).1.text =
        .error fault)
      (hreference : ∀ error, fault ≠ .generation (.reference error))
  | delivery {l : LoadedJob} {text : String} {fault : RunFault}
      (hload : (Job.load (Workspace.accessIn s) arguments.job).run w = (.ok l, w))
      (hgenerate : ((generateUnder templates settings (styleOf arguments.style settings l.job)
        l).run w).1.text = .ok text)
      (h : ((deliver (Workspace.accessIn s) text arguments.output).run w).1.exit = .error fault)

/-- How a run ends: well, with words for why not, or broken off for a reason. -/
inductive Ends (broken : Prop) (o : Outcome) : Prop where
  | well (hbroken : ¬broken) (hexit : o.exit = .ok 0)
  | rejected (hbroken : ¬broken) (hexit : o.exit = .ok 1) {message : String}
      (hreport : .plain s!"Error: {message}\n" ∈ o.reports)
  | broken {fault : RunFault} (hbroken : broken) (hexit : o.exit = .error fault)

theorem Ends.after {b : Prop} {o : Outcome} (h : Ends b o) (reports : List Report) :
    Ends b (o.after reports) := by
  cases h with
  | well hbroken hexit => exact .well hbroken hexit
  | rejected hbroken hexit hreport =>
    exact .rejected hbroken hexit (List.mem_append_right _ hreport)
  | broken hbroken hexit => exact .broken hbroken hexit

theorem Ends.atRank {b : Prop} {o : Outcome} (h : Ends b o) (rank : Nat) :
    Ends b (o.atRank rank) := by
  cases h with
  | well hbroken hexit => exact .well hbroken hexit
  | rejected hbroken hexit hreport =>
    exact .rejected hbroken hexit (List.mem_filter.mpr ⟨hreport, rfl⟩)
  | broken hbroken hexit => exact .broken hbroken hexit

theorem deliver_exit (text : String) (output : Choice Path) :
    ((deliver (Workspace.accessIn s) text output).run w).1.exit = .ok 0 ∨
      ∃ fault, ((deliver (Workspace.accessIn s) text output).run w).1.exit = .error fault := by
  have hshown (text : String) (reports : List Report) :
      (shown s text reports).exit = .ok 0 ∨
        ∃ fault, (shown s text reports).exit = .error fault := by
    unfold shown
    split
    · exact .inl rfl
    · exact .inr ⟨_, rfl⟩
  cases output with
  | unset =>
    rw [deliver, run_put]
    exact hshown text []
  | void => exact .inr ⟨_, rfl⟩
  | value path =>
    rcases hstore : (Workspace.store s path text).run w with ⟨result, w'⟩
    rw [run_deliver_value hstore]
    cases result with
    | error fault => cases fault <;> exact .inr ⟨_, rfl⟩
    | ok => exact hshown _ _

/-- Generation under the settings fails without words for a reference. -/
def GenerationBreaks (templates : Templates (StateM Workspace)) (w : Workspace)
    (settings : Settings) (style : Style) (l : LoadedJob) : Prop :=
  ∃ fault, ((generateUnder templates settings style l).run w).1.text = .error fault ∧
    ∀ error, fault ≠ .generation (.reference error)

theorem generationBreaks_of_templates {settings : Settings} {directory : Path}
    (hdirectory : settings.templates = some directory) :
    GenerationBreaks templates w settings style l ↔
      ∃ fault, ((templates directory style l).run w).1.text = .error fault ∧
        ∀ error, fault ≠ .generation (.reference error) := by
  unfold GenerationBreaks generateUnder
  rw [hdirectory]

theorem generationBreaks_of_bundled {settings : Settings} (hbundled : settings.templates = none)
    (hdocument : ∀ document ∈ l.document, checkDocument document.fields = .ok document.fields) :
    GenerationBreaks templates w settings style l ↔ MeetsIllTyped style l := by
  rw [← misreads_generate_iff hdocument]
  unfold GenerationBreaks generateUnder Misreads
  rw [hbundled]
  have htext : ((pure (generation style l) : StateM Workspace Generation).run w).1.text =
      (generate style l).mapError .generation := rfl
  dsimp only
  rw [htext]
  cases generate style l with
  | ok text => exact ⟨fun ⟨_, h, _⟩ => (nomatch h), fun ⟨_, h, _⟩ => (nomatch h)⟩
  | error fault =>
    constructor
    · rintro ⟨other, hother, hreference⟩
      obtain rfl := Except.error.inj hother
      exact ⟨fault, rfl, fun error h => hreference error (h ▸ rfl)⟩
    · rintro ⟨other, hother, hreference⟩
      obtain rfl := Except.error.inj hother
      exact ⟨_, rfl, fun error h => hreference error (RunFault.generation.inj h)⟩

theorem breaks_iff (templates : Templates (StateM Workspace)) (settings : Settings)
    (husable : ¬Job.Unusable s w arguments.job)
    (hload : (Job.load (Workspace.accessIn s) arguments.job).run w = (.ok l, w))
    (hdocument : ∀ document ∈ l.document, checkDocument document.fields = .ok document.fields) :
    Breaks s templates w settings arguments ↔
      GenerationBreaks templates w settings (styleOf arguments.style settings l.job) l ∨
      ∃ text fault, ((generateUnder templates settings (styleOf arguments.style settings l.job)
          l).run w).1.text = .ok text ∧
        ((deliver (Workspace.accessIn s) text arguments.output).run w).1.exit = .error fault := by
  constructor
  · rintro (h | ⟨hother, hbundled, h⟩ | ⟨hother, hdirectory, h, hreference⟩ |
      ⟨hother, hgenerate, h⟩)
    · exact absurd h husable
    · obtain rfl := Except.ok.inj (Prod.mk.inj (hload.symm.trans hother)).1
      exact .inl ((generationBreaks_of_bundled hbundled hdocument).mpr h)
    · obtain rfl := Except.ok.inj (Prod.mk.inj (hload.symm.trans hother)).1
      exact .inl ((generationBreaks_of_templates hdirectory).mpr ⟨_, h, hreference⟩)
    · obtain rfl := Except.ok.inj (Prod.mk.inj (hload.symm.trans hother)).1
      exact .inr ⟨_, _, hgenerate, h⟩
  · rintro (h | ⟨text, fault, hgenerate, h⟩)
    · cases hdirectory : settings.templates with
      | none =>
        exact .operation hload hdirectory
          ((generationBreaks_of_bundled hdirectory hdocument).mp h)
      | some directory =>
        obtain ⟨fault, hfault, hreference⟩ := (generationBreaks_of_templates hdirectory).mp h
        exact .templates hload hdirectory hfault hreference
    · exact .delivery hload hgenerate h

theorem ends_perform (htemplates : templates.ReadOnly) (settings : Settings)
    (hread : Job.Readable s w arguments.job) :
    Ends (Breaks s templates w settings arguments)
      ((perform (Workspace.accessIn s) templates settings arguments).run w).1 := by
  have hjob := Job.jobLoading hread
  have hsame := Job.readsOnly_load (s := s) arguments.job w
  unfold perform
  rw [(Job.readsOnly_load arguments.job).run_bind]
  rcases hload : (Job.load (Workspace.accessIn s) arguments.job).run w with ⟨result, w'⟩
  rw [hload] at hjob hsame
  obtain rfl : w = w' := hsame.symm
  cases hjob with
  | @unusable fault hfault h =>
    cases fault with
    | rejected error => exact absurd trivial hfault
    | unreadable fault => exact .broken (.files h) rfl
    | unusable fault => exact .broken (.files h) rfl
  | @rejected error h =>
    refine .rejected (fun hbreaks => ?_) rfl (List.mem_singleton_self _)
    rcases hbreaks with hfiles | ⟨hother, -, -⟩ | ⟨hother, -, -, -⟩ | ⟨hother, -, -⟩
    · exact h hfiles
    · exact nomatch (Prod.mk.inj (hload.symm.trans hother)).1
    · exact nomatch (Prod.mk.inj (hload.symm.trans hother)).1
    · exact nomatch (Prod.mk.inj (hload.symm.trans hother)).1
  | @ok l h hdocument =>
    have hbreaks := breaks_iff templates settings h hload hdocument
    unfold GenerationBreaks at hbreaks
    dsimp only
    rw [(readsOnly_generateUnder htemplates settings _ l).run_bind]
    generalize ((generateUnder templates settings
      (styleOf arguments.style settings l.job) l).run w).1 = found at hbreaks ⊢
    obtain ⟨news, result⟩ := found
    dsimp only at hbreaks ⊢
    split
    · next error =>
      refine .rejected (fun h => ?_) rfl (List.mem_append_right _ (List.mem_singleton_self _))
      rcases hbreaks.mp h with ⟨fault, hfault, hreference⟩ | ⟨_, _, h, -⟩
      · exact hreference error (Except.error.inj hfault).symm
      · exact nomatch h
    · next fault hreference =>
      exact .broken (hbreaks.mpr (.inl ⟨fault, rfl, hreference⟩)) rfl
    · next text =>
      rcases deliver_exit (s := s) (w := w) text arguments.output with hexit | ⟨fault, hexit⟩
      · refine .well (fun h => ?_) hexit
        rcases hbreaks.mp h with ⟨fault, h, -⟩ | ⟨other, fault, hother, h⟩
        · exact nomatch h
        · obtain rfl := Except.ok.inj hother
          exact nomatch hexit.symm.trans h
      · exact .broken (hbreaks.mpr (.inr ⟨text, fault, rfl, hexit⟩)) hexit

theorem ends_run (htemplates : templates.ReadOnly)
    (hparse : Arguments.parse words = .ok arguments)
    (hsettings : Settings.ofFile environment
      ((Settings.loadFile (Workspace.accessIn s)).run w).1 = .ok settings)
    (hlevel : (Log.levels.lookup (logLevel settings arguments)).isSome = true)
    (hread : Job.Readable s w arguments.job) :
    Ends (Breaks s templates w settings arguments)
      ((run (Workspace.accessIn s) environment words templates).run w).1 := by
  have hends := ends_perform htemplates settings hread
  obtain ⟨rank, hrank⟩ := Option.isSome_iff_exists.mp hlevel
  rw [run_of_parse hparse]
  unfold follow
  rw [Settings.readsOnly_loadFile.run_bind, hsettings]
  dsimp only
  rw [hrank]
  exact ((hends.after _).atRank rank).after _

/-- A job with an operation that takes a single request, and a document with a number for the
reference of its parameter. -/
def numberedFiles : Workspace where
  current := ["home"]
  entries :=
    [(["home", "job"], .file <| "\x7btitle: P, openapi: d, operations: [\x7bverb: get, " ++
        "operation_name: l, route: /, path_route: /, " ++
        "override: \x7buse_single_request_argument: 1\x7d\x7d]\x7d"),
      (["home", "d"], .file <|
        "\x7bswagger: 2, paths: \x7b/: \x7bget: \x7bparameters: [\x7b$ref: 5\x7d]\x7d\x7d\x7d\x7d")]

theorem load_numberedFiles :
    ((Job.load (Workspace.accessIn .own) (.ofText "job")).run numberedFiles).1.toOption.map
      (fun l => (l.job.openapi, match generate .functions l with
        | .error fault => fault.message
        | .ok text => some text)) = some (some "d", none) := by
  decide +kernel

theorem exists_load_numberedFiles :
    ∃ l, (Job.load (Workspace.accessIn .own) (.ofText "job")).run numberedFiles =
        (.ok l, numberedFiles) ∧
      l.job.openapi = some "d" ∧ Misreads (generate .functions l) := by
  have hloaded := load_numberedFiles
  rcases hload : (Job.load (Workspace.accessIn .own) (.ofText "job")).run numberedFiles
    with ⟨result, left⟩
  rw [hload] at hloaded
  cases result with
  | error fault => exact nomatch hloaded
  | ok l =>
    obtain ⟨hopenapi, hmessage⟩ := Prod.mk.inj (Option.some.inj hloaded)
    obtain ⟨rfl, -⟩ := Job.load_run hload
    refine ⟨l, rfl, hopenapi, ?_⟩
    cases hgenerate : generate .functions l with
    | ok text =>
      rw [hgenerate] at hmessage
      exact nomatch hmessage
    | error fault =>
      -- every reference error has words, and this fault has none
      rw [hgenerate] at hmessage
      refine misreads_error_iff.mpr fun error herror => ?_
      rw [herror] at hmessage
      exact nomatch hmessage

theorem readable_numberedFiles (hopenapi : l.job.openapi = some "d")
    (hload : (Job.load (Workspace.accessIn .own) (.ofText "job")).run numberedFiles =
      (.ok l, numberedFiles)) :
    Job.Readable .own numberedFiles (.ofText "job") := by
  obtain ⟨-, ⟨fields, hholds, hcheck⟩, -⟩ := Job.load_run hload
  constructor
  · have hjob : ∃ text, numberedFiles.read (.ofText "job") = .ok (some text) := ⟨_, by rfl⟩
    obtain ⟨text, hjob⟩ := hjob
    exact fun fault h => nomatch hjob.symm.trans h
  · rintro job place key ⟨other, hother, hjob⟩ hplace fault h
    obtain rfl := hholds.unique hother
    obtain rfl := Except.ok.inj (hcheck.symm.trans hjob)
    rw [Job.documentPlace_of_openapi hopenapi (by decide)] at hplace
    obtain ⟨rfl, -⟩ := Prod.mk.inj (Option.some.inj hplace)
    have hdocument : ∃ text, numberedFiles.read ⟨"/", ["home", "d"]⟩ = .ok (some text) :=
      ⟨_, by rfl⟩
    obtain ⟨text, hdocument⟩ := hdocument
    exact nomatch hdocument.symm.trans h

/-- The command line for the job. -/
def numberedWords : List String := ["job", "--client", "axios-functions"]

theorem parse_numberedWords : Arguments.parse numberedWords =
    .ok { job := .ofText "job", style := .value .functions } := by
  cbv

end Command

end RequestGen
