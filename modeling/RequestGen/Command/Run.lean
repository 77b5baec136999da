import RequestGen.Command.Arguments
import RequestGen.Command.Log
import RequestGen.Files.Workspace
import RequestGen.Settings.Basic
import RequestGen.Text.UpperCase

/-! # Runs of the command

A run reads its arguments and the settings, loads the job, builds its group and writes the text to a
file or to the standard output. Help ends it with 0, a wrong command line with 2, and a job that
cannot be loaded or a reference that cannot be followed with 1; any other fault breaks it off. Where
the settings name a directory of templates, `Templates` says what is generated with them. -/

namespace RequestGen

/-- Why a run is broken off. -/
inductive RunFault where
  | settings (issues : List Issue)
  /-- The level of the log is none. -/
  | logLevel
  | generation (fault : Fault)
  | file (fault : FileFault)
  | value (fault : ValueFault)
  /-- The option for the file to write is given without a value. -/
  | noOutput

/-- What a user is told of a fault, if there are words for it. -/
def RunFault.message : RunFault → Option String
  | settings issues => some (Issue.report "" issues)
  | logLevel => some "Unable to configure logger 'clientgen'"
  | generation fault => fault.message
  | file fault => fault.message
  | value fault => fault.message
  | noOutput => none

/-- What goes to the error stream. -/
inductive Report where
  | log (record : Log.Record)
  | plain (text : String)

/-- The report as it is written at a time. -/
def Report.text (time : String) : Report → String
  | log record => record.line time
  | plain text => text

/-- What a run comes to. -/
structure Outcome where
  /-- The exit code, unless the run is broken off. -/
  exit : Except RunFault Nat := .ok 0
  output : String := ""
  reports : List Report := []

namespace Outcome

/-- The outcome of a run whose job is rejected. -/
def rejected (message : String) : Outcome where
  exit := .ok 1
  reports := [.plain s!"Error: {message}\n"]

/-- The outcome of a run that is broken off. -/
def broken (fault : RunFault) : Outcome where
  exit := .error fault

/-- The outcome after some reports. -/
def after (reports : List Report) (o : Outcome) : Outcome :=
  { o with reports := reports ++ o.reports }

/-- The outcome with only the records of a rank or above. -/
def atRank (rank : Nat) (o : Outcome) : Outcome :=
  { o with reports := o.reports.filter fun report =>
      match report with
      | .log record => rank ≤ record.severity.rank
      | .plain _ => true }

/-- The outcome of a command line that is not followed. -/
def ofUsage : Usage → Outcome
  | .help => { output := Usage.helpText }
  | usage => { exit := .ok 2, reports := [.plain usage.message] }

end Outcome

namespace Command

/-- The style of a job: the one asked for, or the job's own choice, or that of the settings. Where
the option is given without a value the settings do not count. -/
def styleOf (asked : Choice Style) (settings : Settings) (j : Job) : Style :=
  match asked with
  | .value style => style
  | .void => j.output.style
  | .unset => if j.choosesStyle then j.output.style else settings.style

/-- The generated text of a loaded job. -/
def generate (style : Style) (l : LoadedJob) : Except Fault String :=
  (Group.build style l.context l.job.title l.job.operations).2.map (·.render)

/-- What generation comes to: what is told meanwhile, and the text. -/
structure Generation where
  news : List Log.Record
  text : Except RunFault String

/-- What generation comes to with the templates of the program. -/
def generation (style : Style) (l : LoadedJob) : Generation where
  news := Log.ofBuild style l
  text := (generate style l).mapError .generation

/-- What generation comes to with the templates in a directory of the user. -/
abbrev Templates (m : Type → Type) := Path → Style → LoadedJob → m Generation

/-- A program that reads no templates generates nothing with those of the user. -/
def Templates.none {m : Type → Type} [Monad m] : Templates m := fun directory _ _ =>
  return ⟨[], .error (.value (.reported s!"No templates are read from {directory.text}"))⟩

/-- What generation comes to under the settings. -/
def generateUnder {m : Type → Type} [Monad m] (templates : Templates m) (settings : Settings)
    (style : Style) (l : LoadedJob) : m Generation :=
  match settings.templates with
  | .none => return generation style l
  | .some directory => templates directory style l

/-- What the user is told of a file that has been written. -/
def written (path : Path) : String := s!"  ✓ {path.text}\n"

/-- What showing a text comes to, after some reports. -/
def put {m : Type → Type} [Monad m] (files : FileAccess m) (text : String)
    (reports : List Report) : m Outcome := do
  match ← files.accepts text with
  | .error fault => return (Outcome.broken (.value fault)).after reports
  | .ok () => return { output := text, reports }

/-- What the text comes to on the way to where it is wanted. -/
def deliver {m : Type → Type} [Monad m] (files : FileAccess m) (text : String) :
    Choice Path → m Outcome
  | .unset => put files text []
  | .void => return .broken .noOutput
  | .value path => do
    match ← files.write path text with
    | .error (.file fault) => return .broken (.file fault)
    | .error (.value fault) => return .broken (.value fault)
    | .ok () => put files (written path) [.log (.wrote path)]

/-- The outcome of a run that has its arguments and settings. -/
def perform {m : Type → Type} [Monad m] (files : FileAccess m) (templates : Templates m)
    (settings : Settings) (arguments : Arguments) : m Outcome := do
  match ← Job.load files arguments.job with
  | .error (.rejected error) => return .rejected error.message
  | .error (.unreadable fault) => return .broken (.file fault)
  | .error (.unusable fault) => return .broken (.value fault)
  | .ok loaded =>
    let style := styleOf arguments.style settings loaded.job
    let found ← generateUnder templates settings style loaded
    let news := (Log.ofLoaded loaded ++ found.news).map .log
    match found.text with
    | .error (.generation (.reference error)) =>
      return (Outcome.rejected error.message).after news
    | .error fault => return (Outcome.broken fault).after news
    | .ok text => return (← deliver files text arguments.output).after news

/-- The level of the log: the one asked for, if it is not empty, or that of the settings, whatever
its case. -/
def logLevel (settings : Settings) (arguments : Arguments) : String :=
  Text.upperCase (Job.firstText [arguments.logLevel.value?] settings.logLevel)

/-- What is reported of a file with variables. -/
def reportsOf (f : EnvFile) : List Report :=
  f.malformed.map fun line =>
    .plain s!"python-dotenv could not parse statement starting at line {line}\n"

/-- The outcome of a command line's arguments under an environment. -/
def follow {m : Type → Type} [Monad m] (files : FileAccess m) (templates : Templates m)
    (environment : Variables) (arguments : Arguments) : m Outcome := do
  let file ← Settings.loadFile files
  let outcome ← match Settings.ofFile environment file with
    | .error issues => pure (.broken (.settings issues))
    | .ok settings =>
      let level := logLevel settings arguments
      match Log.levels.lookup level with
      | none => pure (.broken .logLevel)
      | some rank =>
        let outcome ← perform files templates settings arguments
        pure ((outcome.after [.log (.configured level)]).atRank rank)
  return outcome.after (reportsOf file)

/-- The outcome of a command line under an environment. -/
def run {m : Type → Type} [Monad m] (files : FileAccess m) (environment : Variables)
    (words : List String) (templates : Templates m := .none) : m Outcome :=
  match Arguments.parse words with
  | .error usage => return .ofUsage usage
  | .ok arguments => follow files templates environment arguments

end Command

end RequestGen
