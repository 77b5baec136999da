import RequestGen.Files.Access
import RequestGen.Job.Basic

/-! # Loading a job

A job file and the document that it names are read by whatever reads documents. The document's path
is seen from the job's directory; the document gets the job's key for it, or the name of its file.
What is wrong with the content of a file is a `LoadError`; a file that cannot be read at all is a
`FileFault`, and a value in it that nothing can hold a `ValueFault`. -/

namespace RequestGen

/-- What is wrong with a file. -/
inductive LoadProblem where
  | notFound
  /-- The file is no document, in the reader's words. -/
  | invalidYaml (words : String)
  /-- The file holds something else than fields with values. -/
  | notMapping
  | noVersion
  | pathsNotMapping
  | invalidJob (issues : List Issue)

/-- A problem with a file, if it is known which. -/
structure LoadError where
  file : Option String
  problem : LoadProblem

/-- Why nothing is loaded. -/
inductive LoadFault where
  | rejected (error : LoadError)
  | unreadable (fault : FileFault)
  | unusable (fault : ValueFault)

namespace LoadProblem

def message : LoadProblem → String
  | notFound => "File not found"
  | invalidYaml words => s!"Invalid YAML syntax: {words}"
  | notMapping => "Top-level value must be a mapping"
  | noVersion => "Missing 'openapi' (or 'swagger') version field"
  | pathsNotMapping => "'paths' must be a mapping"
  | invalidJob issues => Issue.report "job" issues

end LoadProblem

/-- The problem, under the name of the file. -/
def LoadError.message (e : LoadError) : String :=
  match e.file with
  | none => e.problem.message
  | some file =>
    if file = "" then e.problem.message else s!"{file}: " ++ e.problem.message

/-- The problem with the file at a path. -/
def LoadProblem.at (path : Path) (problem : LoadProblem) : LoadFault :=
  .rejected ⟨some path.text, problem⟩

/-! ### Content -/

/-- The fields that a value holds; null has none. -/
def fieldsOf : Json → Except LoadProblem Json.Fields
  | .null => .ok []
  | .obj fields => .ok fields
  | _ => .error .notMapping

/-- The fields, if they look like those of a document: with a version, and paths that are fields
themselves if there are any. -/
def checkDocument (fields : Json.Fields) : Except LoadProblem Json.Fields :=
  if !Json.Fields.has fields "openapi" && !Json.Fields.has fields "swagger" then .error .noVersion
  else
    match Json.Fields.get? fields "paths" with
    | none => .ok fields
    | some (.obj _) => .ok fields
    | some _ => .error .pathsNotMapping

/-- The job that the fields describe. -/
def checkJob (fields : Json.Fields) : Except LoadProblem Job :=
  (Job.parse (.obj fields)).mapError .invalidJob

/-! ### Files -/

section

variable {m : Type → Type} [Monad m] (files : FileAccess m)

/-- What a check makes of the fields in the file at a path. -/
def loadWith {α : Type} (check : Json.Fields → Except LoadProblem α) (path : Path) :
    m (Except LoadFault α) := do
  match ← files.readText path with
  | .error fault => return .error (.unreadable fault)
  | .ok none => return .error (LoadProblem.notFound.at path)
  | .ok (some text) =>
    match files.document text with
    | .breaks fault => return .error (.unusable fault)
    | .invalid words => return .error ((LoadProblem.invalidYaml words).at path)
    | .value value => return (fieldsOf value >>= check).mapError (·.at path)

/-- The fields of a file. -/
def loadFields (path : Path) : m (Except LoadFault Json.Fields) :=
  loadWith files .ok path

/-- The fields of a document. -/
def loadDocument (path : Path) : m (Except LoadFault Json.Fields) :=
  loadWith files checkDocument path

end

/-- A document with its place and its key. -/
structure LoadedDocument where
  path : Path
  key : String
  fields : Json.Fields

/-- A job with what its files hold. -/
structure LoadedJob where
  path : Path
  job : Job
  document : Option LoadedDocument := none

namespace LoadedJob

variable (l : LoadedJob)

/-- The loaded documents by key. -/
def specs : Json.Fields :=
  (l.document.map fun document => (document.key, Json.obj document.fields)).toList

/-- The context of the job's operations. -/
def context : Context := l.job.context l.specs (l.document.map (·.key))

/-- The current document's fields, none if it is not loaded. -/
def spec : Json := (Json.Fields.get? l.specs l.context.specKey).getD (.obj [])

end LoadedJob

namespace Job

/-- The place of the job's document, if it names one, and its key. -/
def documentPlace (j : Job) (path : Path) (directory : List String) : Option (Path × String) :=
  match j.openapi with
  | none => none
  | some openapi =>
    if openapi = "" then none
    else
      let place := (path.parent.join (.ofText openapi)).resolve directory
      some (place, firstText [j.specKey] place.stem)

/-- The job in the file at a path, with its document. -/
def load {m : Type → Type} [Monad m] (files : FileAccess m) (path : Path) :
    m (Except LoadFault LoadedJob) := do
  match ← loadWith files checkJob path with
  | .error fault => return .error fault
  | .ok job =>
    match job.documentPlace path (← files.directory) with
    | none => return .ok { path, job }
    | some (place, key) =>
      let name := job.openapi.getD ""
      if (Path.ofText name).hasNull then return .error (.unreadable .nullCharacter)
      match files.misnames name with
      | some fault => return .error (.unusable fault)
      | none =>
        match ← loadDocument files place with
        | .error fault => return .error fault
        | .ok fields => return .ok { path, job, document := some ⟨place, key, fields⟩ }

end Job

end RequestGen
