import RequestGen.Job.Load

/-! # Log

What a run tells about its progress. A `Record` of the log is written to the error stream, a line
each, if it is at least as severe as the user asks for. -/

namespace RequestGen

namespace Log

/-- How much a record matters. -/
inductive Severity where
  | debug
  | info
deriving DecidableEq

namespace Severity

def name : Severity → String
  | debug => "DEBUG"
  | info => "INFO"

/-- The rank among all levels. -/
def rank : Severity → Nat
  | debug => 10
  | info => 20

end Severity

/-- The least rank that is written, by the name of its level. A level that sets none leaves that of
warnings. -/
def levels : List (String × Nat) :=
  [("CRITICAL", 50), ("FATAL", 50), ("ERROR", 40), ("WARN", 30), ("WARNING", 30), ("INFO", 20),
    ("DEBUG", 10), ("NOTSET", 30)]

/-- A piece of news from part of the program. -/
structure Record where
  severity : Severity
  source : String
  message : String

namespace Record

/-- The record as a line, with its time. -/
def line (time : String) (r : Record) : String :=
  s!"{time} | {r.severity.name} | {r.source} | {r.message}\n"

def configured (level : String) : Record :=
  ⟨.debug, "clientgen.lib.logging", s!"Logging configured at {level}"⟩

def loadedDocument (d : LoadedDocument) : Record :=
  ⟨.info, "clientgen.spec.loader",
    s!"Loaded OpenAPI document {d.path.text} as '{d.key}'"⟩

def loadedJob (j : Job) : Record :=
  ⟨.info, "clientgen.spec.loader",
    s!"Loaded job '{j.title}' with {j.operations.length} operations"⟩

def building (style : Style) (j : Job) : Record :=
  ⟨.info, "clientgen.builder",
    s!"Building {style.name} client '{j.title}' ({j.operations.length} operations)"⟩

/-- What is told before the code of an operation is generated. -/
def generating (style : Style) (ctx : Context) (op : Operation) : List Record :=
  let transport := style.transport ctx op
  match style with
  | .swr =>
    ⟨.debug, "clientgen.clients.swr",
        s!"Generating SWR request function for {op.operationName} with {transport.name} transport"⟩
      :: if transport = .fetch then
        [⟨.debug, "clientgen.clients.fetch",
          s!"Generating fetch request function for {op.operationName}"⟩]
      else []
  | _ =>
    [⟨.debug, "clientgen.clients.axios",
      s!"Generating {op.operationName} with {transport.name} transport"⟩]

def wrote (path : Path) : Record :=
  ⟨.info, "clientgen.generate", s!"Wrote {path.text}"⟩

end Record

/-- What is told while the operations are generated, up to the first that cannot be. -/
def ofOperations (style : Style) (ctx : Context) : List Endpoint → List Record
  | [] => []
  | e :: es =>
    Record.generating style ctx e.operation ++
      match style.implementation ctx e with
      | .ok _ => ofOperations style ctx es
      | .error _ => []

/-- What is told of a loaded job. -/
def ofLoaded (l : LoadedJob) : List Record :=
  (l.document.map Record.loadedDocument).toList ++ [.loadedJob l.job]

/-- What is told while the group of a job is built. -/
def ofBuild (style : Style) (l : LoadedJob) : List Record :=
  .building style l.job :: ofOperations style l.context l.job.operations

end Log

end RequestGen
