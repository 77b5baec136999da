import RequestGen.Files.Path
import RequestGen.Json.Inspect
import RequestGen.Output.Basic
import RequestGen.Text.Digit

/-! # Arguments of the command

The command takes the path of a job and options. An option may be shortened as long as no other
starts alike, and its value follows it or an equals sign. After `--` no word is an option, and as a
value it stands for none. `Arguments.parse` first tells which words are options and then reads them
from left to right; complaints about the command as a whole come last. -/

namespace RequestGen

/-- An option of the command. -/
inductive OptionName where
  | help
  | output
  | client
  | logLevel
deriving DecidableEq

namespace OptionName

/-- How the option is written. -/
def text : OptionName → String
  | help => "--help"
  | output => "--output"
  | client => "--client"
  | logLevel => "--log-level"

/-- How a complaint names the option. -/
def title : OptionName → String
  | help => "-h/--help"
  | o => o.text

def all : List OptionName := [help, output, client, logLevel]

/-- The options that start with the text. -/
def matching (start : List Char) : List OptionName :=
  all.filter fun o => start.isPrefixOf o.text.toList

end OptionName

/-- Why the command stops before it does anything. -/
inductive Usage where
  /-- The user asks for help. -/
  | help
  | ambiguous (word : String)
  | missingValue (o : OptionName)
  | uselessValue (o : OptionName) (value : String)
  | unknownStyle (name : String)
  | missingJob
  | unrecognized (words : List String)
deriving DecidableEq

namespace Usage

/-- How the command is called. -/
def synopsis : String :=
  "usage: clientgen [-h] [--output OUTPUT] [--client \x7baxios,axios-functions,swr\x7d]\n" ++
  "                 [--log-level LOG_LEVEL]\n" ++
  "                 job\n"

/-- What the command does and takes. -/
def helpText : String :=
  synopsis ++
  "\nGenerate axios or SWR request functions\n" ++
  "\npositional arguments:\n" ++
  "  job                   Path to the job file (YAML or JSON)\n" ++
  "\noptions:\n" ++
  "  -h, --help            show this help message and exit\n" ++
  "  --output OUTPUT       File to write (defaults to stdout)\n" ++
  "  --client \x7baxios,axios-functions,swr\x7d\n" ++
  "                        Client style (defaults to the job's output.client)\n" ++
  "  --log-level LOG_LEVEL\n" ++
  "                        Override CLIENTGEN_LOG_LEVEL\n"

def complaint : Usage → String
  | help => ""
  | ambiguous word =>
    s!"ambiguous option: {word} could match " ++
      Text.commaList (OptionName.all.map (·.text))
  | missingValue o => s!"argument {o.title}: expected one argument"
  | uselessValue o value =>
    s!"argument {o.title}: ignored explicit argument {Json.inspectText value}"
  | unknownStyle name =>
    s!"argument --client: invalid choice: {Json.inspectText name} (choose from " ++
      Text.commaList (Style.all.map fun style => Json.inspectText style.name) ++ ")"
  | missingJob => "the following arguments are required: job"
  | unrecognized words => "unrecognized arguments: " ++ String.intercalate " " words

/-- The complaint as the user sees it. -/
def message (u : Usage) : String :=
  synopsis ++ s!"clientgen: error: {u.complaint}\n"

end Usage

/-- What a word of the command line is. -/
inductive Word where
  | plain (text : String)
  /-- An option, with the value after its equals sign. -/
  | option (o : OptionName) (value : Option String)
  /-- The letter of an option and what follows it in the same word. -/
  | letter (tail : List Char)
  /-- It looks like an option but is none. -/
  | unknown (text : String)
  | separator
deriving DecidableEq

namespace Word

/-- Decimal digits, and at least one. -/
def isDigits (s : List Char) : Bool := !s.isEmpty && s.all Text.isDecimal

/-- A negative number after its sign, possibly with a line feed after it. -/
def isNumber (s : List Char) : Bool :=
  let s := if s.getLast? = some '\n' then s.dropLast else s
  let whole := s.takeWhile Text.isDecimal
  match s.dropWhile Text.isDecimal with
  | [] => !whole.isEmpty
  | c :: fraction => c = '.' && isDigits fraction

/-- What a word before `--` is. -/
def classify (s : String) : Except Usage Word :=
  match s.toList with
  | ['-', '-'] => .ok .separator
  | ['-'] => .ok (.plain s)
  | '-' :: '-' :: _ =>
    let start := s.toList.takeWhile (· ≠ '=')
    let value : Option String := match s.toList.dropWhile (· ≠ '=') with
      | [] => none
      | _ :: value => some (String.ofList value)
    match OptionName.matching start with
    | [o] => .ok (.option o value)
    | [] => .ok (if s.toList.contains ' ' then .plain s else .unknown s)
    | _ => .error (.ambiguous s)
  | '-' :: 'h' :: tail => .ok (.letter tail)
  | '-' :: rest =>
    .ok (if isNumber rest || rest.contains ' ' then .plain s else .unknown s)
  | _ => .ok (.plain s)

/-- What each word is. -/
def ofArguments : List String → Except Usage (List Word)
  | [] => .ok []
  | s :: rest => do
    match ← classify s with
    | .separator => return .separator :: rest.map .plain
    | word => return word :: (← ofArguments rest)

end Word

/-- What the user gives for an option. -/
inductive Choice (α : Type) where
  | unset
  /-- The option is given, but without a value. -/
  | void
  | value (a : α)

/-- The value, if there is one. -/
def Choice.value? {α : Type} : Choice α → Option α
  | value a => some a
  | _ => none

/-- What the user asks for. -/
structure Arguments where
  job : Path
  /-- The file to write; the standard output if it is unset. -/
  output : Choice Path := .unset
  style : Choice Style := .unset
  logLevel : Choice String := .unset

namespace Arguments

/-- What is read so far. -/
structure Draft where
  job : Option Path := none
  output : Choice Path := .unset
  style : Choice Style := .unset
  logLevel : Choice String := .unset
  /-- Words that nothing takes. -/
  extra : List String := []

/-- What comes of the text after the letter for help in the same word: only more of these letters
may follow. -/
def helpLetters : List Char → Usage
  | ['h'] => .help
  | 'h' :: rest => helpLetters rest
  | tail => .uselessValue .help (String.ofList tail)

/-- What comes of the rest of a word that starts with the letter for help. -/
def helpWord : List Char → Usage
  | [] => .help
  | '=' :: tail => helpLetters tail
  | tail => helpLetters tail

namespace Draft

variable (d : Draft)

/-- The draft with an option that is given without a value. -/
def clear (o : OptionName) : Draft :=
  match o with
  | .help => d
  | .output => { d with output := .void }
  | .client => { d with style := .void }
  | .logLevel => { d with logLevel := .void }

/-- The draft with the value of an option. -/
def set (o : OptionName) (value : String) : Except Usage Draft :=
  match o with
  | .help => .error (.uselessValue .help value)
  | o =>
    if value = "--" then .ok (d.clear o)
    else
      match o with
      | .client =>
        match Style.ofName? value with
        | some style => .ok { d with style := .value style }
        | none => .error (.unknownStyle value)
      | .logLevel => .ok { d with logLevel := .value value }
      | _ => .ok { d with output := .value (.ofText value) }

/-- The draft with the rest of the words. The first plain word is the job's; the separator next to
it means nothing more. -/
def read (d : Draft) : List Word → Except Usage Draft
  | [] => .ok d
  | .option .help none :: _ => .error .help
  | .option o (some value) :: words => do read (← d.set o value) words
  | .option o none :: .plain value :: words => do read (← d.set o value) words
  | .option o none :: _ => .error (.missingValue o)
  | .letter tail :: _ => .error (helpWord tail)
  | .unknown text :: words => read { d with extra := d.extra ++ [text] } words
  | .separator :: .plain text :: words =>
    match d.job with
    | none => read { d with job := some (.ofText text) } words
    | some _ => read { d with extra := d.extra ++ ["--", text] } words
  | .plain text :: .separator :: words =>
    match d.job with
    | none => read { d with job := some (.ofText text) } words
    | some _ => read { d with extra := d.extra ++ [text, "--"] } words
  | .separator :: words => read { d with extra := d.extra ++ ["--"] } words
  | .plain text :: words =>
    match d.job with
    | none => read { d with job := some (.ofText text) } words
    | some _ => read { d with extra := d.extra ++ [text] } words

/-- The arguments, if a job is given and no word is left over. -/
def finish : Except Usage Arguments :=
  match d.job with
  | none => .error .missingJob
  | some job =>
    if d.extra.isEmpty then
      .ok { job, output := d.output, style := d.style, logLevel := d.logLevel }
    else .error (.unrecognized d.extra)

end Draft

/-- The arguments of a command line. -/
def parse (words : List String) : Except Usage Arguments := do
  (← Draft.read {} (← Word.ofArguments words)).finish

end Arguments

end RequestGen
