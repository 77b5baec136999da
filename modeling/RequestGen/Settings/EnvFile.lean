import RequestGen.Text.Blank

/-! # Variables in a file

A file of variables has an assignment a line: a name, an equals sign and a value, which may stand in
quotes and then run over several lines. `EnvFile.parse` also tells which lines are malformed. A
value may refer to variables; `EnvFile.resolve` puts in what they hold, where a variable of the file
hides one of the environment. -/

namespace RequestGen

/-- Variables with their values. One may be named without a value. -/
abbrev Variables := List (String × Option String)

/-- What stands in a file of variables. -/
structure EnvFile where
  assignments : Variables := []
  /-- The numbers of the lines at which something malformed starts. -/
  malformed : List Nat := []

namespace EnvFile

/-- What stands on a line, or on the lines that a quoted value takes. -/
inductive Statement where
  | assignment (name : String) (value : Option String)
  /-- A comment, or nothing. -/
  | empty
  | malformed

/-- A blank that does not end the line. -/
def isLineBlank (c : Char) : Bool := Text.isBlank c && c ≠ '\n'

def skipBlanks (s : List Char) : List Char := s.dropWhile isLineBlank

/-- What comes after the line. -/
def nextLine (s : List Char) : List Char := (s.dropWhile (· ≠ '\n')).drop 1

/-- The rest without the word `export`, which may stand before a name. -/
def skipExport (s : List Char) : List Char :=
  let word := "export".toList
  let rest := s.drop word.length
  if word.isPrefixOf s && (rest.head?.map isLineBlank).getD false then skipBlanks rest else s

/-- The name at the head of the rest, none before a comment, and what follows. -/
def name? : List Char → Option (Option String × List Char)
  | [] => none
  | '#' :: s => some (none, '#' :: s)
  | '\'' :: s =>
    let name := s.takeWhile (· ≠ '\'')
    match s.dropWhile (· ≠ '\'') with
    | [] => none
    | _ :: rest => if name.isEmpty then none else some (some (String.ofList name), rest)
  | s =>
    let isName (c : Char) : Bool := c ≠ '=' && c ≠ '#' && !Text.isBlank c
    let name := s.takeWhile isName
    if name.isEmpty then none else some (some (String.ofList name), s.dropWhile isName)

/-- The inside of quotes, up to the closing quote, and what follows. A backslash keeps the character
after it from closing them. -/
def quoted? (quote : Char) : List Char → Option (List Char × List Char)
  | [] => none
  | '\\' :: c :: s => (quoted? quote s).map fun (inside, rest) => ('\\' :: c :: inside, rest)
  | c :: s =>
    if c = quote then some ([], s)
    else (quoted? quote s).map fun (inside, rest) => (c :: inside, rest)

/-- What a letter after a backslash stands for inside double quotes. -/
def escape? : Char → Option Char
  | '\\' => some '\\'
  | '\'' => some '\''
  | '"' => some '"'
  | 'a' => some '\x07'
  | 'b' => some '\x08'
  | 'f' => some '\x0c'
  | 'n' => some '\n'
  | 'r' => some '\r'
  | 't' => some '\t'
  | 'v' => some '\x0b'
  | _ => none

/-- Inside single quotes only the quote and the backslash can be escaped. -/
def singleEscape? (c : Char) : Option Char :=
  if c = '\\' ∨ c = '\'' then some c else none

/-- The text with its escapes read. A backslash before anything else stands for itself. -/
def unescape (escape? : Char → Option Char) : List Char → List Char
  | '\\' :: c :: s =>
    match escape? c with
    | some e => e :: unescape escape? s
    | none => '\\' :: unescape escape? (c :: s)
  | c :: s => c :: unescape escape? s
  | [] => []

/-- The text before the first `#` after a blank. -/
def cutComment (afterBlank : Bool) : List Char → List Char
  | [] => []
  | c :: s =>
    if c = '#' && afterBlank then [] else c :: cutComment (Text.isBlank c) s

/-- The text without blanks at its end. -/
def trimEnd (s : List Char) : List Char := (s.reverse.dropWhile Text.isBlank).reverse

/-- The value at the head of the rest, and what follows; `afterBlank` says that a blank stands
before it. -/
def value? (afterBlank : Bool) : List Char → Option (List Char × List Char)
  | '\'' :: s => (quoted? '\'' s).map fun (inside, rest) => (unescape singleEscape? inside, rest)
  | '"' :: s => (quoted? '"' s).map fun (inside, rest) => (unescape escape? inside, rest)
  | s => some (trimEnd (cutComment afterBlank (s.takeWhile (· ≠ '\n'))), s.dropWhile (· ≠ '\n'))

/-- What follows the line if only a comment is left of it. -/
def lineEnd? (s : List Char) : Option (List Char) :=
  match skipBlanks s with
  | '#' :: s => some (nextLine s)
  | [] => some []
  | c :: s => if c = '\n' then some s else none

/-- The assignment to a name, if there is a name. -/
def Statement.ofName (name : Option String) (value : Option String) : Statement :=
  match name with
  | none => .empty
  | some name => .assignment name value

/-- A line's assignment and what follows the line. -/
def finish (name : Option String) (value : Option String) (s : List Char) :
    Statement × List Char :=
  match lineEnd? s with
  | some rest => (.ofName name value, rest)
  | none => (.malformed, nextLine s)

/-- The next statement and what follows it. -/
def statement (s : List Char) : Statement × List Char :=
  match s.dropWhile Text.isBlank with
  | [] => (.empty, [])
  | s =>
    let s := skipExport s
    match name? s with
    | none => (.malformed, nextLine s)
    | some (name, s) =>
      match skipBlanks s with
      | '=' :: s =>
        let rest := skipBlanks s
        match value? (rest.length < s.length) rest with
        | none => (.malformed, nextLine rest)
        | some (value, s) => finish name (some (String.ofList value)) s
      | s => finish name none s

/-- The statements of the text with the numbers of the lines at which they start, the first of which
is `line`. The text is read in at most `fuel` steps. -/
def statements : Nat → Nat → List Char → List (Nat × Statement)
  | 0, _, _ => []
  | _, _, [] => []
  | fuel + 1, line, s =>
    let (found, rest) := statement s
    (line, found) :: statements fuel (line + (s.count '\n' - rest.count '\n')) rest

/-- The assignment that a statement makes. -/
def Statement.assignment? : Statement → Option (String × Option String)
  | assignment name value => some (name, value)
  | _ => none

/-- The text without a byte order mark at its start. -/
def skipOrderMark : List Char → List Char
  | '\ufeff' :: s => s
  | s => s

/-- What stands in a text whose lines end in line feeds. -/
def parse (s : String) : EnvFile :=
  let found := statements (s.length + 1) 1 (skipOrderMark s.toList)
  { assignments := found.filterMap fun (_, statement) => statement.assignment?
    malformed := found.filterMap fun (line, statement) =>
      match statement with
      | .malformed => some line
      | _ => none }

/-- The variables with one set: in its place if it is there, else at the end. -/
def set (vars : Variables) (name : String) (value : Option String) : Variables :=
  match vars with
  | [] => [(name, value)]
  | (n, v) :: rest => if n = name then (n, value) :: rest else (n, v) :: set rest name value

/-- The last value of a variable, empty if it has none. -/
def valueOf (vars : Variables) (name : String) : Option String :=
  (vars.reverse.lookup name).map (·.getD "")

/-- A reference to a variable after its dollar sign and brace: its name, the text that stands for a
missing value, and what follows. -/
def reference? (s : List Char) : Option (String × String × List Char) :=
  let isName (c : Char) : Bool := c ≠ '\x7d' && c ≠ ':'
  let name := String.ofList (s.takeWhile isName)
  match s.dropWhile isName with
  | '\x7d' :: rest => some (name, "", rest)
  | ':' :: '-' :: s =>
    match s.dropWhile (· ≠ '\x7d') with
    | [] => none
    | _ :: rest => some (name, String.ofList (s.takeWhile (· ≠ '\x7d')), rest)
  | _ => none

/-- The text with its references replaced, in at most that many steps. -/
def expandFrom (vars : Variables) : Nat → List Char → List Char
  | 0, _ => []
  | _, [] => []
  | fuel + 1, c :: s =>
    let plain := c :: expandFrom vars fuel s
    match c, s with
    | '$', '\x7b' :: t =>
      match reference? t with
      | some (name, fallback, rest) =>
        ((valueOf vars name).getD fallback).toList ++ expandFrom vars fuel rest
      | none => plain
    | _, _ => plain

/-- The text with its references replaced. -/
def expand (vars : Variables) (s : String) : String :=
  String.ofList (expandFrom vars s.length s.toList)

/-- The variables of a file with all references replaced. A reference sees the environment and what
the file has set before. -/
def resolve (environment : Variables) (assignments : Variables) : Variables :=
  assignments.foldl
    (fun vars (name, value) =>
      set vars name (value.map (expand (environment ++ vars)))) []

end EnvFile

end RequestGen
