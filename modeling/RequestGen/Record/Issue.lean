import RequestGen.Json.Basic
import RequestGen.Text.Pieces

/-! # What is wrong with a record

An `Issue` is a complaint about one place in a document value. The place is a path of field names
and list indexes. -/

namespace RequestGen

/-- What can be wrong with a value. -/
inductive Complaint where
  | missing
  | unknownField
  | notText
  | notList
  | notMapping
  /-- Not an object for the record of that name. -/
  | notRecord (name : String)
  /-- None of the names that the place allows. -/
  | notOneOf (names : List String)
  /-- Not a value that could stand for a flag. -/
  | notFlag
  /-- A text or number that stands for neither value of a flag. -/
  | unclearFlag
deriving DecidableEq

namespace Complaint

/-- The names in quotes, with commas between them and `or` before the last. -/
def alternatives : List String → String
  | [] => ""
  | [name] => s!"'{name}'"
  | [name, last] => s!"'{name}' or '{last}'"
  | name :: rest => s!"'{name}', " ++ alternatives rest

def message : Complaint → String
  | missing => "Field required"
  | unknownField => "Extra inputs are not permitted"
  | notText => "Input should be a valid string"
  | notList => "Input should be a valid list"
  | notMapping => "Input should be a valid dictionary"
  | notRecord name => s!"Input should be a valid dictionary or instance of {name}"
  | notOneOf names => s!"Input should be {alternatives names}"
  | notFlag => "Input should be a valid boolean"
  | unclearFlag => "Input should be a valid boolean, unable to interpret input"

end Complaint

/-- A complaint about one place. -/
structure Issue where
  path : List String
  complaint : Complaint
deriving DecidableEq

namespace Issue

/-- The same complaint, seen from one level further out. -/
def within (key : String) (i : Issue) : Issue := { i with path := key :: i.path }

/-- The issue as a line, under the name of the document if there is one. -/
def line (document : String) (i : Issue) : String :=
  let place := String.intercalate "." i.path
  let place := if document = "" then place else s!"{document}.{place}"
  s!"{place}: {i.complaint.message}"

/-- All issues, a line each. -/
def report (document : String) (issues : List Issue) : String :=
  Text.lines (issues.map (line document))

end Issue

end RequestGen
