import RequestGen.Number.Binary64

/-! # Document values

A document value is a JSON value. Integers are unbounded and apart from binary64 numbers, and an
object keeps its fields in the order in which they were written. -/

namespace RequestGen

/-- A document value. -/
inductive Json where
  | null
  | bool (b : Bool)
  | int (i : Int)
  | float (x : Binary64)
  | str (s : String)
  | arr (items : List Json)
  | obj (fields : List (String × Json))
deriving Inhabited

namespace Json

/-- The fields of an object. -/
abbrev Fields := List (String × Json)

/-- The value of the first field of that name. -/
def Fields.get? (fields : Fields) (key : String) : Option Json :=
  fields.lookup key

/-- Whether there is a field of that name. -/
def Fields.has (fields : Fields) (key : String) : Bool :=
  (fields.get? key).isSome

/-- The fields with `key` set: in its place if it is there, else at the end. -/
def Fields.set (fields : Fields) (key : String) (value : Json) : Fields :=
  match fields with
  | [] => [(key, value)]
  | (k, v) :: rest => if k = key then (k, value) :: rest else (k, v) :: Fields.set rest key value

/-- Whether a value counts as present: neither `null`, `false`, a zero nor empty. -/
def truthy : Json → Bool
  | null => false
  | bool b => b
  | int i => i ≠ 0
  | float x => !x.isZero
  | str s => s ≠ ""
  | arr items => !items.isEmpty
  | obj fields => !fields.isEmpty

/-- Whether the value is this text. -/
def isText (v : Json) (s : String) : Bool :=
  match v with
  | str t => t = s
  | _ => false

/-- The text of an optional text. -/
def ofText? : Option String → Json
  | none => null
  | some s => str s

end Json

end RequestGen
