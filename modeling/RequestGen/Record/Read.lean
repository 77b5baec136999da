import RequestGen.Json.Basic

/-! # Reading normal forms

Once a value is in normal form its fields are present and of their kinds, so they are read without
failure; on any other value a reader gives the empty value of its kind. -/

namespace RequestGen

namespace Json

/-- The field of an object. -/
def field (v : Json) (key : String) : Json :=
  match v with
  | obj fields => (Fields.get? fields key).getD null
  | _ => null

def toText : Json → String
  | str s => s
  | _ => ""

def toText? : Json → Option String
  | str s => some s
  | _ => none

def toFlag : Json → Bool
  | bool b => b
  | _ => false

def toFlag? : Json → Option Bool
  | bool b => some b
  | _ => none

def toItems : Json → List Json
  | arr items => items
  | _ => []

def toFields? : Json → Option Fields
  | obj fields => some fields
  | _ => none

/-- A value that is not null, read by `read`. -/
def toOption {α : Type} (read : Json → α) : Json → Option α
  | null => none
  | v => some (read v)

def textAt (v : Json) (key : String) : String := (v.field key).toText

def text?At (v : Json) (key : String) : Option String := (v.field key).toText?

def flagAt (v : Json) (key : String) : Bool := (v.field key).toFlag

def flag?At (v : Json) (key : String) : Option Bool := (v.field key).toFlag?

/-- The items of a list, each read by `read`. -/
def listAt {α : Type} (read : Json → α) (v : Json) (key : String) : List α :=
  (v.field key).toItems.map read

/-- A field that may be null, read by `read`. -/
def optionAt {α : Type} (read : Json → α) (v : Json) (key : String) : Option α :=
  (v.field key).toOption read

/-- Null, or the written value. -/
def ofOption {α : Type} (write : α → Json) : Option α → Json
  | none => null
  | some a => write a

def ofList {α : Type} (write : α → Json) (items : List α) : Json :=
  arr (items.map write)

def ofFlag? : Option Bool → Json := ofOption bool

end Json

end RequestGen
