import RequestGen.Record.Issue

/-! # Shapes of document values

A `Shape` says which values a place accepts. Checking a value against a shape either gives its
normal form, in which every field is present and every flag is a truth value, or all issues: of a
record first those of its fields, in the record's order, then its unknown fields, in the value's. -/

namespace RequestGen

/-- A field of a record. -/
structure Field (σ : Type) where
  key : String
  shape : σ
  /-- The value of an absent field, in normal form; without one the field is required. -/
  fallback : Option Json := none
  /-- A second name that is read where the first is absent. -/
  otherKey : Option String := none

/-- What a place accepts. -/
inductive Shape where
  | text
  | flag
  /-- Any value. -/
  | any
  /-- An object of any fields. -/
  | mapping
  /-- An object of any fields, or else a flag. -/
  | flagOrMapping
  /-- One of the names. -/
  | oneOf (names : List String)
  /-- One of the names, in any case of its letters. -/
  | oneOfAnyCase (names : List String)
  /-- Null or a value of the shape. -/
  | optional (shape : Shape)
  | list (shape : Shape)
  | record (name : String) (fields : List (Field Shape))

/-- A value, or all that is wrong. -/
abbrev Checked (α : Type) := Except (List Issue) α

namespace Checked

/-- Both values, or the issues of both. -/
def both {α β γ : Type} (f : α → β → γ) : Checked α → Checked β → Checked γ
  | .ok a, .ok b => .ok (f a b)
  | .ok _, .error issues => .error issues
  | .error issues, .ok _ => .error issues
  | .error issues, .error more => .error (issues ++ more)

/-- The value, with its issues seen from one level further out. -/
def within {α : Type} (key : String) : Checked α → Checked α
  | .ok a => .ok a
  | .error issues => .error (issues.map (Issue.within key))

end Checked

namespace Shape

def complain (complaint : Complaint) : Checked Json := .error [⟨[], complaint⟩]

/-- The spellings of the two values of a flag. -/
def falseTexts : List String := ["0", "off", "f", "false", "n", "no"]

def trueTexts : List String := ["1", "on", "t", "true", "y", "yes"]

/-- The first integer that does not fit into 64 bits with a sign. -/
def wordBound : Int := 9223372036854775808

/-- The flag that a whole number stands for. Numbers beyond 64 bits are no candidates. -/
def flagOfInt (i : Int) : Except Complaint Bool :=
  if i = 0 then .ok false
  else if i = 1 then .ok true
  else if -wordBound ≤ i ∧ i < wordBound then .error .unclearFlag
  else .error .notFlag

/-- The flag that a value stands for. -/
def flagOf : Json → Except Complaint Bool
  | .bool b => .ok b
  | .int i => flagOfInt i
  | .float x =>
    if x.isIntegral && x.truncate != -wordBound then flagOfInt x.truncate else .error .notFlag
  | .str s =>
    if s.toLower ∈ falseTexts then .ok false
    else if s.toLower ∈ trueTexts then .ok true
    else .error .unclearFlag
  | _ => .error .notFlag

def checkFlag (v : Json) : Checked Json :=
  match flagOf v with
  | .ok b => .ok (.bool b)
  | .error complaint => complain complaint

def checkFlagOrMapping : Json → Checked Json
  | .obj fields => .ok (.obj fields)
  | v =>
    match flagOf v with
    | .ok b => .ok (.bool b)
    | .error complaint => .error [⟨["bool"], complaint⟩, ⟨["dict[str,any]"], .notMapping⟩]

def checkName (names : List String) (normal : String → String) : Json → Checked Json
  | .str s => if normal s ∈ names then .ok (.str (normal s)) else complain (.notOneOf names)
  | _ => complain (.notOneOf names)

/-- The items, numbered from `i`. -/
def checkItems (check : Json → Checked Json) (i : Nat) : List Json → Checked (List Json)
  | [] => .ok []
  | item :: items =>
    Checked.both List.cons ((check item).within (toString i)) (checkItems check (i + 1) items)

/-- The value given for a field. -/
def given (input : Json.Fields) (key : String) (otherKey : Option String) : Option Json :=
  match input.get? key with
  | some v => some v
  | none => otherKey.bind input.get?

/-- The name under which a field is given. -/
def usedKey (input : Json.Fields) (key : String) (otherKey : Option String) : String :=
  if input.has key then key else otherKey.getD key

/-- One issue for each field that no name of the record reads. -/
def unknownFields (used : List String) (input : Json.Fields) : Checked Unit :=
  match input.filter fun (key, _) => key ∉ used with
  | [] => .ok ()
  | unknown => .error (unknown.map fun (key, _) => ⟨[key], .unknownField⟩)

mutual

/-- The normal form of a value of the shape. -/
def check : Shape → Json → Checked Json
  | text => fun
    | .str s => .ok (.str s)
    | _ => complain .notText
  | flag => checkFlag
  | any => .ok
  | mapping => fun
    | .obj fields => .ok (.obj fields)
    | _ => complain .notMapping
  | flagOrMapping => checkFlagOrMapping
  | oneOf names => checkName names id
  | oneOfAnyCase names => checkName names String.toLower
  | optional shape => fun
    | .null => .ok .null
    | v => check shape v
  | list shape => fun
    | .arr items => (checkItems (check shape) 0 items).map Json.arr
    | _ => complain .notList
  | record name fields => fun
    | .obj input =>
      Checked.both (fun normal _ => Json.obj normal) (checkFields fields input)
        (unknownFields (fields.map fun f => usedKey input f.key f.otherKey) input)
    | _ => complain (.notRecord name)

/-- The fields of a record, in its order. -/
def checkFields : List (Field Shape) → Json.Fields → Checked Json.Fields
  | [], _ => .ok []
  | field :: fields, input =>
    Checked.both List.cons (checkField field input) (checkFields fields input)

/-- One field with its normal form. -/
def checkField : Field Shape → Json.Fields → Checked (String × Json)
  | ⟨key, shape, fallback, otherKey⟩, input =>
    match given input key otherKey with
    | some v => ((check shape v).within key).map fun normal => (key, normal)
    | none =>
      match fallback with
      | some v => .ok (key, v)
      | none => .error [⟨[key], .missing⟩]

end

/-- The name of a record. -/
def recordName : Shape → String
  | record name _ => name
  | _ => ""

/-- The fields of a record. -/
def recordFields : Shape → List (Field Shape)
  | record _ fields => fields
  | _ => []

/-- The normal form of a record of which nothing is given. Required fields are null in it. -/
def defaults (shape : Shape) : Json :=
  .obj (shape.recordFields.map fun field => (field.key, field.fallback.getD .null))

end Shape

namespace Field

variable (key : String)

/-- A field that has to be given. -/
def mandatory (shape : Shape) : Field Shape := { key, shape }

def text (fallback : String) : Field Shape :=
  { key, shape := .text, fallback := some (.str fallback) }

def flag (fallback : Bool) : Field Shape :=
  { key, shape := .flag, fallback := some (.bool fallback) }

/-- A field that is null if it is absent. -/
def optional (shape : Shape) : Field Shape :=
  { key, shape := .optional shape, fallback := some .null }

/-- A field that is the empty list if it is absent. -/
def list (shape : Shape) : Field Shape :=
  { key, shape := .list shape, fallback := some (.arr []) }

/-- A record that has all its defaults if it is absent. -/
def defaulted (shape : Shape) : Field Shape :=
  { key, shape, fallback := some shape.defaults }

end Field

end RequestGen
