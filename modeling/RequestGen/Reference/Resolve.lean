import RequestGen.Fault
import RequestGen.Naming.Words
import RequestGen.Output.Basic
import RequestGen.Reference.Pointer

/-! # Following references

An object with a `$ref` stands for the object that the reference leads to. A reference that names a
document selects it for itself and for all references after it; the document is known by its key,
or else by its file name without extension. `resolve` follows references until an object has none,
and never visits one place twice. -/

namespace RequestGen

namespace Reference

/-- The text of `$ref`, if the value is an object with that field. -/
def refOf? : Json → Option Json
  | .obj fields => Json.Fields.get? fields "$ref"
  | _ => none

/-- The key under which a named document is loaded. -/
def specKeyFor (specs : Json.Fields) (document : String) : Except ReferenceError String :=
  if Json.Fields.has specs document then .ok document
  else if Json.Fields.has specs (stem document) then .ok (stem document)
  else .error (.unknownDocument document)

/-- The key of the document that a reference is looked up in, when `current` was selected last. -/
def select (specs : Json.Fields) (current : String) (r : Reference) :
    Except ReferenceError String :=
  match r.document with
  | none => .ok current
  | some document => specKeyFor specs document

/-- The value at the end of a path of keys. -/
def walk : Json → List String → Option Json
  | target, [] => some target
  | .obj fields, token :: tokens => (Json.Fields.get? fields token).bind (walk · tokens)
  | _, _ :: _ => none

/-- The value that a reference leads to in the document of that key. -/
def target (specs : Json.Fields) (specKey ref : String) (r : Reference) :
    Except ReferenceError Json :=
  match (Json.Fields.get? specs specKey).getD .null with
  | .null => .error (.notLoaded specKey ref)
  | document =>
    match walk document r.tokens with
    | none => .error (.dangling ref)
    | some value => .ok value

/-- The import that a followed reference implies: the model named by its last key. -/
def importOf (r : Reference) : List Import :=
  match r.tokens.getLast? with
  | none => []
  | some token => [{ name := Naming.pascal token, schemaName := some token }]

mutual

/-- How many references a value holds, at any depth. -/
def count : Json → Nat
  | .arr items => countItems items
  | .obj fields => countFields fields
  | _ => 0

def countItems : List Json → Nat
  | [] => 0
  | item :: items => count item + countItems items

def countFields : List (String × Json) → Nat
  | [] => 0
  | (key, value) :: fields =>
    (if key = "$ref" then 1 else 0) + count value + countFields fields

end

end Reference

/-- A resolved object and the imports that the followed references imply. -/
structure Resolved where
  schema : Json.Fields
  imports : List Import

namespace Reference

/-- Follows references from `value`, with the document `specKey` selected and the places `seen`
behind. A chain of more steps than there are places has visited one twice. -/
def follow (specs : Json.Fields) :
    Nat → List (String × String) → String → Json → Except Fault Resolved
  | fuel, seen, specKey, value =>
    match refOf? value with
    | none =>
      match value with
      | .obj fields => .ok ⟨fields, []⟩
      | _ => .error (.reference (.notObject value))
    | some (.str ref) =>
      let r := ofText ref
      match select specs specKey r with
      | .error e => .error (.reference e)
      | .ok specKey =>
        if seen.contains (specKey, r.place) then .error (.reference (.cyclic ref))
        else
          match target specs specKey ref r with
          | .error e => .error (.reference e)
          | .ok next =>
            match fuel with
            | 0 => .error (.reference (.cyclic ref))
            | fuel + 1 =>
              match follow specs fuel ((specKey, r.place) :: seen) specKey next with
              | .error e => .error e
              | .ok resolved => .ok { resolved with imports := importOf r ++ resolved.imports }
    | some _ => .error .noMembers

/-- A bound on the steps of a chain: each place that a reference of `value` or of a document may
name, in each document. -/
def bound (specs : Json.Fields) (value : Json) : Nat :=
  (specs.length + 1) * (count value + countFields specs)

end Reference

/-- The object that a value stands for, starting in the current document. -/
def resolve (ctx : Context) (value : Json) : Except Fault Resolved :=
  Reference.follow ctx.specs (Reference.bound ctx.specs value) [] ctx.specKey value

/-- An object without a reference stands for itself. -/
theorem resolve_of_get?_eq_none (ctx : Context) {fields : Json.Fields}
    (h : Json.Fields.get? fields "$ref" = none) : resolve ctx (.obj fields) = .ok ⟨fields, []⟩ := by
  unfold resolve Reference.follow
  rw [show Reference.refOf? (.obj fields) = none from h]

end RequestGen
