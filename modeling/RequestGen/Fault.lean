import RequestGen.Json.Inspect

/-! # Why generation fails

Each constructor is one cause. `Fault.message` words those that are reported to the user; a document
whose places are of the wrong kind has no message of its own. -/

namespace RequestGen

/-- Why a reference cannot be followed. -/
inductive ReferenceError where
  | unknownDocument (document : String)
  | cyclic (ref : String)
  | notLoaded (specKey ref : String)
  | dangling (ref : String)
  /-- The chain ends in a value that is no object. -/
  | notObject (value : Json)

namespace ReferenceError

def message : ReferenceError → String
  | unknownDocument document => s!"Unknown referenced document '{document}'"
  | cyclic ref => s!"Cyclic reference '{ref}'"
  | notLoaded specKey ref => s!"Spec '{specKey}' is not loaded (resolving '{ref}')"
  | dangling ref => s!"Dangling reference '{ref}'"
  | notObject value => s!"Reference resolved to a non-object value: {value.inspect}"

end ReferenceError

/-- Why an operation cannot be generated. -/
inductive Fault where
  | reference (error : ReferenceError)
  /-- A place that should be an object, or a reference that should be a text, is of another kind. -/
  | noMembers
  /-- A place that should be a list, or a name that should be a text, is of another kind. -/
  | wrongKind
  /-- A function that hands over to a mutator was asked for, but the operation names none. -/
  | noMutator (operation : String)
  | unknownClient (name : String) (known : List String)
  | unknownAxiosStyle (name : String)

namespace Fault

def message : Fault → Option String
  | reference error => some error.message
  | noMembers => none
  | wrongKind => none
  | noMutator operation => some s!"Operation '{operation}' has no mutator configured"
  | unknownClient name known =>
    some (s!"Unknown client '{name}'. Expected one of: " ++ Text.commaList known)
  | unknownAxiosStyle name => some s!"Unknown axios client type '{name}'"

end Fault

end RequestGen
