import RequestGen.Naming.Words
import RequestGen.Operation.Basic
import RequestGen.Text.Digit
import RequestGen.Text.Pieces

/-! # Response types by status

A fetch function may resolve to one type per documented status: a code, a range such as `4XX`, or
`default` for every status that no code names. `StatusMember` is one such type; `declarations`
writes all of them, their union, and the full response type with its headers. -/

namespace RequestGen

/-- The statuses that a response type is for. -/
inductive Status where
  | code (digits : String)
  /-- Every status but the codes. -/
  | otherThan (codes : List String)
  /-- The statuses that start with this digit. -/
  | range (first : String)
deriving DecidableEq

namespace Status

/-- The type of the statuses. -/
def render : Status → String
  | code digits => digits
  | otherThan [] => "HTTPStatusCodes"
  | otherThan codes => "Exclude<HTTPStatusCodes, " ++ String.intercalate " | " codes ++ ">"
  | range first => s!"HTTPStatusCode{first}xx"

/-- The statuses that a key stands for, where `codes` are the keys that are codes. -/
def ofKey (codes : List String) (key : String) : Status :=
  if Text.isDigits key then code key
  else if key = "default" then otherThan codes
  else range (String.ofList (key.toList.take 1))

end Status

/-- The type of the responses of some statuses. -/
structure StatusMember where
  name : String
  data : String
  status : Status

/-- The member as a type declaration. -/
def StatusMember.render (m : StatusMember) : String :=
  s!"export type {m.name} = \x7b\n  data: {m.data};\n  status: {m.status.render};\n\x7d;"

/-- The entries with one for each key: in the place of the key's first entry, the last one. -/
def lastOfEachKey : List StatusType → List StatusType
  | [] => []
  | entry :: entries =>
    let last := (entries.reverse.find? (·.key = entry.key)).getD entry
    last :: (lastOfEachKey entries).filter (·.key ≠ entry.key)

namespace Operation

/-- The name of the full response type. -/
def responseName (op : Operation) : String := s!"{op.operationName}Response"

/-- The documented statuses, each once. -/
def statusEntries (op : Operation) : List StatusType :=
  lastOfEachKey (op.response.successTypes ++ op.response.errorTypes)

/-- The types of the documented statuses, in order. -/
def statusMembers (op : Operation) : List StatusMember :=
  let entries := op.statusEntries
  let codes := (entries.map (·.key)).filter Text.isDigits
  entries.map fun entry => {
    name := s!"{op.responseName}{Naming.pascal entry.key}"
    data := orUnknown entry.value
    status := Status.ofKey codes entry.key }

/-- The declarations of the response type, by status where any status is documented. -/
def responseDeclarations (op : Operation) : List String :=
  let name := op.responseName
  match op.statusMembers with
  | [] =>
    [s!"export type {name} = \x7b\n  data: {op.response.successType};\n" ++
      "  status: number;\n  headers: Headers;\n\x7d;"]
  | members =>
    let union := String.intercalate " | " (members.map (·.name))
    members.map StatusMember.render ++
      [s!"export type {name}Composite = {union};",
        s!"export type {name} = {name}Composite & \x7b\n  headers: Headers;\n\x7d;"]

end Operation

end RequestGen
