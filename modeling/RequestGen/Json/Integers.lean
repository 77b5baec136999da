import RequestGen.Json.Basic
import RequestGen.Number.Limit

/-! # Integers inside a document value

`Json.longInteger?` finds an integer with too many digits. Of several such integers it is the least
deeply nested, and of those the first. -/

namespace RequestGen

namespace Json

mutual

/-- The integers at a depth below the value, in order. -/
def integersAt : Nat → Json → List Int
  | 0, int i => [i]
  | depth + 1, arr items => integersOfItems depth items
  | depth + 1, obj fields => integersOfFields depth fields
  | _, _ => []

/-- The integers at a depth below the items. -/
def integersOfItems : Nat → List Json → List Int
  | _, [] => []
  | depth, item :: items => integersAt depth item ++ integersOfItems depth items

/-- The integers at a depth below the values of the fields. -/
def integersOfFields : Nat → List (String × Json) → List Int
  | _, [] => []
  | depth, (_, value) :: fields => integersAt depth value ++ integersOfFields depth fields

end

mutual

/-- How deeply a value is nested. -/
def depth : Json → Nat
  | arr items => depthOfItems items + 1
  | obj fields => depthOfFields fields + 1
  | _ => 0

/-- The greatest depth of the items. -/
def depthOfItems : List Json → Nat
  | [] => 0
  | item :: items => max (depth item) (depthOfItems items)

/-- The greatest depth of the fields' values. -/
def depthOfFields : List (String × Json) → Nat
  | [] => 0
  | (_, value) :: fields => max (depth value) (depthOfFields fields)

end

/-- All integers of a value, the least deeply nested first. -/
def integers (v : Json) : List Int :=
  (List.range (v.depth + 1)).flatMap fun n => v.integersAt n

/-- How many digits an integer of the value has that has too many. -/
def longInteger? (v : Json) : Option Nat :=
  (v.integers.find? fun i => Nat.pow 10 maxDigits ≤ i.natAbs).map fun i =>
    (Nat.toDigits 10 i.natAbs).length

end Json

end RequestGen
