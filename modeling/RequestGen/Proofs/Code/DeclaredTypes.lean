import RequestGen.Text.Pieces
import RequestGen.Text.Word

/-! # The types that a code declares

A code declares a type where a line starts with `type` and a name, or with `export` before it.
`declaredTypes` are the names in the order of the lines; those of whole lines come before those of
what follows them (`declaredTypes_append`). -/

namespace RequestGen

/-- The name of the type that a line declares. -/
def declaredType? (line : List Char) : Option String :=
  let line := ("export ".toList.isPrefixOf? line).getD line
  ("type ".toList.isPrefixOf? line).map fun rest =>
    String.ofList (rest.takeWhile Text.isNameChar)

/-- The names of the types that the lines of a code declare, in order. -/
def declaredTypes (code : String) : List String :=
  (Text.splitOn '\n' code.toList).filterMap declaredType?

/-- Whether a code is whole lines. -/
def IsLines (code : String) : Prop := code = "" ∨ ∃ lines, code = lines ++ "\n"

/-- After whole lines, a code declares what it declares alone. -/
theorem declaredTypes_append {code : String} (h : IsLines code)
    (rest : String) : declaredTypes (code ++ rest) = declaredTypes code ++ declaredTypes rest := by
  rcases h with rfl | ⟨lines, rfl⟩
  · rw [String.empty_append]
    rfl
  · have hchars (rest : String) :
        (lines ++ "\n" ++ rest).toList = lines.toList ++ '\n' :: rest.toList := by
      simp [String.toList_append]
    have hlines : declaredTypes (lines ++ "\n") = declaredTypes lines := by
      have hlast := hchars ""
      rw [String.append_empty] at hlast
      rw [declaredTypes, hlast, Text.splitOn_append_cons, List.filterMap_append]
      exact List.append_nil _
    rw [hlines, declaredTypes, hchars, Text.splitOn_append_cons, List.filterMap_append]
    rfl

theorem declaredTypes_line {name definition : String}
    (hname : ∀ c ∈ name.toList, Text.isNameChar c = true) (hdef : '\n' ∉ definition.toList) :
    declaredTypes ("type " ++ name ++ " = " ++ definition ++ "\n") = [name] := by
  have hline : '\n' ∉ "type ".toList ++ (name.toList ++ (" = ".toList ++ definition.toList)) := by
    have hnoname : '\n' ∉ name.toList := fun h => absurd (hname _ h) (by decide)
    simp [hnoname, hdef]
  have hchars : ("type " ++ name ++ " = " ++ definition ++ "\n").toList =
      "type ".toList ++ (name.toList ++ (" = ".toList ++ definition.toList)) ++ '\n' :: [] := by
    simp [String.toList_append]
  have htake : (name.toList ++ (" = ".toList ++ definition.toList)).takeWhile Text.isNameChar =
      name.toList := by
    rw [List.takeWhile_append_of_pos hname]
    exact List.append_nil _
  rw [declaredTypes, hchars, Text.splitOn_append_cons, Text.splitOn_eq_singleton hline]
  show ((some (String.ofList ((name.toList ++ (" = ".toList ++ definition.toList)).takeWhile
    Text.isNameChar))).toList ++ [] : List String) = [name]
  rw [htake, String.ofList_toList]
  rfl

end RequestGen
