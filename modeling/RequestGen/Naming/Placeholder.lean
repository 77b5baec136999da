import RequestGen.Naming.Identifier
import RequestGen.Text.Blank

/-! # Names inside routes and type literals

`placeholders` finds the names that a route holds between an opening mark and a closing brace.
`memberKeys` finds the keys of a type literal that is written with one member to a line. -/

namespace RequestGen.Naming

theorem length_lt_of_dropWhile_drop {p : Char → Bool} {s rest : List Char} {c : Char} {n : Nat}
    (h : (s.drop n).dropWhile p = c :: rest) : rest.length < s.length := by
  have h₁ : ((s.drop n).dropWhile p).length ≤ (s.drop n).length :=
    (List.dropWhile_sublist _).length_le
  rw [h, List.length_drop, List.length_cons] at h₁
  omega

/-- The texts between `opening` and the next closing brace, from left to right. An empty one is no
placeholder, and an opening without a closing brace ends the search. -/
def placeholders (opening : List Char) : List Char → List (List Char)
  | [] => []
  | c :: s =>
    if opening.isPrefixOf (c :: s) then
      let inside := s.drop (opening.length - 1)
      let name := inside.takeWhile (· ≠ '\x7d')
      match h : inside.dropWhile (· ≠ '\x7d') with
      | [] => []
      | _ :: rest =>
        have : rest.length < s.length := length_lt_of_dropWhile_drop h
        if name.isEmpty then placeholders opening s else name :: placeholders opening rest
    else placeholders opening s
termination_by s => s.length

/-- Whether a key ends here: a colon, possibly after a question mark. -/
def endsKey : List Char → Bool
  | ':' :: _ => true
  | '?' :: ':' :: _ => true
  | _ => false

/-- The keys of a type literal. `fresh` says that only blanks lie between here and the last line
feed. -/
def memberKeys (fresh : Bool) : List Char → List (List Char)
  | [] => []
  | c :: s =>
    if fresh && isNameStart c then
      if endsKey (s.dropWhile isNamePart) then
        (c :: s.takeWhile isNamePart) :: memberKeys false s
      else memberKeys false s
    else memberKeys (c == '\n' || (fresh && Text.isBlank c)) s

end RequestGen.Naming
