import RequestGen.Json.Ascii
import RequestGen.Naming.Identifier

/-! # Document values as code literals

A text is written in single quotes, with a backslash before each quote and each backslash and every
other character as it is. A key is bare where it passes for an identifier and quoted elsewhere. -/

namespace RequestGen.Code

/-- A character inside single quotes. -/
def quotedChar (c : Char) : List Char :=
  if c = '\\' ∨ c = '\'' then ['\\', c] else [c]

/-- A text in single quotes. -/
def quotedText (s : String) : String :=
  String.ofList ('\'' :: s.toList.flatMap quotedChar ++ ['\''])

/-- A key of an object literal. -/
def literalKey (key : String) : String :=
  if Naming.isIdentifier key then key else quotedText key

mutual

/-- A value as a literal. -/
def literal : Json → String
  | .obj fields => "\x7b" ++ Text.commaList (literalFields fields) ++ "\x7d"
  | .arr items => s!"[{Text.commaList (literalItems items)}]"
  | .str s => quotedText s
  | v => v.ascii

/-- The items of a list, each as a literal. -/
def literalItems : List Json → List String
  | [] => []
  | item :: items => literal item :: literalItems items

/-- The fields of an object, each as a property. -/
def literalFields : List (String × Json) → List String
  | [] => []
  | (key, value) :: fields => s!"{literalKey key}: {literal value}" :: literalFields fields

end

end RequestGen.Code
