import RequestGen.Text.Pieces

/-! # Reference texts

A reference text names a document, then after the first `#` a pointer into it: object keys with a
slash before each, in which `~1` stands for a slash and `~0` for a tilde. Empty keys are skipped. -/

namespace RequestGen

/-- A reference: the document, if it names one, and the keys that lead to the place. -/
structure Reference where
  document : Option String
  tokens : List String
deriving DecidableEq

namespace Reference

/-- A key with its escapes undone. -/
def unescape (token : List Char) : List Char :=
  Text.replace ['~', '0'] ['~'] (Text.replace ['~', '1'] ['/'] token)

/-- A key with tildes and slashes escaped. -/
def escape (token : List Char) : List Char :=
  Text.replace ['/'] ['~', '1'] (Text.replace ['~'] ['~', '0'] token)

/-- The keys of a pointer. -/
def pointerTokens (pointer : List Char) : List (List Char) :=
  ((Text.splitOn '/' pointer).filter (!·.isEmpty)).map unescape

/-- The reference that a text spells. -/
def ofText (text : String) : Reference :=
  let document := text.toList.takeWhile (· ≠ '#')
  let pointer := (text.toList.dropWhile (· ≠ '#')).drop 1
  { document := if document.isEmpty then none else some (String.ofList document)
    tokens := (pointerTokens pointer).map String.ofList }

/-- The keys as one text, which tells places of a document apart. -/
def place (r : Reference) : String :=
  String.intercalate "/" r.tokens

/-- The file name of a document without its directories and its last extension. -/
def stem (document : String) : String :=
  let name := (document.toList.reverse.takeWhile (· ≠ '/'))
  match name.dropWhile (· ≠ '.') with
  | [] => String.ofList name.reverse
  | _ :: rest => String.ofList rest.reverse

end Reference

end RequestGen
