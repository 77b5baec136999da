/-! # Words of a name and its casings

A name falls into words at case boundaries, digits and separators. A word is a run of small letters
and digits, led by a capital if there is one, or a run of capitals without the capital that leads
the next word. `pascal` joins the words with capitals in front; `camel` also has its first letter
small. Letters and digits here are those of ASCII; all else separates. -/

namespace RequestGen.Naming

/-- A small letter or a digit. -/
def isSmall (c : Char) : Bool := c.isLower || c.isDigit

theorem length_dropWhile_le {α : Type} (p : α → Bool) (s : List α) :
    (s.dropWhile p).length ≤ s.length :=
  (List.dropWhile_sublist p).length_le

/-- Whether the text goes on with a small letter. -/
def startsLower : List Char → Bool
  | [] => false
  | c :: _ => c.isLower

/-- Whether the text goes on with a small letter or a digit. -/
def startsSmall : List Char → Bool
  | [] => false
  | c :: _ => isSmall c

/-- The word of a capital `c` that neither a small letter nor a digit follows: the run of
capitals, up to the capital that leads a following small letter. -/
def capitals (c : Char) : List Char → List Char
  | [] => [c]
  | d :: s =>
    if d.isUpper then
      if startsLower s then [c] else c :: capitals d s
    else [c]

/-- The words of a text, in order. -/
def words : List Char → List (List Char)
  | [] => []
  | c :: s =>
    if isSmall c || (c.isUpper && startsSmall s) then
      (c :: s.takeWhile isSmall) :: words (s.dropWhile isSmall)
    else if c.isUpper then
      capitals c s :: words (s.drop ((capitals c s).length - 1))
    else words s
termination_by s => s.length
decreasing_by
  · have := length_dropWhile_le isSmall s
    simp only [List.length_cons]; omega
  · simp only [List.length_cons, List.length_drop]; omega
  · simp

/-- The word with its first letter as a capital. -/
def capitalize : List Char → List Char
  | [] => []
  | c :: s => c.toUpper :: s

/-- The text with its first letter small. -/
def uncapitalize : List Char → List Char
  | [] => []
  | c :: s => c.toLower :: s

/-- The words joined, each with a capital in front. -/
def pascalChars (s : List Char) : List Char :=
  (words s).flatMap capitalize

/-- `PascalCase` of a name. -/
def pascal (name : String) : String :=
  String.ofList (pascalChars name.toList)

/-- `camelCase` of a name. -/
def camel (name : String) : String :=
  String.ofList (uncapitalize (pascalChars name.toList))

/-- The words of a name. -/
def wordsOf (name : String) : List String :=
  (words name.toList).map String.ofList

end RequestGen.Naming
