/-! # The length of numbers

A number that is read from decimal digits may have at most `maxDigits` of them. -/

namespace RequestGen

/-- The most decimal digits that a number may have. -/
def maxDigits : Nat := 4300

end RequestGen
