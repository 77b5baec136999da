/-! # Binary64 numbers

A binary64 number is kept as its 64 bits. A finite one is `scaled / 2 ^ 1074` up to its sign, so
every question about its value is one about natural numbers. `ofRatio` rounds a quotient to the
nearest number, a tie to the even significand, and `ofDecimal` reads decimal digits with it. -/

namespace RequestGen

/-- A binary64 number, by its bits: sign, eleven bits of exponent, 52 bits of fraction. -/
structure Binary64 where
  bits : UInt64
deriving DecidableEq

namespace Binary64

/-- The bits as a natural number. -/
def word (x : Binary64) : Nat := x.bits.toNat

def isNegative (x : Binary64) : Bool := Nat.pow 2 63 ≤ x.word

/-- The biased exponent. -/
def exponent (x : Binary64) : Nat := x.word / Nat.pow 2 52 % Nat.pow 2 11

def fraction (x : Binary64) : Nat := x.word % Nat.pow 2 52

def isNaN (x : Binary64) : Bool := x.exponent = 2047 ∧ x.fraction ≠ 0

def isInfinite (x : Binary64) : Bool := x.exponent = 2047 ∧ x.fraction = 0

def isFinite (x : Binary64) : Bool := x.exponent ≠ 2047

/-- Zero of either sign. -/
def isZero (x : Binary64) : Bool := x.exponent = 0 ∧ x.fraction = 0

/-- The significand with its hidden bit. -/
def significand (x : Binary64) : Nat :=
  if x.exponent = 0 then x.fraction else Nat.pow 2 52 + x.fraction

/-- How far the significand is shifted above the smallest step of the format. -/
def shift (x : Binary64) : Nat := x.exponent - 1

/-- The magnitude of a finite number, in units of `2 ^ (-1074)`. -/
def scaled (x : Binary64) : Nat := x.significand * Nat.pow 2 x.shift

/-- A finite number without a fractional part. -/
def isIntegral (x : Binary64) : Bool := x.isFinite && x.scaled % Nat.pow 2 1074 = 0

/-- The integer nearest to zero below the magnitude of a finite number, with its sign. -/
def truncate (x : Binary64) : Int :=
  let magnitude : Int := (x.scaled / Nat.pow 2 1074 : Nat)
  if x.isNegative then -magnitude else magnitude

/-- The quotient rounded to the nearest integer, a tie to the even one. -/
def roundDiv (num den : Nat) : Nat :=
  let q := num / den
  let r := num % den
  if 2 * r < den then q
  else if den < 2 * r then q + 1
  else q + q % 2

/-- The bits of infinity below the sign. -/
def infinite : Nat := 2047 * Nat.pow 2 52

/-- The number whose bits are `magnitude` below the sign; too large a magnitude is infinite. -/
def ofMagnitude (negative : Bool) (magnitude : Nat) : Binary64 :=
  let magnitude := min magnitude infinite
  ⟨UInt64.ofNat (if negative then Nat.pow 2 63 + magnitude else magnitude)⟩

/-- The number nearest to `num / den`. -/
def ofRatio (negative : Bool) (num den : Nat) : Binary64 :=
  let steps := num * Nat.pow 2 1074
  let shift := (steps / den).log2 - 52
  ofMagnitude negative (shift * Nat.pow 2 52 + roundDiv steps (den * Nat.pow 2 shift))

/-- The number nearest to `digits * 10 ^ exponent`. Exponents far outside the format's range are
decided without computing the power. -/
def ofDecimal (negative : Bool) (digits : Nat) (exponent : Int) : Binary64 :=
  if digits = 0 then ofMagnitude negative 0
  else if 400 < exponent then ofMagnitude negative infinite
  else if exponent < -(400 + (digits.log2 : Int)) then ofMagnitude negative 0
  else if 0 ≤ exponent then ofRatio negative (digits * Nat.pow 10 exponent.toNat) 1
  else ofRatio negative digits (Nat.pow 10 (-exponent).toNat)

end Binary64

end RequestGen
