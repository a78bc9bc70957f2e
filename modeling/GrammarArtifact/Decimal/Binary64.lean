/-! Double precision numbers as exact values: a sign, a whole mantissa and a power of two.
`Binary64.ofDecimal` rounds a decimal number to the nearest of them, ties to the even mantissa. -/

namespace GrammarArtifact

/-- A double precision number. A finite one denotes `mantissa * 2 ^ exponent`. -/
inductive Binary64 where
  | finite (negative : Bool) (mantissa : Nat) (exponent : Int)
  | infinite (negative : Bool)
  | nan
  deriving DecidableEq

namespace Binary64

def minExponent : Int := -1074

def maxExponent : Int := 971

/-- Finite mantissas are below this power of two. -/
def mantissaLimit : Nat := Nat.pow 2 53

/-- The quotient rounded to the nearest whole number, a tie to the even one. -/
def roundDiv (num den : Nat) : Nat :=
  let q := num / den
  let twice := 2 * (num % den)
  if twice < den ∨ twice = den ∧ q % 2 = 0 then q else q + 1

def scale (num den : Nat) (exponent : Int) : Nat × Nat :=
  if exponent < 0 then (num, den * Nat.pow 2 exponent.natAbs)
  else (num * Nat.pow 2 exponent.natAbs, den)

def ofFraction (negative : Bool) (num den : Nat) : Binary64 :=
  let guess : Int := (num.log2 : Int) - den.log2 - 52
  let (n, d) := scale num den (-guess)
  let exponent := max minExponent (if n / d < mantissaLimit / 2 then guess - 1 else guess)
  let (n, d) := scale num den (-exponent)
  let mantissa := roundDiv n d
  let (mantissa, exponent) :=
    if mantissa = mantissaLimit then (mantissaLimit / 2, exponent + 1) else (mantissa, exponent)
  if maxExponent < exponent then .infinite negative else .finite negative mantissa exponent

def decimalLength (n : Nat) : Nat := (Nat.toDigits 10 n).length

/-- The number nearest to `coefficient * 10 ^ exponent`. Exponents far out of range are settled by
the order of magnitude alone. -/
def ofDecimal (negative : Bool) (coefficient : Nat) (exponent : Int) : Binary64 :=
  if coefficient = 0 then .finite negative 0 minExponent
  else
    let magnitude : Int := decimalLength coefficient + exponent
    if 310 < magnitude then .infinite negative
    else if magnitude < -330 then .finite negative 0 minExponent
    else if exponent < 0 then ofFraction negative coefficient (Nat.pow 10 exponent.natAbs)
    else ofFraction negative (coefficient * Nat.pow 10 exponent.natAbs) 1

end Binary64

end GrammarArtifact
