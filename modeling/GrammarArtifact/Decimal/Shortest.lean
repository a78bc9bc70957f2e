import GrammarArtifact.Decimal.Binary64

/-! The shortest decimal text of a double precision number: the fewest digits that read back as the
same number, and of those the nearest. The text is positional and always has a fraction. -/

namespace GrammarArtifact

namespace Binary64

/-- A positive number with the interval of reals that round to it, all over one denominator. -/
structure Rounding where
  value : Nat
  low : Nat
  high : Nat
  denominator : Nat
  /-- Whether the ends of the interval round to the number too. -/
  closed : Bool

/-- The interval of the reals that round to `mantissa * 2 ^ exponent`. Below a power of two the
numbers lie twice as close. -/
def Rounding.of (mantissa : Nat) (exponent : Int) : Rounding :=
  let below := if mantissa = mantissaLimit / 2 ∧ minExponent < exponent then 1 else 2
  let unit : Nat × Nat := scale 1 1 (exponent - 2)
  { value := 4 * mantissa * unit.1
    low := (4 * mantissa - below) * unit.1
    high := (4 * mantissa + 2) * unit.1
    denominator := unit.2
    closed := mantissa % 2 == 0 }

namespace Rounding

def leadingExponent (r : Rounding) : Int :=
  if r.denominator ≤ r.value then (decimalLength (r.value / r.denominator) : Int) - 1
  else
    let places := decimalLength (r.denominator / r.value)
    if r.denominator ≤ r.value * Nat.pow 10 (places - 1) then -((places : Int) - 1)
    else -(places : Int)

/-- All of `r` in units of `10 ^ exponent`. -/
def inUnits (r : Rounding) (exponent : Int) : Rounding :=
  if exponent < 0 then
    let factor := Nat.pow 10 exponent.natAbs
    { r with value := r.value * factor, low := r.low * factor, high := r.high * factor }
  else { r with denominator := r.denominator * Nat.pow 10 exponent.natAbs }

def holds (r : Rounding) (n : Nat) : Bool :=
  let scaled := n * r.denominator
  if r.closed then r.low ≤ scaled && scaled ≤ r.high else r.low < scaled && scaled < r.high

/-- The whole number nearest to the value among its two neighbours, if one of them rounds to it. A
tie goes up. -/
def nearest? (r : Rounding) : Option Nat :=
  let down := r.value / r.denominator
  let up := down + 1
  match r.holds down, r.holds up with
  | true, true =>
    if r.value - down * r.denominator < up * r.denominator - r.value then some down else some up
  | true, false => some down
  | false, true => some up
  | false, false => none

/-- The first hit among the grids of `digits`, `digits + 1`, … digits, for at most `fuel` grids. -/
def search (r : Rounding) (lead : Int) : (fuel digits : Nat) → Nat × Int
  | 0, _ => (0, 0)
  | fuel + 1, digits =>
    let exponent := lead - digits + 1
    match (r.inUnits exponent).nearest? with
    | some n => (n, exponent)
    | none => r.search lead fuel (digits + 1)

end Rounding

/-- The shortest decimal `n * 10 ^ e` of a positive number. Seventeen digits always suffice. The
search begins above the leading digit, because the nearest power of ten may be the next one. -/
def shortest (mantissa : Nat) (exponent : Int) : Nat × Int :=
  let r := Rounding.of mantissa exponent
  r.search r.leadingExponent 18 0

/-- The decimal `n * 10 ^ exponent` with a point and at least one digit on either side of it. -/
def positional (n : Nat) (exponent : Int) : String :=
  let digits := Nat.toDigits 10 n
  if exponent < 0 then
    let places := exponent.natAbs
    let padded := List.replicate (places + 1 - digits.length) '0' ++ digits
    let whole := padded.length - places
    String.ofList (padded.take whole ++ '.' :: padded.drop whole)
  else String.ofList (digits ++ List.replicate exponent.natAbs '0' ++ ['.', '0'])

/-- The text of a number in messages. The sign of a zero shows, that of a NaN does not. -/
def display : Binary64 → String
  | nan => "NaN"
  | infinite negative => if negative then "-inf" else "inf"
  | finite negative mantissa exponent =>
    let sign := if negative then "-" else ""
    if mantissa = 0 then sign ++ "0.0"
    else
      let (n, e) := shortest mantissa exponent
      sign ++ positional n e

end Binary64

end GrammarArtifact
