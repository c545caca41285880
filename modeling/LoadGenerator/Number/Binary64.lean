/-!
# Binary floating point of 64 bits

A `Binary64` is a finite number of the format: a sign and `significand * 2 ^ scale` units of
`2 ^ -1074`, written in the one way the format allows. Every operation is the exact result, a
quotient of natural numbers, rounded once by `ofQuotient` to the nearest number of the format, the
even one of two; a result beyond the largest finite number is `none`.
-/

namespace LoadGenerator

/-- The quotient rounded to the nearest natural number, a tie to the even one. -/
def roundDiv (num den : Nat) : Nat :=
  let q := num / den
  let r := num % den
  if 2 * r > den ∨ (2 * r = den ∧ q % 2 = 1) then q + 1 else q

/-- A finite floating-point number of 64 bits. -/
structure Binary64 where
  negative : Bool := false
  significand : Nat
  scale : Nat
  significand_lt : significand < Nat.pow 2 53 := by decide
  normal : scale = 0 ∨ Nat.pow 2 52 ≤ significand := by decide
  scale_le : scale ≤ 2045 := by decide
  deriving DecidableEq, Repr

namespace Binary64

instance : Inhabited Binary64 := ⟨{ significand := 0, scale := 0 }⟩

def zero : Binary64 := { significand := 0, scale := 0 }

/-- The size in units of `2 ^ -1074`. -/
def units (x : Binary64) : Nat :=
  x.significand * Nat.pow 2 x.scale

/-- The number of units in one. -/
def one : Nat := Nat.pow 2 1074

def isZero (x : Binary64) : Bool :=
  x.significand == 0

def neg (x : Binary64) : Binary64 :=
  { x with negative := !x.negative }

/-- The 64 bits of the number: sign, exponent, fraction. The leading bit of a normal significand
carries into the exponent. -/
def toBits (x : Binary64) : UInt64 :=
  UInt64.ofNat ((if x.negative then Nat.pow 2 63 else 0) + x.scale * Nat.pow 2 52 + x.significand)

/-- The number with a significand and a scale, if the format has it. A significand that rounding has
taken to `2 ^ 53` is halved. -/
def ofParts (significand scale : Nat) : Option Binary64 :=
  if h : significand < Nat.pow 2 53 ∧ (scale = 0 ∨ Nat.pow 2 52 ≤ significand) ∧ scale ≤ 2045 then
    some ⟨false, significand, scale, h.1, h.2.1, h.2.2⟩
  else if h : scale + 1 ≤ 2045 then
    some ⟨false, Nat.pow 2 52, scale + 1, by decide, Or.inr (by decide), h⟩
  else none

/-- The scale at which a number of that many units keeps 53 bits. -/
def scaleOf (units : Nat) : Nat :=
  units.log2 - 52

/-- The number nearest to a quotient of units. -/
def ofUnits (num den : Nat) : Option Binary64 :=
  let scale := scaleOf (num / den)
  ofParts (roundDiv num (den * Nat.pow 2 scale)) scale

/-- The number nearest to a quotient. -/
def ofQuotient (num den : Nat) : Option Binary64 :=
  ofUnits (num * one) den

/-- The number nearest to a natural number. -/
def ofNat? (n : Nat) : Option Binary64 :=
  ofQuotient n 1

/-- The number nearest to a count; counts of 64 bits are all in range. -/
def ofCount (n : UInt64) : Binary64 :=
  (ofNat? n.toNat).getD zero

def add (x y : Binary64) : Option Binary64 :=
  ofUnits (x.units + y.units) 1

def mul (x y : Binary64) : Option Binary64 :=
  ofUnits (x.units * y.units) one

/-- The quotient of two sizes; the divisor is not zero. -/
def div (x y : Binary64) : Option Binary64 :=
  ofUnits (x.units * one) y.units

end Binary64

end LoadGenerator
