import LoadGenerator.Number.Binary64
import LoadGenerator.Text.Numeral

/-!
# Decimal forms of floating-point numbers

`shortest` gives the decimal number with the fewest digits among those that are nearer to a
floating-point number than to any other one, and of several with that many digits the nearest.
It looks at one decimal grid after the other, from one digit on; if a grid has a point in the
interval of the numbers that round to `x`, then one of the two neighbours of `x` on that grid is in
it, so two candidates per grid are enough. `Layout` says how such a number is spelled out, and
`fixed` rounds to a given number of decimal places.
-/

namespace LoadGenerator

/-- The number `significand * 10 ^ exponent`. -/
structure Decimal where
  significand : Nat
  exponent : Int
  deriving DecidableEq, Repr

namespace Decimal

/-- The same number without zeros at the end of the significand. -/
def trimZeros (fuel : Nat) (d : Decimal) : Decimal :=
  match fuel with
  | 0 => d
  | fuel + 1 =>
    if d.significand ≠ 0 ∧ d.significand % 10 = 0 then
      trimZeros fuel ⟨d.significand / 10, d.exponent + 1⟩
    else d

/-! ### The shortest form -/

/-- The numerator that a power of ten contributes to a quotient. -/
def upper (k : Int) : Nat := Nat.pow 10 k.toNat

/-- The denominator that a power of ten contributes to a quotient. -/
def lower (k : Int) : Nat := Nat.pow 10 (-k).toNat

/-- The distances from a number to the ends of the interval that rounds to it, in halves of a unit:
below a power of two the neighbours are twice as dense. -/
def reach (x : Binary64) : Nat × Nat :=
  let unit := Nat.pow 2 x.scale
  (if x.significand = Nat.pow 2 52 ∧ 0 < x.scale then Nat.pow 2 (x.scale - 1) else unit, unit)

/-- Whether a decimal number rounds to `x`; the ends of the interval belong to an even
significand. -/
def roundsTo (x : Binary64) (d : Decimal) : Bool :=
  let value := d.significand * upper d.exponent * (2 * Binary64.one)
  let low := (2 * x.units - (reach x).1) * lower d.exponent
  let high := (2 * x.units + (reach x).2) * lower d.exponent
  if x.significand % 2 = 0 then low ≤ value && value ≤ high else low < value && value < high

/-- The number of tenfold steps that take `units` up to one, at least `steps`. -/
def stepsToOne (fuel steps units : Nat) : Nat :=
  match fuel with
  | 0 => steps
  | fuel + 1 =>
    if Binary64.one ≤ units * Nat.pow 10 steps then steps else stepsToOne fuel (steps + 1) units

/-- The exponent of the leading decimal digit of a number that is not zero. -/
def leadingExponent (x : Binary64) : Int :=
  if Binary64.one ≤ x.units then (Numeral.write (x.units / Binary64.one)).length - 1
  else -(stepsToOne 324 1 x.units : Int)

/-- The neighbour of `x` on the grid of the multiples of `10 ^ k` that rounds to `x`; of two the
nearer, and of two equally near the even one. -/
def onGrid? (x : Binary64) (k : Int) : Option Decimal :=
  let scaled := x.units * lower k
  let step := Binary64.one * upper k
  let below : Decimal := ⟨scaled / step, k⟩
  let above : Decimal := ⟨scaled / step + 1, k⟩
  match roundsTo x below, roundsTo x above with
  | true, true => some ⟨roundDiv scaled step, k⟩
  | true, false => some below
  | false, true => some above
  | false, false => none

/-- Looks for the first grid with a hit, from `digits` digits on. -/
def search (x : Binary64) (lead : Int) : Nat → Nat → Decimal
  | 0, digits => ⟨x.units * lower (lead - digits + 1) / (Binary64.one * upper (lead - digits + 1)),
      lead - digits + 1⟩
  | fuel + 1, digits =>
    match onGrid? x (lead - digits + 1) with
    | some d => d
    | none => search x lead fuel (digits + 1)

/-- The decimal number of the fewest digits that rounds to `x`, the sign left aside; 17 digits are
always enough. -/
def shortest (x : Binary64) : Decimal :=
  if x.isZero then ⟨0, 0⟩ else (search x (leadingExponent x) 17 1).trimZeros 17

/-! ### Spelling -/

/-- How a decimal number is spelled out: the exponents of the leading digit for which it is written
positionally, and the mark before a positive exponent otherwise. -/
structure Layout where
  leastPositional : Int
  greatestPositional : Int
  plus : List Char

/-- Spells out a decimal number. Written positionally it has at least one decimal place. -/
def spell (layout : Layout) (d : Decimal) : List Char :=
  let digits := Numeral.write d.significand
  let lead := d.exponent + digits.length - 1
  if layout.leastPositional ≤ lead ∧ lead ≤ layout.greatestPositional then
    if 0 ≤ d.exponent then digits ++ List.replicate d.exponent.toNat '0' ++ ['.', '0']
    else if 0 ≤ lead then
      digits.take (lead.toNat + 1) ++ '.' :: digits.drop (lead.toNat + 1)
    else '0' :: '.' :: List.replicate (-lead - 1).toNat '0' ++ digits
  else
    let fraction := if digits.length = 1 then [] else '.' :: digits.drop 1
    let mark := if lead < 0 then ['-'] else layout.plus
    digits.take 1 ++ fraction ++ 'e' :: mark ++ Numeral.write lead.natAbs

def sign (x : Binary64) : List Char :=
  if x.negative then ['-'] else []

def write (layout : Layout) (x : Binary64) : List Char :=
  sign x ++ spell layout (shortest x)

/-- The number rounded to some decimal places, a tie to the even neighbour. -/
def fixed (places : Nat) (x : Binary64) : List Char :=
  let grid := Nat.pow 10 places
  let scaled := roundDiv (x.units * grid) Binary64.one
  sign x ++ Numeral.write (scaled / grid) ++
    if places = 0 then [] else '.' :: Numeral.padded places (scaled % grid)

end Decimal

end LoadGenerator
