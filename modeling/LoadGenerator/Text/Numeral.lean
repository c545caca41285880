/-!
# Decimal numerals

`Numeral.read` reads a numeral that must not exceed a limit: one `+` may lead it, ASCII digits
follow, and leading zeros count for nothing. Of several faults the leftmost is the one reported.
`Numeral.write` writes the digits of a number without sign or padding, `Numeral.padded` with zeros
in front up to a width.
-/

namespace LoadGenerator

inductive NumeralFault where
  | empty
  | invalidDigit
  | tooLarge
  deriving DecidableEq, Repr

namespace NumeralFault

def message : NumeralFault → String
  | .empty => "cannot parse integer from empty string"
  | .invalidDigit => "invalid digit found in string"
  | .tooLarge => "number too large to fit in target type"

end NumeralFault

namespace Numeral

def digit? (c : Char) : Option Nat :=
  if '0' ≤ c ∧ c ≤ '9' then some (c.toNat - '0'.toNat) else none

/-- Reads digits on top of the value of those before them. A character that is no digit is a fault
before the size of the number is. -/
def readDigits (limit : Nat) : Nat → List Char → Except NumeralFault Nat
  | value, [] => .ok value
  | value, c :: cs =>
    match digit? c with
    | none => .error .invalidDigit
    | some d =>
      if value * 10 + d ≤ limit then readDigits limit (value * 10 + d) cs else .error .tooLarge

def read (limit : Nat) : List Char → Except NumeralFault Nat
  | [] => .error .empty
  | ['+'] => .error .invalidDigit
  | '+' :: cs => readDigits limit 0 cs
  | cs => readDigits limit 0 cs

def readUInt16 (cs : List Char) : Except NumeralFault UInt16 :=
  (read (UInt16.size - 1) cs).map UInt16.ofNat

def readUInt64 (cs : List Char) : Except NumeralFault UInt64 :=
  (read (UInt64.size - 1) cs).map UInt64.ofNat

def write (n : Nat) : List Char :=
  Nat.toDigits 10 n

/-- The digits of a number, with zeros in front up to `width`. -/
def padded (width n : Nat) : List Char :=
  List.replicate (width - (write n).length) '0' ++ write n

end Numeral

end LoadGenerator
