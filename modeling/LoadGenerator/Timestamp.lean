import LoadGenerator.Calendar
import LoadGenerator.Text.Numeral

/-!
# Moments in time

A `Timestamp` is a moment in UTC, as seconds from 1970 and nanoseconds. A thousand million
nanoseconds or more are inside a leap second, which follows the last second of a minute; the type
has them after any other second too, but `ofParts?` does not make such a moment. `write` is the RFC
3339 form: a fraction of no, three, six or nine digits, the fewest that are exact, and a sign in
front of a year that does not have four digits.
-/

namespace LoadGenerator

/-- A moment in UTC. -/
structure Timestamp where
  seconds : Int
  nanos : Nat
  nanos_lt : nanos < 2000000000 := by decide
  inRange : -8334601228800 ≤ seconds ∧ seconds ≤ 8210266876799 := by decide
  deriving DecidableEq, Repr

namespace Timestamp

instance : Inhabited Timestamp := ⟨{ seconds := 0, nanos := 0 }⟩

/-- No more than a second has passed since the second, unless that is the last of a minute. -/
def IsProper (t : Timestamp) : Prop :=
  t.nanos < 1000000000 ∨ t.seconds % 60 = 59

instance (t : Timestamp) : Decidable t.IsProper :=
  inferInstanceAs (Decidable (_ ∨ _))

/-- The proper moment with the given parts, if there is one. -/
def ofParts? (seconds : Int) (nanos : Nat) : Option Timestamp :=
  if h : nanos < 2000000000 ∧ -8334601228800 ≤ seconds ∧ seconds ≤ 8210266876799 then
    let t : Timestamp := ⟨seconds, nanos, h.1, h.2⟩
    if t.IsProper then some t else none
  else none

/-! ### Writing -/

/-- A year: four digits, or a sign and at least four. -/
def writeYear (year : Int) : List Char :=
  if 0 ≤ year ∧ year ≤ 9999 then Numeral.padded 4 year.toNat
  else (if year < 0 then '-' else '+') :: Numeral.padded 4 year.natAbs

/-- A fraction of a second: the fewest of no, three, six and nine digits that are exact. -/
def writeFraction (nanos : Nat) : List Char :=
  if nanos = 0 then []
  else if nanos % 1000000 = 0 then '.' :: Numeral.padded 3 (nanos / 1000000)
  else if nanos % 1000 = 0 then '.' :: Numeral.padded 6 (nanos / 1000)
  else '.' :: Numeral.padded 9 nanos

/-- The RFC 3339 form. -/
def write (t : Timestamp) : List Char :=
  let date := Date.ofDays (t.seconds / 86400)
  let time := (t.seconds % 86400).toNat
  let leap := t.nanos / 1000000000
  writeYear date.year ++ '-' :: Numeral.padded 2 date.month ++ '-' :: Numeral.padded 2 date.day ++
    'T' :: Numeral.padded 2 (time / 3600) ++ ':' :: Numeral.padded 2 (time / 60 % 60) ++
    ':' :: Numeral.padded 2 (time % 60 + leap) ++ writeFraction (t.nanos % 1000000000) ++ ['Z']

end Timestamp

end LoadGenerator
