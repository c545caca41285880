import LoadGenerator.Text.Blank
import LoadGenerator.Timestamp

/-!
# Reading moments in time

`Timestamp.read` accepts RFC 3339 and a little more: blanks between the parts, a blank in place of
the `T`, small letters, numbers of fewer digits, years with a sign, `UTC` in place of `Z`. Each
number is checked against its own range as soon as it is read; whether day, month and year go
together is known only at the end. A second of 60 is a leap second in any minute.
-/

namespace LoadGenerator

inductive TimestampFault where
  | outOfRange
  | impossible
  | invalid
  | tooShort
  | tooLong
  deriving DecidableEq, Repr

namespace TimestampFault

def message : TimestampFault → String
  | .outOfRange => "input is out of range"
  | .impossible => "no possible date and time matching input"
  | .invalid => "input contains invalid characters"
  | .tooShort => "premature end of input"
  | .tooLong => "trailing input"

end TimestampFault

namespace Timestamp

/-- A reader of one part: the value and the text after it. -/
abbrev Part (α : Type) := List Char → Except TimestampFault (α × List Char)

/-- The value of leading digits, at most `most` of them, on top of those before, and the rest. -/
def leadingDigits : Nat → Nat → List Char → Nat × List Char
  | 0, value, cs => (value, cs)
  | _ + 1, value, [] => (value, [])
  | most + 1, value, c :: cs =>
    match Numeral.digit? c with
    | some d => leadingDigits most (value * 10 + d) cs
    | none => (value, c :: cs)

/-- A number of one digit or more, at most `most`. -/
def number (most : Nat) : Part Nat
  | [] => .error .tooShort
  | c :: cs =>
    match Numeral.digit? c with
    | none => .error .invalid
    | some _ => .ok (leadingDigits most 0 (c :: cs))

/-- A number of one or two digits within bounds, blanks before it allowed. -/
def bounded (least greatest : Nat) : Part Nat := fun cs => do
  let (n, cs) ← number 2 (Text.trimStart cs)
  if least ≤ n ∧ n ≤ greatest then .ok (n, cs) else .error .outOfRange

/-- A year: with a sign any number of digits, without one at most four. -/
def year : Part Int := fun cs => do
  let (y, cs) ← match Text.trimStart cs with
    | '-' :: cs => do let (n, cs) ← number cs.length cs; pure (-(n : Int), cs)
    | '+' :: cs => do let (n, cs) ← number cs.length cs; pure ((n : Int), cs)
    | cs => do let (n, cs) ← number 4 cs; pure ((n : Int), cs)
  if Int32.minValue.toInt ≤ y ∧ y ≤ Int32.maxValue.toInt then .ok (y, cs) else .error .outOfRange

/-- A separator, blanks before it allowed. -/
def separator (c : Char) : Part Unit := fun cs =>
  match Text.trimStart cs with
  | [] => .error .tooShort
  | d :: cs => if d = c then .ok ((), cs) else .error .invalid

/-- The sign between date and time. -/
def dateTimeSeparator : Part Unit
  | [] => .error .tooShort
  | c :: cs => if c = 't' ∨ c = 'T' ∨ c = ' ' then .ok ((), cs) else .error .invalid

/-- A fraction of a second in nanoseconds; digits beyond the ninth do not count. -/
def fraction : Part Nat
  | '.' :: cs => do
    let (n, rest) ← number 9 cs
    let digits := cs.length - rest.length
    .ok (n * Nat.pow 10 (9 - digits), rest.dropWhile (Numeral.digit? · |>.isSome))
  | cs => .ok (0, cs)

/-- Two digits of an offset; anything shorter than two bytes is cut short. -/
def twoDigits (greatestTens : Nat) : Part Nat
  | a :: b :: cs =>
    match Numeral.digit? a, Numeral.digit? b with
    | some x, some y => if x ≤ greatestTens then .ok (10 * x + y, cs) else .error .outOfRange
    | _, _ => .error .invalid
  | cs => if Text.byteLength cs < 2 then .error .tooShort else .error .invalid

/-- Hours and minutes of an offset, in seconds. -/
def hoursAndMinutes : Part Int := fun cs => do
  let (hours, cs) ← twoDigits 9 cs
  let (minutes, cs) ← twoDigits 5 (cs.dropWhile fun c => c = ':' || Text.isBlank c)
  .ok ((hours * 3600 + minutes * 60 : Nat), cs)

/-- The offset from UTC in seconds: `Z`, `UTC`, or a sign with hours and minutes. -/
def offset : Part Int := fun cs =>
  match Text.trimStart cs with
  | [] => .error .tooShort
  | c :: cs =>
    if (c :: cs.take 2).map Char.toUpper = ['U', 'T', 'C'] then .ok (0, cs.drop 2)
    else if c = 'Z' ∨ c = 'z' then .ok (0, cs)
    else if c = '+' then hoursAndMinutes cs
    else if c = '-' ∨ c = '\u2212' then do
      let (o, cs) ← hoursAndMinutes cs
      .ok (-o, cs)
    else .error .invalid

/-- The moment at which clocks at an offset from UTC show a date and a time. -/
def ofLocal (date : Date) (hour minute second nanos : Nat) (offset : Int) :
    Except TimestampFault Timestamp :=
  if ¬ date.IsValid ∨ date.year < -262143 ∨ 262142 < date.year then .error .outOfRange
  else if offset ≤ -86400 ∨ 86400 ≤ offset then .error .outOfRange
  else
    let time := hour * 3600 + minute * 60 + min second 59
    let nanos := if second = 60 then nanos + 1000000000 else nanos
    match ofParts? (date.toDays * 86400 + time - offset) nanos with
    | some t => .ok t
    | none => .error .impossible

def read (cs : List Char) : Except TimestampFault Timestamp := do
  let (y, cs) ← year cs
  let (_, cs) ← separator '-' cs
  let (month, cs) ← bounded 1 12 cs
  let (_, cs) ← separator '-' cs
  let (day, cs) ← bounded 1 31 cs
  let (_, cs) ← dateTimeSeparator cs
  let (hour, cs) ← bounded 0 23 cs
  let (_, cs) ← separator ':' cs
  let (minute, cs) ← bounded 0 59 cs
  let (_, cs) ← separator ':' cs
  let (second, cs) ← bounded 0 60 cs
  let (nanos, cs) ← fraction cs
  let (o, cs) ← offset cs
  if !(Text.trimStart cs).isEmpty then throw .tooLong
  ofLocal ⟨y, month, day⟩ hour minute second nanos o

end Timestamp

end LoadGenerator
