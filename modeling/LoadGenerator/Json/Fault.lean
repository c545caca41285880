import LoadGenerator.Number.Decimal
import LoadGenerator.Text.Blank
import LoadGenerator.Text.Quoted
import LoadGenerator.Timestamp.Reader

/-!
# Faults of JSON texts

A `Fault` is what is wrong with a text, an `Error` is a fault with the place where reading stopped:
the line, counted from one, and the bytes of that line up to there. `Position.after` finds the place
that a number of bytes leads to, which may be inside a character.
-/

namespace LoadGenerator.Json

/-- What a text ends in the middle of. -/
inductive Unfinished where
  | value
  | string
  | list
  | object
  deriving DecidableEq, Repr

/-- A value that stands where another kind of value belongs. -/
inductive Found where
  | integer (n : Int)
  | real (x : Binary64)
  | boolean (b : Bool)
  | string (s : String)
  | null
  | sequence
  | map
  deriving DecidableEq, Repr

inductive Fault where
  | endOfText (inside : Unfinished)
  | expectedValue
  | expectedIdent
  | expectedColon
  | expectedCommaOrBracket
  | expectedCommaOrBrace
  | trailingComma
  | trailingCharacters
  | keyNotString
  | invalidNumber
  | numberOutOfRange
  | invalidEscape
  | loneSurrogate
  | brokenSurrogatePair
  | controlCharacter
  | invalidType (found : Found) (expected : String)
  | negative (n : Int) (expected : String)
  | invalidLength (found : Nat) (record : String) (fields : Nat)
  | missingField (name : String)
  | duplicateField (name : String)
  | unknownVariant (name : String) (known : List String)
  | timestamp (fault : TimestampFault)
  deriving DecidableEq, Repr

/-- Real numbers are positional for leading digits between the fifth decimal place and the sixteenth
integer place, and have the sign of a positive exponent written. -/
def realLayout : Decimal.Layout :=
  ⟨-5, 15, ['+']⟩

namespace Unfinished

def noun : Unfinished → String
  | .value => "a value"
  | .string => "a string"
  | .list => "a list"
  | .object => "an object"

end Unfinished

namespace Found

def describe : Found → String
  | .integer n => s!"integer `{n}`"
  | .real x => s!"floating point `{String.ofList (Decimal.write realLayout x)}`"
  | .boolean b => if b then "boolean `true`" else "boolean `false`"
  | .string s => s!"string {Text.quote s}"
  | .null => "null"
  | .sequence => "sequence"
  | .map => "map"

end Found

namespace Fault

def ticked (s : String) : String := s!"`{s}`"

def message : Fault → String
  | .endOfText inside => s!"EOF while parsing {inside.noun}"
  | .expectedValue => "expected value"
  | .expectedIdent => "expected ident"
  | .expectedColon => "expected `:`"
  | .expectedCommaOrBracket => "expected `,` or `]`"
  | .expectedCommaOrBrace => "expected `,` or `\x7d`"
  | .trailingComma => "trailing comma"
  | .trailingCharacters => "trailing characters"
  | .keyNotString => "key must be a string"
  | .invalidNumber => "invalid number"
  | .numberOutOfRange => "number out of range"
  | .invalidEscape => "invalid escape"
  | .loneSurrogate => "lone leading surrogate in hex escape"
  | .brokenSurrogatePair => "unexpected end of hex escape"
  | .controlCharacter => "control character (\\u0000-\\u001F) found while parsing a string"
  | .invalidType found expected => s!"invalid type: {found.describe}, expected {expected}"
  | .negative n expected => s!"invalid value: integer `{n}`, expected {expected}"
  | .invalidLength found record fields =>
    s!"invalid length {found}, expected struct {record} with {fields} elements"
  | .missingField name => s!"missing field `{name}`"
  | .duplicateField name => s!"duplicate field `{name}`"
  | .unknownVariant name known =>
    s!"unknown variant `{name}`, expected " ++ " or ".intercalate (known.map ticked)
  | .timestamp fault => fault.message

end Fault

/-- A place in a text: the line, from one, and the bytes of that line before it. -/
structure Position where
  line : Nat := 1
  column : Nat := 0
  deriving DecidableEq, Repr

namespace Position

/-- The place that `bytes` bytes lead to from a place, or the end of the text. -/
def advance (p : Position) : List Char → Nat → Position
  | [], _ => p
  | c :: cs, bytes =>
    if bytes < c.utf8Size then { p with column := p.column + bytes }
    else if c = '\n' then advance ⟨p.line + 1, 0⟩ cs (bytes - c.utf8Size)
    else advance { p with column := p.column + c.utf8Size } cs (bytes - c.utf8Size)

/-- The place after the first `bytes` bytes of a text. -/
def after (text : List Char) (bytes : Nat) : Position :=
  advance {} text bytes

end Position

/-- A fault and the place where reading stopped. -/
structure Error where
  fault : Fault
  position : Position
  deriving DecidableEq, Repr

namespace Error

def message (e : Error) : String :=
  s!"{e.fault.message} at line {e.position.line} column {e.position.column}"

end Error

end LoadGenerator.Json
