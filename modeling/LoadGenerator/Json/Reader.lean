import LoadGenerator.Json.Fault

/-!
# Reading JSON tokens

A `Reader` takes a text and gives a value with the text after it, or a `Failure`: the fault, the
text left where it was found, and how many bytes of that text reading has touched. Where the next
character is the culprit one byte is touched; a fault of what has already been read touches none.

Strings are read with their escapes resolved; halves of a surrogate pair must come in pairs. A
number keeps as many leading digits as fit into 64 bits; the value of a real number is those digits
scaled by the power of ten that is left, each step rounded.
-/

namespace LoadGenerator.Json

/-- A fault, the text left where it was found and the bytes of that text touched. -/
structure Failure where
  fault : Fault
  rest : List Char
  touched : Nat := 0
  deriving DecidableEq, Repr

/-- A reader of one value, which also gives the text after it. -/
abbrev Reader (α : Type) := List Char → Except Failure (α × List Char)

/-- A fault of what has been read. -/
def failAt {α : Type} (fault : Fault) (rest : List Char) : Except Failure (α × List Char) :=
  .error ⟨fault, rest, 0⟩

/-- A fault of the next character, if there is one. -/
def failAhead {α : Type} (fault : Fault) (rest : List Char) : Except Failure (α × List Char) :=
  .error ⟨fault, rest, 1⟩

/-- The place of a failure in the text that was read. -/
def Failure.toError (text : List Char) (f : Failure) : Error :=
  ⟨f.fault, Position.after text (Text.byteLength text - Text.byteLength f.rest + f.touched)⟩

/-! ### Blanks and words -/

def isBlank (c : Char) : Bool :=
  c == ' ' || c == '\n' || c == '\t' || c == '\r'

def skipBlanks (cs : List Char) : List Char :=
  cs.dropWhile isBlank

/-- The rest of a word whose first letter has been read. -/
def word : List Char → Reader Unit
  | [], cs => .ok ((), cs)
  | _ :: _, [] => failAt (.endOfText .value) []
  | expected :: more, c :: cs =>
    if c = expected then word more cs else failAhead .expectedIdent (c :: cs)

/-! ### Strings -/

/-- The character that stands for an escape of two characters. -/
def escape? : Char → Option Char
  | '"' => some '"'
  | '\\' => some '\\'
  | '/' => some '/'
  | 'b' => some '\x08'
  | 'f' => some '\x0c'
  | 'n' => some '\n'
  | 'r' => some '\r'
  | 't' => some '\t'
  | _ => none

def hexDigit? (c : Char) : Option Nat :=
  if '0' ≤ c ∧ c ≤ '9' then some (c.toNat - '0'.toNat)
  else if 'a' ≤ c ∧ c ≤ 'f' then some (c.toNat - 'a'.toNat + 10)
  else if 'A' ≤ c ∧ c ≤ 'F' then some (c.toNat - 'A'.toNat + 10)
  else none

def hex? (a b c d : Char) : Option Nat := do
  let a ← hexDigit? a
  let b ← hexDigit? b
  let c ← hexDigit? c
  let d ← hexDigit? d
  some (((a * 16 + b) * 16 + c) * 16 + d)

/-- The failure of an escape by number whose digits are wrong: four bytes are touched, or all that
are left of a text that ends before. -/
def failHex {α : Type} (cs : List Char) : Except Failure (α × List Char) :=
  if Text.byteLength cs < 4 then failAt (.endOfText .string) [] else .error ⟨.invalidEscape, cs, 4⟩

/-- The failure of a pair of surrogates that breaks off. -/
def failPair {α : Type} : Reader α
  | [] => failAt (.endOfText .string) []
  | c :: cs => failAhead .brokenSurrogatePair (c :: cs)

def isLeadingSurrogate (n : Nat) : Bool := 0xd800 ≤ n && n ≤ 0xdbff

def isTrailingSurrogate (n : Nat) : Bool := 0xdc00 ≤ n && n ≤ 0xdfff

def ofSurrogates (lead trail : Nat) : Char :=
  Char.ofNat ((lead - 0xd800) * 0x400 + (trail - 0xdc00) + 0x10000)

/-- Puts a character in front of the string that has been read. -/
def consResult (c : Char) :
    Except Failure (List Char × List Char) → Except Failure (List Char × List Char)
  | .ok (s, rest) => .ok (c :: s, rest)
  | .error f => .error f

def string : Reader (List Char)
  | [] => failAt (.endOfText .string) []
  | c :: cs =>
    if c = '"' then .ok ([], cs)
    else if c = '\\' then
      match cs with
      | [] => failAt (.endOfText .string) []
      | 'u' :: cs =>
        match cs with
        | h₁ :: h₂ :: h₃ :: h₄ :: cs =>
          match hex? h₁ h₂ h₃ h₄ with
          | none => failHex (h₁ :: h₂ :: h₃ :: h₄ :: cs)
          | some n =>
            if isTrailingSurrogate n then failAt .loneSurrogate cs
            else if isLeadingSurrogate n then
              match cs with
              | '\\' :: 'u' :: cs =>
                match cs with
                | k₁ :: k₂ :: k₃ :: k₄ :: cs =>
                  match hex? k₁ k₂ k₃ k₄ with
                  | none => failHex (k₁ :: k₂ :: k₃ :: k₄ :: cs)
                  | some m =>
                    if isTrailingSurrogate m then consResult (ofSurrogates n m) (string cs)
                    else failAt .loneSurrogate cs
                | cs => failHex cs
              | '\\' :: cs => failPair cs
              | cs => failPair cs
            else consResult (Char.ofNat n) (string cs)
        | cs => failHex cs
      | e :: cs =>
        match escape? e with
        | some x => consResult x (string cs)
        | none => failAhead .invalidEscape (e :: cs)
    else if c < ' ' then failAt .controlCharacter cs
    else consResult c (string cs)

/-! ### Numbers -/

/-- A number as written: without fraction and exponent an integer, if it fits into 64 bits. -/
inductive Number where
  | natural (n : UInt64)
  | negative (n : Int)
  | real (x : Binary64)
  deriving DecidableEq, Repr

namespace Number

def found : Number → Found
  | .natural n => .integer n.toNat
  | .negative n => .integer n
  | .real x => .real x

/-- The number with its sign. -/
def ofSign (positive : Bool) (x : Binary64) : Number :=
  .real (if positive then x else x.neg)

/-- An integer with its sign. A negative one that is zero or does not fit is a real number. -/
def ofInteger (positive : Bool) (n : Nat) : Number :=
  if positive then .natural (UInt64.ofNat n)
  else if 0 < n ∧ n ≤ Nat.pow 2 63 then .negative (-n)
  else .real (Binary64.ofCount (UInt64.ofNat n)).neg

end Number

/-- The largest power of ten in one step of scaling. -/
def greatestPower : Nat := 308

/-- The number nearest to a power of ten. -/
def powerOfTen (k : Nat) : Binary64 :=
  (Binary64.ofQuotient (Nat.pow 10 k) 1).getD Binary64.zero

/-- A number scaled down by a power of ten, `greatestPower` at a time; after three such steps
nothing is left of any number. -/
def scaleDown : Nat → Binary64 → Nat → Binary64
  | 0, _, _ => Binary64.zero
  | steps + 1, x, k =>
    if k ≤ greatestPower then (x.div (powerOfTen k)).getD Binary64.zero
    else if x.isZero then x
    else scaleDown steps ((x.div (powerOfTen greatestPower)).getD Binary64.zero) (k - greatestPower)

/-- Leading digits scaled by a power of ten, if the result is not beyond all numbers. -/
def scaled (digits : Nat) (exponent : Int) : Option Binary64 :=
  let x := Binary64.ofCount (UInt64.ofNat digits)
  if exponent < 0 then some (scaleDown 4 x exponent.natAbs)
  else if exponent ≤ greatestPower then x.mul (powerOfTen exponent.toNat)
  else if x.isZero then some x
  else none

/-- A real number from leading digits and exponent. -/
def real (positive : Bool) (digits : Nat) (exponent : Int) : Reader Number := fun cs =>
  match scaled digits exponent with
  | some x => .ok (.ofSign positive x, cs)
  | none => failAt .numberOutOfRange cs

def isDigit (c : Char) : Bool := (Numeral.digit? c).isSome

/-- Adds the digits in front of a text to `value` as long as it fits into 64 bits; also gives their
number. -/
def fittingDigits : Nat → Nat → List Char → Nat × Nat × List Char
  | value, taken, [] => (value, taken, [])
  | value, taken, c :: cs =>
    match Numeral.digit? c with
    | none => (value, taken, c :: cs)
    | some d =>
      if value * 10 + d < UInt64.size then fittingDigits (value * 10 + d) (taken + 1) cs
      else (value, taken, c :: cs)

def startsWithDigit (cs : List Char) : Bool :=
  (cs.head?.map isDigit).getD false

/-- The largest exponent that is told apart from larger ones. -/
def greatestExponent : Nat := 2147483647

/-- The digits of an exponent after those of `value`. An exponent too large to be told is beyond all
numbers if it is positive and the digits are not zero, and the number is zero otherwise. -/
def exponentDigits (positive : Bool) (digits : Nat) (before : Int) (up : Bool) :
    Nat → Reader Number
  | value, [] => real positive digits (if up then before + value else before - value) []
  | value, c :: cs =>
    match Numeral.digit? c with
    | none => real positive digits (if up then before + value else before - value) (c :: cs)
    | some d =>
      if value * 10 + d ≤ greatestExponent then
        exponentDigits positive digits before up (value * 10 + d) cs
      else if digits ≠ 0 ∧ up then failAt .numberOutOfRange cs
      else .ok (.ofSign positive Binary64.zero, cs.dropWhile isDigit)

/-- The exponent after its letter; its first digit must be there. -/
def exponent (positive : Bool) (digits : Nat) (before : Int) : Reader Number := fun cs =>
  let (up, cs) := match cs with
    | '+' :: cs => (true, cs)
    | '-' :: cs => (false, cs)
    | cs => (true, cs)
  match cs with
  | [] => failAt (.endOfText .value) []
  | c :: cs =>
    if isDigit c then exponentDigits positive digits before up 0 (c :: cs)
    else failAhead .invalidNumber (c :: cs)

def isExponentLetter (c : Char) : Bool := c == 'e' || c == 'E'

/-- What may follow the digits of a real number: an exponent, or its end. -/
def exponentOrEnd (positive : Bool) (digits : Nat) (before : Int) : Reader Number
  | [] => real positive digits before []
  | c :: cs =>
    if isExponentLetter c then exponent positive digits before cs
    else real positive digits before (c :: cs)

/-- The decimal places after the point. Those that do not fit are passed over. -/
def decimals (positive : Bool) (digits : Nat) (before : Int) : Reader Number := fun cs =>
  let (digits, taken, cs) := fittingDigits digits 0 cs
  if startsWithDigit cs then exponentOrEnd positive digits (before - taken) (cs.dropWhile isDigit)
  else if taken = 0 then
    failAhead (if cs.isEmpty then .endOfText .value else .invalidNumber) cs
  else exponentOrEnd positive digits (before - taken) cs

/-- What may follow the integer digits that fit: the digits that do not, a point, an exponent, or
the end. -/
def afterInteger (positive : Bool) (digits : Nat) : Reader Number := fun cs =>
  let more := (cs.takeWhile isDigit).length
  match cs.dropWhile isDigit with
  | '.' :: cs => decimals positive digits more cs
  | cs =>
    if more = 0 ∧ !(cs.head?.map isExponentLetter).getD false then
      .ok (.ofInteger positive digits, cs)
    else exponentOrEnd positive digits more cs

/-- A number after its sign. It does not start with a zero unless that is its only integer digit. -/
def unsigned (positive : Bool) : Reader Number
  | [] => failAt (.endOfText .value) []
  | c :: cs =>
    match Numeral.digit? c with
    | none => failAhead .invalidNumber (c :: cs)
    | some 0 =>
      if startsWithDigit cs then failAhead .invalidNumber cs else afterInteger positive 0 cs
    | some d => let (digits, _, cs) := fittingDigits d 0 cs; afterInteger positive digits cs

/-- A number whose first character may be a sign. -/
def number : Reader Number
  | '-' :: cs => unsigned false cs
  | cs => unsigned true cs

/-! ### Values of one kind -/

/-- The failure of a value of the wrong kind, which is read before it is refused; lists and objects
are refused unread. -/
def mismatch {α : Type} (expected : String) : Reader α
  | [] => failAhead .expectedValue []
  | c :: cs =>
    let refuse {α : Type} (found : Found) (rest : List Char) : Except Failure (α × List Char) :=
      failAt (.invalidType found expected) rest
    if c = 'n' then do let (_, cs) ← word ['u', 'l', 'l'] cs; refuse .null cs
    else if c = 't' then do let (_, cs) ← word ['r', 'u', 'e'] cs; refuse (.boolean true) cs
    else if c = 'f' then do let (_, cs) ← word ['a', 'l', 's', 'e'] cs; refuse (.boolean false) cs
    else if c = '-' ∨ isDigit c then do let (n, cs) ← number (c :: cs); refuse n.found cs
    else if c = '"' then do let (s, cs) ← string cs; refuse (.string (String.ofList s)) cs
    else if c = '[' then refuse .sequence (c :: cs)
    else if c = '\x7b' then refuse .map (c :: cs)
    else failAhead .expectedValue (c :: cs)

/-- Reads a value by its first character that is no blank. -/
def onFirst {α : Type} (reader : Char → Reader α) : Reader α := fun cs =>
  match skipBlanks cs with
  | [] => failAhead (.endOfText .value) []
  | c :: cs => reader c cs

def text (expected : String) : Reader (List Char) :=
  onFirst fun c cs => if c = '"' then string cs else mismatch expected (c :: cs)

def stringValue : Reader String := fun cs => do
  let (s, cs) ← text "a string" cs
  .ok (String.ofList s, cs)

def numberValue (expected : String) : Reader Number :=
  onFirst fun c cs => if c = '-' ∨ isDigit c then number (c :: cs) else mismatch expected (c :: cs)

/-- A count of 64 bits; a number with fraction or exponent is none, even if it is whole. -/
def count : Reader UInt64 := fun cs => do
  let (n, cs) ← numberValue "usize" cs
  match n with
  | .natural n => .ok (n, cs)
  | .negative n => failAt (.negative n "usize") cs
  | .real x => failAt (.invalidType (.real x) "usize") cs

/-- A real number; an integer is one. -/
def realValue : Reader Binary64 := fun cs => do
  let (n, cs) ← numberValue "f64" cs
  match n with
  | .natural n => .ok (Binary64.ofCount n, cs)
  | .negative n => .ok ((Binary64.ofCount (UInt64.ofNat n.natAbs)).neg, cs)
  | .real x => .ok (x, cs)

def timestamp : Reader Timestamp := fun cs => do
  let (s, cs) ← text "an RFC 3339 formatted date and time string" cs
  match Timestamp.read s with
  | .ok t => .ok (t, cs)
  | .error fault => failAt (.timestamp fault) cs

/-! ### Enumerations -/

def variant {α : Type} (known : List (String × α)) (name : List Char) : Reader α := fun cs =>
  match known.lookup (String.ofList name) with
  | some a => .ok (a, cs)
  | none => failAt (.unknownVariant (String.ofList name) (known.map (·.1))) cs

def colon : Reader Unit := fun cs =>
  match skipBlanks cs with
  | [] => failAhead (.endOfText .object) []
  | c :: cs => if c = ':' then .ok ((), cs) else failAhead .expectedColon (c :: cs)

def null (expected : String) : Reader Unit :=
  onFirst fun c cs => if c = 'n' then word ['u', 'l', 'l'] cs else mismatch expected (c :: cs)

/-- The key that names a value. -/
def variantKey : Reader (List Char) := fun cs =>
  match skipBlanks cs with
  | [] => failAhead (.endOfText .object) []
  | c :: cs =>
    if c = '"' then string cs
    else if c = '\x7d' then failAhead .expectedValue (c :: cs)
    else failAhead .keyNotString (c :: cs)

/-- One of several named values: its name as a string, or an object with the name as its only key
and null as the value. -/
def enumeration {α : Type} (known : List (String × α)) : Reader α :=
  onFirst fun c cs =>
    if c = '\x7b' then do
      let (name, cs) ← variantKey cs
      let (a, cs) ← variant known name cs
      let (_, cs) ← colon cs
      let (_, cs) ← null "unit" cs
      match skipBlanks cs with
      | [] => failAt (.endOfText .object) []
      | c :: cs => if c = '\x7d' then .ok (a, cs) else failAt .expectedValue (c :: cs)
    else if c = '"' then do
      let (name, cs) ← string cs
      variant known name cs
    else failAhead .expectedValue (c :: cs)

end LoadGenerator.Json
