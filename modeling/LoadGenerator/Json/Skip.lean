import LoadGenerator.Json.Reader

/-!
# Passing over JSON values

The value of a field that nobody knows is passed over: `skip` checks that it is a value and looks no
further. Escapes and numbers only have to be well formed, so a lone surrogate or a number beyond all
bounds is passed over too. Every step of the three readers that call each other reads a character or
is the only one between two that do, which bounds their steps by twice the length of the text.
-/

namespace LoadGenerator.Json

def skipString : Reader Unit
  | [] => failAt (.endOfText .string) []
  | c :: cs =>
    if c = '"' then .ok ((), cs)
    else if c = '\\' then
      match cs with
      | [] => failAt (.endOfText .string) []
      | 'u' :: cs =>
        match cs with
        | h₁ :: h₂ :: h₃ :: h₄ :: cs =>
          if (hex? h₁ h₂ h₃ h₄).isSome then skipString cs else failHex (h₁ :: h₂ :: h₃ :: h₄ :: cs)
        | cs => failHex cs
      | e :: cs => if (escape? e).isSome then skipString cs else failAhead .invalidEscape (e :: cs)
    else if c < ' ' then failAt .controlCharacter (c :: cs)
    else skipString cs

def skipExponent : Reader Unit := fun cs =>
  let cs := match cs with
    | '+' :: cs => cs
    | '-' :: cs => cs
    | cs => cs
  if startsWithDigit cs then .ok ((), cs.dropWhile isDigit) else failAhead .invalidNumber cs

def skipExponentOrEnd : Reader Unit
  | [] => .ok ((), [])
  | c :: cs => if isExponentLetter c then skipExponent cs else .ok ((), c :: cs)

def skipFraction : Reader Unit
  | '.' :: cs =>
    if startsWithDigit cs then skipExponentOrEnd (cs.dropWhile isDigit)
    else failAhead .invalidNumber cs
  | cs => skipExponentOrEnd cs

def skipNumber : Reader Unit
  | [] => failAhead .invalidNumber []
  | c :: cs =>
    if c = '0' then if startsWithDigit cs then failAhead .invalidNumber cs else skipFraction cs
    else if isDigit c then skipFraction (cs.dropWhile isDigit)
    else failAhead .invalidNumber (c :: cs)

def skipKey : Reader Unit := fun cs =>
  match skipBlanks cs with
  | [] => failAhead (.endOfText .object) []
  | c :: cs =>
    if c = '"' then do
      let (_, cs) ← skipString cs
      colon cs
    else failAhead .keyNotString (c :: cs)

mutual

def skipValue : Nat → Reader Unit
  | 0 => failAhead .expectedValue
  | fuel + 1 => onFirst fun c cs =>
    if c = 'n' then word ['u', 'l', 'l'] cs
    else if c = 't' then word ['r', 'u', 'e'] cs
    else if c = 'f' then word ['a', 'l', 's', 'e'] cs
    else if c = '-' then skipNumber cs
    else if isDigit c then skipNumber (c :: cs)
    else if c = '"' then skipString cs
    else if c = '[' then skipElements fuel true cs
    else if c = '\x7b' then skipMembers fuel true cs
    else failAhead .expectedValue (c :: cs)

/-- Passes over the rest of a list, before or after its first value. -/
def skipElements : Nat → Bool → Reader Unit
  | 0, _ => failAhead .expectedValue
  | fuel + 1, first => fun cs =>
    match skipBlanks cs with
    | [] => failAhead (.endOfText .list) []
    | c :: cs =>
      if c = ']' then .ok ((), cs)
      else if first then do
        let (_, cs) ← skipValue fuel (c :: cs)
        skipElements fuel false cs
      else if c = ',' then do
        let (_, cs) ← skipValue fuel cs
        skipElements fuel false cs
      else failAhead .expectedCommaOrBracket (c :: cs)

/-- Passes over the rest of an object, before or after its first member. -/
def skipMembers : Nat → Bool → Reader Unit
  | 0, _ => failAhead .expectedValue
  | fuel + 1, first => fun cs =>
    match skipBlanks cs with
    | [] => failAhead (.endOfText .object) []
    | c :: cs =>
      if c = '\x7d' then .ok ((), cs)
      else if first then do
        let (_, cs) ← skipKey (c :: cs)
        let (_, cs) ← skipValue fuel cs
        skipMembers fuel false cs
      else if c = ',' then do
        let (_, cs) ← skipKey cs
        let (_, cs) ← skipValue fuel cs
        skipMembers fuel false cs
      else failAhead .expectedCommaOrBrace (c :: cs)

end

/-- Passes over one value of any kind and depth. -/
def skip : Reader Unit := fun cs =>
  skipValue (2 * cs.length + 2) cs

end LoadGenerator.Json
