import LoadGenerator.Text.Numeral

/-!
# Writing JSON

A text is written between quotes with the characters escaped that must be; everything else stays as
it is. An object is written on one line, or with each member on a line of its own, two blanks in.
-/

namespace LoadGenerator.Json

/-- How a character is written inside a string. -/
def writeChar (c : Char) : List Char :=
  match c with
  | '"' => ['\\', '"']
  | '\\' => ['\\', '\\']
  | '\x08' => ['\\', 'b']
  | '\t' => ['\\', 't']
  | '\n' => ['\\', 'n']
  | '\x0c' => ['\\', 'f']
  | '\r' => ['\\', 'r']
  | c =>
    if c < ' ' then
      ['\\', 'u', '0', '0', Nat.digitChar (c.toNat / 16), Nat.digitChar (c.toNat % 16)]
    else [c]

def writeString (s : List Char) : List Char :=
  '"' :: s.flatMap writeChar ++ ['"']

def writeCount (n : UInt64) : List Char :=
  Numeral.write n.toNat

/-- A member of an object: its key and its value as written. -/
abbrev Member := String × List Char

/-- An object on one line. -/
def writeCompact (members : List Member) : List Char :=
  '\x7b' :: [','].intercalate (members.map fun (key, value) =>
    writeString key.toList ++ ':' :: value) ++ ['\x7d']

/-- An object with each member on a line of its own. -/
def writePretty (members : List Member) : List Char :=
  '\x7b' :: '\n' :: [',', '\n'].intercalate (members.map fun (key, value) =>
    ' ' :: ' ' :: writeString key.toList ++ ':' :: ' ' :: value) ++ ['\n', '\x7d']

end LoadGenerator.Json
