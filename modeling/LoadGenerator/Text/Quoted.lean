import LoadGenerator.Text.Unprintable

/-!
# Quoted text

`quote` shows a text between double quotes, for messages and descriptions. A quote, a backslash and
the commonest controls have an escape of two characters; any other character that cannot be shown is
written by its number.
-/

namespace LoadGenerator.Text

/-- How a character appears between the quotes. -/
def quoteChar (c : Char) : List Char :=
  match c with
  | '\t' => ['\\', 't']
  | '\r' => ['\\', 'r']
  | '\n' => ['\\', 'n']
  | '\x00' => ['\\', '0']
  | '"' => ['\\', '"']
  | '\\' => ['\\', '\\']
  | c =>
    if isUnprintable c then ['\\', 'u', '\x7b'] ++ Nat.toDigits 16 c.toNat ++ ['\x7d'] else [c]

def quote (s : String) : String :=
  String.ofList ('"' :: s.toList.flatMap quoteChar ++ ['"'])

end LoadGenerator.Text
