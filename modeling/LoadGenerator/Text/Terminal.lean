/-!
# Control sequences of terminals

`Terminal.visible` is what of a text a terminal would show: the characters outside of control
sequences, and of the control characters only those that move to another place or line. A control
sequence starts with the escape character. It is a single function, or a control with parameters, or
a string of some kind, which goes on until it is terminated; `State` says what a terminal is in the
middle of. A sequence that the text breaks off shows nothing.
-/

namespace LoadGenerator.Text.Terminal

/-! ### Classes of characters -/

/-- The control characters that are shown. -/
def isSpacing (c : Char) : Bool :=
  c == '\t' || c == '\n' || c == '\x0c' || c == '\r'

/-- What a terminal shows as it is, outside of control sequences. -/
def isShown (c : Char) : Bool :=
  isSpacing c || (' ' ≤ c && c ≤ '~') || '\x80' ≤ c

/-- The characters that come between parameters and the final character. -/
def isIntermediate (c : Char) : Bool :=
  ' ' ≤ c && c ≤ '/'

/-- The characters of numbered parameters. -/
def isParameter (c : Char) : Bool :=
  '0' ≤ c && c ≤ ';'

/-- The characters that make parameters private, at their start. -/
def isPrivate (c : Char) : Bool :=
  '<' ≤ c && c ≤ '?'

/-- The characters that complete a control, or open the text of a device string. -/
def isFinal (c : Char) : Bool :=
  '@' ≤ c && c ≤ '~'

/-- The characters that give up whatever sequence there is. -/
def isCancel (c : Char) : Bool :=
  c == '\x18' || c == '\x1a'

/-- Whether the string terminator of eight bits is among the bytes of a character. -/
def hasTerminator (c : Char) : Bool :=
  (String.utf8EncodeChar c).contains 0x9c

/-! ### Sequences -/

/-- How far the head of a control or of a device string has come. -/
inductive Head where
  | start
  | parameters
  | intermediates
  | malformed
  deriving DecidableEq, Repr

namespace Head

/-- The head with one more character that does not end it. -/
def extend (head : Head) (c : Char) : Head :=
  if isIntermediate c then
    if head = .malformed then .malformed else .intermediates
  else if isParameter c then
    if head = .start ∨ head = .parameters then .parameters else .malformed
  else if isPrivate c then
    if head = .start then .parameters else .malformed
  else head

end Head

/-- What a terminal is in the middle of: nothing, a sequence of which only the escape character or
intermediate characters have come, the head of a control or of a device string, a string that ends
with the terminator, or a system command, which a bell ends. -/
inductive State where
  | ground
  | escape
  | intermediates
  | control (head : Head)
  | device (head : Head)
  | string
  | command
  deriving DecidableEq, Repr

namespace State

/-- What the character after the escape character opens. -/
def opened (c : Char) : State :=
  if c = '[' then .control .start
  else if c = 'P' then .device .start
  else if c = ']' then .command
  else if c = 'X' ∨ c = '^' ∨ c = '_' then .string
  else .ground

/-- The head of a device string with one more character; one that is malformed ends no earlier than
the string. -/
def extendDevice (head : Head) (c : Char) : State :=
  if isFinal c ∨ head.extend c = .malformed then .string else .device (head.extend c)

/-- The state after a character, and whether that is shown. -/
def next (s : State) (c : Char) : State × Bool :=
  if isCancel c then (.ground, false)
  else if c = '\x1b' then (.escape, false)
  else
    match s with
    | .ground => (.ground, isShown c)
    | .escape =>
      if isSpacing c then (.ground, true)
      else if isIntermediate c then (.intermediates, false)
      else if '0' ≤ c ∧ c ≤ '~' then (opened c, false)
      else (.escape, false)
    | .intermediates =>
      if isSpacing c then (.ground, true)
      else if '0' ≤ c ∧ c ≤ '~' then (.ground, false)
      else (.intermediates, false)
    | .control head =>
      if isSpacing c then (.ground, true)
      else if isFinal c then (.ground, false)
      else (.control (head.extend c), false)
    | .device head => (extendDevice head c, false)
    | .string => (if hasTerminator c then .ground else .string, false)
    | .command => (if c = '\x07' then .ground else .command, false)

end State

/-- What is shown of the rest of a text. -/
def visibleFrom : State → List Char → List Char
  | _, [] => []
  | s, c :: cs =>
    let (s, shown) := s.next c
    if shown then c :: visibleFrom s cs else visibleFrom s cs

/-- What is shown of a text. -/
def visible (text : String) : String :=
  String.ofList (visibleFrom .ground text.toList)

end LoadGenerator.Text.Terminal
