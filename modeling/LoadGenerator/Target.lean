import LoadGenerator.Text.Blank
import LoadGenerator.Text.Numeral

/-!
# Target addresses

A `Target` is the `host:port` that every request of a run is sent to. `Target.parse` reads one from
a text, with blanks around it dropped; the checks are made in the order of the constructors of
`TargetFault`, and the first that fails is the one reported. The host keeps the brackets of an IPv6
address, so the printed form is always `host:port`.
-/

namespace LoadGenerator

/-- A host, with its brackets when it is an IPv6 address, and a port. -/
structure Target where
  host : String
  port : UInt16
  deriving DecidableEq, Repr, Inhabited

/-- Why a text is no target, in the order of the checks. -/
inductive TargetFault where
  | scheme
  | missingPort
  | emptyHost
  | invalidHost
  | malformedBrackets
  | missingBrackets
  | invalidPort
  deriving DecidableEq, Repr

/-- A text, without the blanks around it, and why it is no target. -/
structure TargetError where
  text : String
  fault : TargetFault
  deriving DecidableEq, Repr

namespace TargetFault

/-- What the text of a target with this fault is said to be. -/
def predicate : TargetFault → String
  | .scheme => "must be host:port without a scheme"
  | .missingPort => "is missing a port"
  | .emptyHost => "has an empty host"
  | .invalidHost => "has an invalid host"
  | .malformedBrackets => "has a malformed IPv6 host"
  | .missingBrackets => "must bracket IPv6 hosts, e.g. [::1]:9000"
  | .invalidPort => "has an invalid port"

end TargetFault

namespace TargetError

def message (e : TargetError) : String :=
  s!"target '{e.text}' {e.fault.predicate}"

end TargetError

namespace Target

/-- The printed form, `host:port`. -/
def display (t : Target) : String :=
  s!"{t.host}:{t.port.toNat}"

/-- The address requested: the root path over plain HTTP. -/
def url (t : Target) : String :=
  s!"http://{t.host}:{t.port.toNat}/"

instance : ToString Target := ⟨display⟩

/-! ### Reading -/

/-- Whether `://` occurs in a text. -/
def hasScheme : List Char → Bool
  | [] => false
  | c :: cs => [':', '/', '/'].isPrefixOf (c :: cs) || hasScheme cs

/-- The parts of a text before and after its last colon. -/
def splitLastColon : List Char → Option (List Char × List Char)
  | [] => none
  | c :: cs =>
    match splitLastColon cs with
    | some (host, port) => some (c :: host, port)
    | none => if c = ':' then some ([], cs) else none

/-- The first of the checks on a host that fails. -/
def hostFault? (host : List Char) : Option TargetFault :=
  if host.isEmpty then some .emptyHost
  else if host.any Text.isBlank || host.contains '/' then some .invalidHost
  else if host.head? = some '[' then
    if host.getLast? ≠ some ']' ∨ Text.byteLength host < 3 then some .malformedBrackets else none
  else if host.contains ':' then some .missingBrackets
  else none

/-- Reads a text without blanks around it. -/
def parseTrimmed (text : List Char) : Except TargetFault Target :=
  if hasScheme text then .error .scheme
  else
    match splitLastColon text with
    | none => .error .missingPort
    | some (host, port) =>
      match hostFault? host with
      | some fault => .error fault
      | none =>
        match Numeral.readUInt16 port with
        | .error _ => .error .invalidPort
        | .ok port => .ok ⟨String.ofList host, port⟩

/-- Reads a target from a text; blanks around it do not count. -/
def parse (s : String) : Except TargetError Target :=
  let text := Text.trim s.toList
  (parseTrimmed text).mapError (⟨String.ofList text, ·⟩)

end Target

end LoadGenerator
