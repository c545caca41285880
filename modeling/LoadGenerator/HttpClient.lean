import LoadGenerator.Transport

/-!
# The HTTP client

A client gives back for each request, by its number, the status of the response or an error. It can
be made for every user agent that may stand in a header, unless the library it is made with has
other reasons not to. Without a network there is `HttpClient.offline`: a request ends before
anything is sent, since no address can be built for its target.
-/

namespace LoadGenerator

/-- What a client comes to for the requests to a target. -/
abbrev HttpClient := Target → Nat → Except TransportError UInt16

namespace HttpClient

def name : String := "reqwest"

/-- What a client gives back for a request, as every transport does. -/
def reply (client : HttpClient) (target : Target) (number : Nat) : Reply :=
  match client target number with
  | .ok status => .response status
  | .error e => .failure e

/-! ### Making a client -/

/-- Why a client cannot be made: what the library says, and what is behind that. -/
structure BuildFault where
  reason : String := "builder error"
  causes : List String := []
  deriving DecidableEq, Repr

def BuildFault.message (f : BuildFault) : String :=
  s!"failed to build HTTP client: {f.reason}"

/-- Whether a text may stand in a header: it has no controls but tabs. -/
def isHeaderText (text : String) : Bool :=
  text.toList.all fun c => c == '\t' || (' ' ≤ c && c != '\x7f')

def buildFailure : String :=
  BuildFault.message {}

/-! ### Without a network -/

/-- What becomes of a request to a target. -/
def get (_ : Target) : TransportError :=
  ⟨.other, "builder error"⟩

def offline : HttpClient :=
  fun target _ => .error (get target)

end HttpClient

end LoadGenerator
