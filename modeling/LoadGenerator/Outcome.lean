/-!
# Outcomes of single requests

A request succeeds when it is answered 200; any other status is an HTTP failure, and a request that
gets no status at all is a transport failure.
-/

namespace LoadGenerator

inductive Outcome where
  | success
  | httpFailure (status : UInt16)
  | transportFailure
  deriving DecidableEq, Repr

namespace Outcome

/-- The outcome of a request answered with a status; only 200 is a success. -/
def ofStatus (status : UInt16) : Outcome :=
  if status = 200 then .success else .httpFailure status

def isSuccess : Outcome → Bool
  | .success => true
  | _ => false

def display : Outcome → String
  | .success => "success"
  | .httpFailure status => s!"http {status.toNat}"
  | .transportFailure => "transport failure"

def describe : Outcome → String
  | .success => "Success"
  | .httpFailure status => s!"HttpFailure({status.toNat})"
  | .transportFailure => "TransportFailure"

end Outcome

end LoadGenerator
