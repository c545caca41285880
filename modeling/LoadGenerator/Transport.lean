import LoadGenerator.Target

/-!
# What becomes of a request

A `Reply` is what a transport gives back for one request: the status of a response, or an error when
there is no response; a transport may also break down, and the worker that called it with it.
-/

namespace LoadGenerator

inductive TransportFault where
  | connect
  | timeout
  | protocol
  | other
  deriving DecidableEq, Repr

namespace TransportFault

def label : TransportFault → String
  | .connect => "connect error"
  | .timeout => "timed out"
  | .protocol => "protocol error"
  | .other => "transport error"

end TransportFault

/-- Why a request got no response. -/
structure TransportError where
  fault : TransportFault
  detail : String
  deriving DecidableEq, Repr

namespace TransportError

def message (e : TransportError) : String :=
  s!"{e.fault.label}: {e.detail}"

end TransportError

/-- What a transport gives back for one request. -/
inductive Reply where
  | response (status : UInt16)
  | failure (error : TransportError)
  | breakdown
  deriving DecidableEq, Repr

end LoadGenerator
