import LoadGenerator.Cancellation
import LoadGenerator.FileTree
import LoadGenerator.Json.Fault
import LoadGenerator.WorkQueue

/-!
# Errors of a run

Every way in which the program can fail. Two of them say that a run was cancelled, and only these
have an exit status of their own.
-/

namespace LoadGenerator

inductive Part where
  | transport
  | queue
  | counter
  | context
  deriving DecidableEq, Repr

namespace Part

def name : Part → String
  | .transport => "transport"
  | .queue => "queue"
  | .counter => "counter"
  | .context => "context"

end Part

inductive Error where
  | config (detail : String)
  | missing (part : Part)
  | queue (detail : String)
  | worker (detail : String)
  | interrupted
  | aborted (target reason : String)
  | io (fault : FileFault)
  | json (error : Json.Error)
  deriving DecidableEq, Repr

namespace Error

def message : Error → String
  | .config detail => s!"configuration error: {detail}"
  | .missing part => s!"missing required configuration: {part.name}"
  | .queue detail => s!"queue error: {detail}"
  | .worker detail => s!"worker error: {detail}"
  | .interrupted => "run interrupted"
  | .aborted target reason => s!"run aborted after transport failure against {target}: {reason}"
  | .io fault => s!"IO error: {fault.message}"
  | .json error => s!"JSON error: {error.message}"

/-- What lies behind an error that only passes it on. -/
def cause? : Error → Option String
  | .io fault => some fault.message
  | .json error => some error.message
  | _ => none

def isCancellation : Error → Bool
  | .interrupted => true
  | .aborted _ _ => true
  | _ => false

/-- The error of a request that a queue refuses. -/
def ofQueueFault (fault : QueueFault) : Error :=
  .queue fault.message

/-- The error of a queue that there cannot be. -/
def ofCapacityFault (fault : CapacityFault) : Error :=
  .config fault.message

/-- The error of a run that was cancelled for a reason. -/
def ofReason : CancelReason → Error
  | .interrupted => .interrupted
  | .transportFailure target message => .aborted target message

/-- The exit status after a cancelled run. -/
def exitStatus? : Error → Option Nat
  | .interrupted => some 1
  | .aborted _ _ => some 2
  | _ => none

end Error

end LoadGenerator
