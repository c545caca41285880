import LoadGenerator.Config
import LoadGenerator.Transport
import LoadGenerator.WorkerStats

/-!
# Workers

A worker takes items from the queue one by one, sends a request for each, and tallies how it ended.
It stops when the queue has no more items for it, when the run is cancelled, and after cancelling
the run itself, which it does under `FailurePolicy.abort` when a request gets no response. A
transport that breaks down takes the worker with it.
-/

namespace LoadGenerator

inductive Ending where
  | finished
  | failed (error : Error)
  | panicked
  | aborted
  deriving DecidableEq, Repr

inductive Phase where
  | seeking
  | calling (call : Nat)
  | ended (how : Ending)
  deriving DecidableEq, Repr

/-- A worker; `aborted` says that it has been told to drop everything. -/
structure Worker where
  id : UInt64
  policy : FailurePolicy := .goOn
  stats : WorkerStats := {}
  phase : Phase := .seeking
  aborted : Bool := false
  deriving DecidableEq, Repr

namespace Reply

/-- The outcome that a reply stands for; a breakdown has none. -/
def outcome? : Reply → Option Outcome
  | .response status => some (.ofStatus status)
  | .failure _ => some .transportFailure
  | .breakdown => none

end Reply

namespace Worker

/-- The parts that a worker needs, in the order in which they are asked for. -/
def needed : List Part :=
  [.transport, .queue, .counter, .context]

/-- The first part that is needed and not supplied. -/
def missing? (supplied : List Part) : Option Part :=
  needed.find? (!supplied.contains ·)

def hasEnded (w : Worker) : Bool :=
  match w.phase with
  | .ended _ => true
  | _ => false

def ending? (w : Worker) : Option Ending :=
  match w.phase with
  | .ended how => some how
  | _ => none

/-- The worker at its end. Time stands still for it: every moment is zero. -/
def finish (w : Worker) (how : Ending) : Worker :=
  { w with phase := .ended how, stats := w.stats.stop 0 }

/-- The reason for which the worker cancels the run after a reply. -/
def verdict? (w : Worker) (target : Target) : Reply → Option CancelReason
  | .failure e =>
    match w.policy with
    | .abort => some (.transportFailure target.display e.message)
    | .goOn => none
  | _ => none

/-- The error of a worker that cannot mark an item as done. -/
def markFailure (w : Worker) (fault : QueueFault) : Error :=
  .worker s!"worker {w.id} failed to mark item done: {(Error.ofQueueFault fault).message}"

def describe {α : Type} (w : Worker) (transport : String) (queue : WorkQueue α) : String :=
  Text.describe "Worker" [
    ("id", toString w.id),
    ("transport", Text.quote transport),
    ("queue", queue.describe),
    ("failure_policy", w.policy.describe)]

end Worker

end LoadGenerator
