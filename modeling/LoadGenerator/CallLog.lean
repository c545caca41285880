import LoadGenerator.Transport

/-!
# The calls made of a transport

Every request sent is a call, and the calls are numbered from one in the order in which they start.
A call waits for a reply, then the reply waits for the caller to take it; a caller that goes away
leaves its call abandoned. The log keeps all calls, also those of earlier runs.
-/

namespace LoadGenerator

inductive CallState where
  | waiting
  | replied (reply : Reply)
  | returned (reply : Reply)
  | abandoned
  deriving DecidableEq, Repr

namespace CallState

/-- Whether the caller still depends on the call. -/
def isInFlight : CallState → Bool
  | .waiting => true
  | .replied _ => true
  | _ => false

end CallState

structure Call where
  target : Target
  state : CallState := .waiting
  deriving DecidableEq, Repr

/-- All calls, in the order in which they started. -/
structure CallLog where
  calls : Array Call := #[]
  deriving Repr

namespace CallLog

def size (log : CallLog) : Nat :=
  log.calls.size

def get? (log : CallLog) : Nat → Option Call
  | 0 => none
  | n + 1 => log.calls[n]?

def state? (log : CallLog) (n : Nat) : Option CallState :=
  (log.get? n).map Call.state

/-- Starts the next call, whose number is the new size. -/
def start (log : CallLog) (target : Target) : CallLog :=
  ⟨log.calls.push { target }⟩

def set (log : CallLog) (n : Nat) (state : CallState) : CallLog :=
  match n with
  | 0 => log
  | n + 1 => ⟨log.calls.modify n fun call => { call with state }⟩

def isWaiting (log : CallLog) (n : Nat) : Bool :=
  log.state? n == some .waiting

/-- The reply that waits for the caller to take it. -/
def reply? (log : CallLog) (n : Nat) : Option Reply :=
  match log.state? n with
  | some (.replied reply) => some reply
  | _ => none

/-- Replies to a call if it waits for that. -/
def reply (log : CallLog) (n : Nat) (reply : Reply) : CallLog :=
  if log.isWaiting n then log.set n (.replied reply) else log

/-- Starts the next call and replies to it at once, if there is a reply. -/
def startWith (log : CallLog) (target : Target) : Option Reply → CallLog
  | none => log.start target
  | some r => (log.start target).reply (log.size + 1) r

def filter (log : CallLog) (p : CallState → Bool) : List Nat :=
  (log.calls.toList.zipIdx 1).filterMap fun (call, n) => if p call.state then some n else none

def waiting (log : CallLog) : List Nat :=
  log.filter (· == .waiting)

def inFlight (log : CallLog) : List Nat :=
  log.filter CallState.isInFlight

def abandoned (log : CallLog) : List Nat :=
  log.filter (· == .abandoned)

def abandonedSince (log before : CallLog) : List Nat :=
  log.abandoned.filter fun n => before.state? n != some .abandoned

/-- The calls that have started since the log was as it was before, with their targets. -/
def startedSince (log before : CallLog) : List (Nat × Target) :=
  ((log.calls.toList.zipIdx 1).drop before.size).map fun (call, n) => (n, call.target)

end CallLog

end LoadGenerator
