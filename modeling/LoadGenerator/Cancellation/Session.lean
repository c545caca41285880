import LoadGenerator.Cancellation
import LoadGenerator.Waitlist

/-!
# Using contexts by hand

A `Session` is a number of contexts and those who wait at one of them until it is cancelled.
-/

namespace LoadGenerator.Contexts

/-- Looks whether the context that is waited at has been cancelled. -/
def attempt : Waitlist.Attempt Contexts Nat CancelReason :=
  fun c _ i => (c, (c.get i).reason)

/-- Contexts and those who wait at them, each at the context of a number. -/
structure Session where
  contexts : Contexts := {}
  waits : Waitlist Nat CancelReason := {}
  deriving Repr

namespace Session

inductive Action where
  | new
  | clone (context : Nat)
  | cancel (context : Nat) (reason : CancelReason)
  | wait (context : Nat)
  | poll (id : Nat)
  | drop (id : Nat)
  deriving DecidableEq, Repr

inductive Result where
  | context (number : Nat)
  | cancelled (counts : Bool)
  | started (id : Nat) (answer : Option CancelReason)
  | dropped (wasWaiting : Bool)
  | nothing
  deriving DecidableEq, Repr

def act (s : Session) : Action → Session × Result
  | .new =>
    let (contexts, number) := s.contexts.new
    ({ s with contexts }, .context number)
  | .clone i =>
    let (contexts, number) := s.contexts.clone i
    ({ s with contexts }, .context number)
  | .cancel i reason =>
    let (contexts, counts) := s.contexts.cancel i reason
    ({ s with contexts }, .cancelled counts)
  | .wait i =>
    let (contexts, waits, answer) := s.waits.request attempt s.contexts i
    (⟨contexts, waits⟩, .started s.waits.next answer)
  | .poll id =>
    let (contexts, waits) := s.waits.poll attempt s.contexts id
    (⟨contexts, waits⟩, .nothing)
  | .drop id => ({ s with waits := s.waits.withdraw id }, .dropped (s.waits.isWaiting id))

def run (s : Session) : List Action → Session
  | [] => s
  | action :: actions => (s.act action).1.run actions

/-- Polls those who wait until nothing moves. -/
def settle (s : Session) : Session :=
  let (contexts, waits) := s.waits.settle attempt s.contexts
  ⟨contexts, waits⟩

end Session

end LoadGenerator.Contexts
