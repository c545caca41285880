import LoadGenerator.Waitlist
import LoadGenerator.WorkQueue

/-!
# Using a queue by hand

A `Session` is a queue and the requests made of it: to put an item, to get one, or to be told when
every item put has been marked done. A request that has to wait does so in a `Waitlist`, under whose
number it deals with the queue, and it asks again when it is polled. `settle` polls until nothing
moves.
-/

namespace LoadGenerator.WorkQueue

variable {α : Type}

/-- What may have to wait at a queue. -/
inductive Request (α : Type) where
  | put (item : α)
  | get
  | join
  deriving DecidableEq, Repr

inductive Answer (α : Type) where
  | put (result : Except QueueFault Unit)
  | got (item : Option α)
  | joined
  deriving Repr

/-- Makes a request of a queue, or makes it again. -/
def attempt : Waitlist.Attempt (WorkQueue α) (Request α) (Answer α)
  | q, t, .put item =>
    match q.put t item with
    | (q, .done result) => (q, some (.put result))
    | (q, .waiting) => (q, none)
  | q, t, .get =>
    match q.get t with
    | (q, .done item) => (q, some (.got item))
    | (q, .waiting) => (q, none)
  | q, _, .join => (q, if q.drained then some .joined else none)

/-- A queue and the requests made of it. -/
structure Session (α : Type) where
  queue : WorkQueue α
  requests : Waitlist (Request α) (Answer α) := {}
  deriving Repr

namespace Session

inductive Action (α : Type) where
  | start (request : Request α)
  | poll (id : Ticket)
  | drop (id : Ticket)
  | markDone
  | close
  deriving DecidableEq, Repr

inductive Result (α : Type) where
  | started (id : Ticket) (answer : Option (Answer α))
  | dropped (wasWaiting : Bool)
  | marked (result : Except QueueFault Unit)
  | nothing
  deriving Repr

/-- Starts a request and tries it once. -/
def start (s : Session α) (request : Request α) : Session α × Result α :=
  let (queue, requests, answer) := s.requests.request attempt s.queue request
  (⟨queue, requests⟩, .started s.requests.next answer)

def poll (s : Session α) (id : Ticket) : Session α :=
  let (queue, requests) := s.requests.poll attempt s.queue id
  ⟨queue, requests⟩

def drop (s : Session α) (id : Ticket) : Session α :=
  if s.requests.isWaiting id then ⟨s.queue.leave id, s.requests.withdraw id⟩ else s

def act (s : Session α) : Action α → Session α × Result α
  | .start request => s.start request
  | .poll id => (s.poll id, .nothing)
  | .drop id => (s.drop id, .dropped (s.requests.isWaiting id))
  | .markDone =>
    match s.queue.markDone with
    | .ok queue => ({ s with queue }, .marked (.ok ()))
    | .error fault => (s, .marked (.error fault))
  | .close => ({ s with queue := s.queue.close }, .nothing)

def run (s : Session α) : List (Action α) → Session α
  | [] => s
  | action :: actions => (s.act action).1.run actions

/-- Polls the waiting requests until nothing moves. -/
def settle (s : Session α) : Session α :=
  let (queue, requests) := s.requests.settle attempt s.queue
  ⟨queue, requests⟩

end Session

end LoadGenerator.WorkQueue
