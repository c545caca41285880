import LoadGenerator.Text.Description

/-!
# The bounded work queue

A `WorkQueue` hands items from those who put them to those who get them, first in, first out, and
holds at most `capacity` of them. Whoever takes part does so under a ticket. A `put` waits for a
slot and a `get` for its turn and for an item; both stand in line in the order in which they came.
`put` and `get` ask again when they are called again under the same ticket, so a participant that is
told to wait calls until it is served, or leaves by `leave`.

A slot is free, or granted to a participant that waits to put, or taken by a buffered item. The turn
to get belongs to nobody, or has been granted, or is held by a participant that has found the buffer
empty. `outstanding` counts the items put and not yet marked done, `drained` says that there are
none. Closing the queue refuses those who come to put, not those who already wait, and ends the wait
of the holder of the turn.
-/

namespace LoadGenerator

/-- The number under which a participant deals with a queue. -/
abbrev Ticket := Nat

/-- What a request made of a queue came to. -/
inductive Progress (β : Type) where
  | done (result : β)
  | waiting
  deriving DecidableEq, Repr

inductive QueueFault where
  | closed
  | unbalanced
  deriving DecidableEq, Repr

namespace QueueFault

def message : QueueFault → String
  | .closed => "put on a closed queue"
  | .unbalanced => "mark_done called more times than items were put"

end QueueFault

/-- Why there is no queue of some capacity. -/
inductive CapacityFault where
  | zero
  | tooLarge (capacity : UInt64)
  deriving DecidableEq, Repr

inductive Turn where
  | free
  | granted (ticket : Ticket)
  | held (ticket : Ticket)
  deriving DecidableEq, Repr

namespace Turn

def owner : Turn → Option Ticket
  | .free => none
  | .granted t => some t
  | .held t => some t

end Turn

/-- A bounded queue with those who wait at it. -/
structure WorkQueue (α : Type) where
  capacity : Nat
  free : Nat
  buffer : List α := []
  /-- who has been granted a slot and has not used it yet -/
  granted : List Ticket := []
  /-- who waits for a slot -/
  putters : List Ticket := []
  turn : Turn := .free
  /-- who waits for the turn -/
  getters : List Ticket := []
  outstanding : Nat := 0
  closed : Bool := false
  deriving DecidableEq, Repr

namespace WorkQueue

variable {α : Type}

/-- The greatest capacity of a queue. -/
def maxCapacity : Nat := 2305843009213693951

end WorkQueue

namespace CapacityFault

def message : CapacityFault → String
  | .zero => "queue capacity must be at least 1"
  | .tooLarge capacity =>
    s!"queue capacity {capacity} exceeds the maximum {WorkQueue.maxCapacity}"

end CapacityFault

namespace WorkQueue

variable {α : Type}

def ofCapacity (capacity : Nat) : WorkQueue α :=
  { capacity, free := capacity }

/-- An empty queue, if there may be one of that capacity. -/
def new (capacity : UInt64) : Except CapacityFault (WorkQueue α) :=
  if capacity = 0 then .error .zero
  else if maxCapacity < capacity.toNat then .error (.tooLarge capacity)
  else .ok (ofCapacity capacity.toNat)

/-- The number of slots that are not free. -/
def len (q : WorkQueue α) : Nat :=
  q.capacity - q.free

def isEmpty (q : WorkQueue α) : Bool :=
  q.len == 0

/-- Whether every item put has been marked done. -/
def drained (q : WorkQueue α) : Bool :=
  q.outstanding == 0

/-! ### Putting -/

/-- Gives back a slot: to the first who waits for one, or to nobody. -/
def releaseSlot (q : WorkQueue α) : WorkQueue α :=
  match q.putters with
  | [] => { q with free := q.free + 1 }
  | t :: rest => { q with granted := q.granted ++ [t], putters := rest }

/-- Buffers an item in a slot that is neither free nor granted. -/
def push (q : WorkQueue α) (item : α) : WorkQueue α :=
  { q with buffer := q.buffer ++ [item], outstanding := q.outstanding + 1 }

/-- Puts an item for a participant, who may have to wait for a slot. -/
def put (q : WorkQueue α) (t : Ticket) (item : α) :
    WorkQueue α × Progress (Except QueueFault Unit) :=
  if t ∈ q.granted then (({ q with granted := q.granted.erase t }).push item, .done (.ok ()))
  else if t ∈ q.putters then (q, .waiting)
  else if q.closed then (q, .done (.error .closed))
  else if 0 < q.free then (({ q with free := q.free - 1 }).push item, .done (.ok ()))
  else ({ q with putters := q.putters ++ [t] }, .waiting)

/-- Grants a free slot to a participant that comes to put an item and will do so later. -/
def reserve? (q : WorkQueue α) (t : Ticket) : Option (WorkQueue α) :=
  if q.closed ∨ q.free = 0 then none
  else some { q with free := q.free - 1, granted := q.granted ++ [t] }

/-! ### Getting -/

/-- Passes on the turn: to the first who waits for it, or to nobody. -/
def passTurn (q : WorkQueue α) : WorkQueue α :=
  match q.getters with
  | [] => { q with turn := .free }
  | t :: rest => { q with turn := .granted t, getters := rest }

/-- Serves the participant whose turn it is: with the next item, with none when the queue is closed
and its buffer empty, or not yet. -/
def serve (q : WorkQueue α) (t : Ticket) : WorkQueue α × Progress (Option α) :=
  match q.buffer with
  | item :: rest => (({ q with buffer := rest }).releaseSlot.passTurn, .done (some item))
  | [] => if q.closed then (q.passTurn, .done none) else ({ q with turn := .held t }, .waiting)

/-- Gets the next item for a participant, who may have to wait for the turn and for an item. -/
def get (q : WorkQueue α) (t : Ticket) : WorkQueue α × Progress (Option α) :=
  match q.turn.owner with
  | none => q.serve t
  | some owner =>
    if t = owner then q.serve t
    else if t ∈ q.getters then (q, .waiting)
    else ({ q with getters := q.getters ++ [t] }, .waiting)

/-! ### The rest -/

/-- A participant gives up waiting. A slot or the turn that it has been given goes on. -/
def leave (q : WorkQueue α) (t : Ticket) : WorkQueue α :=
  if t ∈ q.granted then ({ q with granted := q.granted.erase t }).releaseSlot
  else if t ∈ q.putters then { q with putters := q.putters.erase t }
  else if q.turn.owner = some t then q.passTurn
  else { q with getters := q.getters.erase t }

def markDone (q : WorkQueue α) : Except QueueFault (WorkQueue α) :=
  if q.outstanding = 0 then .error .unbalanced
  else .ok { q with outstanding := q.outstanding - 1 }

def close (q : WorkQueue α) : WorkQueue α :=
  { q with closed := true }

/-- The participants that would get further if they asked again now: those with a granted slot, the
one that the turn has been granted to, and the holder of the turn when there is an item or no hope
of one. -/
def callable (q : WorkQueue α) : List Ticket :=
  q.granted ++
    match q.turn with
    | .free => []
    | .granted t => [t]
    | .held t => if q.buffer.isEmpty && !q.closed then [] else [t]

def describe (q : WorkQueue α) : String :=
  Text.describe "WorkQueue" [
    ("capacity", toString q.capacity),
    ("available", toString q.free),
    ("outstanding", toString q.outstanding),
    ("closed", Text.describeBool q.closed)]

end WorkQueue

end LoadGenerator
