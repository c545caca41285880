import LoadGenerator.Target

/-!
# The source of work

A run sends a fixed number of requests to one target. `WorkSource` hands out that many items, each
the target itself, one by one; everything else a consumer can do with it (`nth`, `take`, `count`,
`last`) is a loop over `next`.
-/

namespace LoadGenerator

/-- One unit of work: a single request to a target. -/
structure WorkItem where
  target : Target
  deriving DecidableEq, Repr, Inhabited

/-- The items of one target that are still to be handed out. -/
structure WorkSource where
  target : Target
  remaining : Nat
  deriving DecidableEq, Repr

namespace WorkSource

def new (target : Target) (total : UInt64) : WorkSource :=
  ⟨target, total.toNat⟩

def next (s : WorkSource) : Option WorkItem × WorkSource :=
  match s.remaining with
  | 0 => (none, s)
  | n + 1 => (some ⟨s.target⟩, { s with remaining := n })

/-- Passes over `k` items and hands out the one after them. -/
def nth : Nat → WorkSource → Option WorkItem × WorkSource
  | 0, s => s.next
  | k + 1, s =>
    match s.next with
    | (none, s') => (none, s')
    | (some _, s') => nth k s'

/-- Hands out up to `k` items. -/
def take : Nat → WorkSource → List WorkItem × WorkSource
  | 0, s => ([], s)
  | k + 1, s =>
    match s.next with
    | (none, s') => ([], s')
    | (some item, s') => let (items, s'') := take k s'; (item :: items, s'')

/-- The least and the greatest number of items still to come, which a source knows to be equal. -/
def sizeHint (s : WorkSource) : Nat × Nat :=
  (s.remaining, s.remaining)

/-- The number of items still to come, provided that both bounds of the hint say the same. -/
def len? (s : WorkSource) : Option Nat :=
  let (least, greatest) := s.sizeHint
  if least = greatest then some least else none

def toList (s : WorkSource) : List WorkItem :=
  (s.take s.remaining).1

def count (s : WorkSource) : Nat :=
  s.toList.length

def last (s : WorkSource) : Option WorkItem :=
  s.toList.getLast?

end WorkSource

end LoadGenerator
