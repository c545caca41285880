import LoadGenerator.Count
import LoadGenerator.Outcome
import LoadGenerator.Text.Description

/-!
# The tally of one worker

A worker keeps its own tally, in which HTTP failures and transport errors are apart, and the moments
at which it started and stopped. Counts are raised one after the other and each sum is checked: the
first that does not fit ends the operation, and those raised before it stay raised. `merge` adds the
counts of another worker, `Spread.ofStats` says how the work of a run was shared out.
-/

namespace LoadGenerator

/-- The tally of one worker. Moments are nanoseconds of one clock. -/
structure WorkerStats where
  processed : UInt64 := 0
  successes : UInt64 := 0
  httpFailures : UInt64 := 0
  transportErrors : UInt64 := 0
  started : Option Nat := none
  ended : Option Nat := none
  deriving DecidableEq, Repr, Inhabited

namespace WorkerStats

inductive Entry where
  | processed
  | successes
  | httpFailures
  | transportErrors
  deriving DecidableEq, Repr

def get (s : WorkerStats) : Entry → UInt64
  | .processed => s.processed
  | .successes => s.successes
  | .httpFailures => s.httpFailures
  | .transportErrors => s.transportErrors

def set (s : WorkerStats) (n : UInt64) : Entry → WorkerStats
  | .processed => { s with processed := n }
  | .successes => { s with successes := n }
  | .httpFailures => { s with httpFailures := n }
  | .transportErrors => { s with transportErrors := n }

/-- Raises counts one after the other, up to the first that would overflow. -/
def raise (s : WorkerStats) : List (Entry × UInt64) → WorkerStats × Except Overflow Unit
  | [] => (s, .ok ())
  | (entry, n) :: rest =>
    match Count.add (s.get entry) n with
    | .ok total => (s.set total entry).raise rest
    | .error e => (s, .error e)

/-- The count that an outcome belongs to. -/
def Entry.ofOutcome : Outcome → Entry
  | .success => .successes
  | .httpFailure _ => .httpFailures
  | .transportFailure => .transportErrors

def record (s : WorkerStats) (outcome : Outcome) : WorkerStats × Except Overflow Unit :=
  s.raise [(.processed, 1), (.ofOutcome outcome, 1)]

/-- Adds the counts of another worker. -/
def merge (s other : WorkerStats) : WorkerStats × Except Overflow Unit :=
  s.raise [(.processed, other.processed), (.successes, other.successes),
    (.httpFailures, other.httpFailures), (.transportErrors, other.transportErrors)]

/-- Adds the counts of other workers, up to the first that would overflow. -/
def mergeAll (s : WorkerStats) : List WorkerStats → Except Overflow WorkerStats
  | [] => .ok s
  | other :: rest =>
    match s.merge other with
    | (total, .ok ()) => total.mergeAll rest
    | (_, .error e) => .error e

/-- The failed requests of either kind. -/
def failures (s : WorkerStats) : Except Overflow UInt64 :=
  Count.add s.httpFailures s.transportErrors

def start (s : WorkerStats) (now : Nat) : WorkerStats :=
  { s with started := some now }

def stop (s : WorkerStats) (now : Nat) : WorkerStats :=
  { s with ended := some now }

/-- The time from the start to the end, or to now while there is no end; an end before the start
counts as no time. -/
def elapsed (s : WorkerStats) (now : Nat) : Option Nat :=
  s.started.map fun start => s.ended.getD now - start

end WorkerStats

/-- How the work of a run was shared out among its workers. -/
structure Spread where
  totalWorkers : Nat := 0
  processed : UInt64 := 0
  transportErrors : UInt64 := 0
  minProcessed : UInt64 := 0
  maxProcessed : UInt64 := 0
  deriving DecidableEq, Repr

namespace Spread

/-- The spread over the tallies of some workers, if each of the four sums fits. -/
def ofStats (stats : List WorkerStats) : Except Overflow Spread :=
  match stats.map WorkerStats.processed with
  | [] => .ok {}
  | first :: rest =>
    match WorkerStats.mergeAll {} stats with
    | .error e => .error e
    | .ok totals => .ok {
        totalWorkers := stats.length
        processed := totals.processed
        transportErrors := totals.transportErrors
        minProcessed := rest.foldl min first
        maxProcessed := rest.foldl max first }

def describe (s : Spread) : String :=
  Text.describe "AggregatedWorkerStats" [
    ("total_workers", toString s.totalWorkers),
    ("processed", toString s.processed),
    ("transport_errors", toString s.transportErrors),
    ("min_processed", toString s.minProcessed),
    ("max_processed", toString s.maxProcessed)]

end Spread

end LoadGenerator
