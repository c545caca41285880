import LoadGenerator.Count
import LoadGenerator.Outcome

/-!
# The shared tally of a run

Every worker records its outcomes in one `Counter`. A transport failure is a failure and is counted
on its own as well, so successes and failures together are the outcomes recorded. A `Snapshot` is
the tally read off at one moment; its sum and difference are checked, since a snapshot may also come
from a file.
-/

namespace LoadGenerator

/-- The numbers of a tally: transport errors are part of the failures. -/
structure Snapshot where
  successes : UInt64 := 0
  failures : UInt64 := 0
  transportErrors : UInt64 := 0
  deriving DecidableEq, Repr, Inhabited

namespace Snapshot

/-- The number of outcomes recorded. -/
def processed (s : Snapshot) : Except Overflow UInt64 :=
  Count.add s.successes s.failures

/-- The failures that came with an HTTP status. -/
def httpFailures (s : Snapshot) : Except Overflow UInt64 :=
  Count.sub s.failures s.transportErrors

end Snapshot

/-- The tally that the workers of a run share. Its counts wrap around at 64 bits. -/
structure Counter where
  successes : UInt64 := 0
  failures : UInt64 := 0
  transportErrors : UInt64 := 0
  deriving DecidableEq, Repr, Inhabited

namespace Counter

def record (c : Counter) : Outcome → Counter
  | .success => { c with successes := c.successes + 1 }
  | .httpFailure _ => { c with failures := c.failures + 1 }
  | .transportFailure =>
    { c with transportErrors := c.transportErrors + 1, failures := c.failures + 1 }

def recordAll (c : Counter) (outcomes : List Outcome) : Counter :=
  outcomes.foldl record c

/-- The numbers of the tally as they are now. -/
def snapshot (c : Counter) : Snapshot :=
  ⟨c.successes, c.failures, c.transportErrors⟩

end Counter

end LoadGenerator
