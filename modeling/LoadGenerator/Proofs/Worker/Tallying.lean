import LoadGenerator.Proofs.Tallies
import LoadGenerator.Worker

/-!
# What a worker on its own has to do

A worker that nobody disturbs sends a request for one item after the other, and under
`FailurePolicy.abort` it stops with the first that gets no response (`callsDue`). What it and the
counter say at any time is how many replies there have been of each kind (`Tallies`).
-/

namespace LoadGenerator

namespace Reply

def isSuccess : Reply → Bool
  | .response status => status == 200
  | _ => false

def isHttpFailure : Reply → Bool
  | .response status => status != 200
  | _ => false

/-- There is no response. -/
def isFailure : Reply → Bool
  | .failure _ => true
  | _ => false

theorem kind_of_outcome {reply : Reply} {outcome : Outcome} (h : reply.outcome? = some outcome) :
    reply.isSuccess = outcome.isSuccess ∧ reply.isFailure = outcome.isTransportFailure ∧
      reply.isHttpFailure = (!outcome.isSuccess && !outcome.isTransportFailure) := by
  cases reply with
  | response status =>
    cases h
    by_cases hs : status = 200
    · simp [isSuccess, isFailure, isHttpFailure, Outcome.ofStatus, hs, Outcome.isSuccess,
        Outcome.isTransportFailure]
    · simp [isSuccess, isFailure, isHttpFailure, Outcome.ofStatus, hs, Outcome.isSuccess,
        Outcome.isTransportFailure]
  | failure error =>
    cases h
    exact ⟨rfl, rfl, rfl⟩
  | breakdown => cases h

end Reply

variable {replies : List Reply} {reply : Reply} {outcome : Outcome} {stats : WorkerStats}
  {counter : Counter}

/-- The tally of a worker and the counter say what replies there have been. -/
structure Tallies (replies : List Reply) (stats : WorkerStats) (counter : Counter) : Prop where
  processed : stats.processed.toNat = replies.length
  successes : stats.successes.toNat = replies.countP Reply.isSuccess
  httpFailures : stats.httpFailures.toNat = replies.countP Reply.isHttpFailure
  transportErrors : stats.transportErrors.toNat = replies.countP Reply.isFailure
  allSuccesses : counter.successes.toNat = replies.countP Reply.isSuccess
  allFailures : counter.failures.toNat =
    replies.countP Reply.isHttpFailure + replies.countP Reply.isFailure
  allTransportErrors : counter.transportErrors.toNat = replies.countP Reply.isFailure

namespace Tallies

theorem nil : Tallies [] {} {} :=
  ⟨rfl, rfl, rfl, rfl, rfl, rfl, rfl⟩

theorem start (h : Tallies replies stats counter) (now : Nat) :
    Tallies replies (stats.start now) counter :=
  ⟨h.processed, h.successes, h.httpFailures, h.transportErrors, h.allSuccesses, h.allFailures,
    h.allTransportErrors⟩

theorem stop (h : Tallies replies stats counter) (now : Nat) :
    Tallies replies (stats.stop now) counter :=
  ⟨h.processed, h.successes, h.httpFailures, h.transportErrors, h.allSuccesses, h.allFailures,
    h.allTransportErrors⟩

theorem failures_le (replies : List Reply) :
    replies.countP Reply.isHttpFailure + replies.countP Reply.isFailure ≤ replies.length := by
  induction replies with
  | nil => exact Nat.le_refl 0
  | cons reply rest ih =>
    simp only [List.countP_cons, List.length_cons]
    cases reply with
    | response status =>
      simp only [Reply.isFailure, Bool.false_eq_true, if_false]
      split <;> omega
    | failure | breakdown =>
      simp only [Reply.isFailure, Reply.isHttpFailure, Bool.false_eq_true, if_false, if_true]
      omega

theorem fits (h : Tallies replies stats counter) (hroom : replies.length + 1 < UInt64.size) :
    (∀ x, (stats.get x).toNat + 1 < UInt64.size) ∧ counter.Roomy := by
  have hle : ∀ p : Reply → Bool, replies.countP p ≤ replies.length := fun _ => List.countP_le_length
  have hsuccess := hle Reply.isSuccess
  have hfailure := hle Reply.isFailure
  have hhttp := hle Reply.isHttpFailure
  have hboth := failures_le replies
  constructor
  · intro x
    cases x with
    | processed => exact h.processed ▸ hroom
    | successes => exact h.successes ▸ Nat.lt_of_le_of_lt (Nat.succ_le_succ hsuccess) hroom
    | httpFailures => exact h.httpFailures ▸ Nat.lt_of_le_of_lt (Nat.succ_le_succ hhttp) hroom
    | transportErrors =>
      exact h.transportErrors ▸ Nat.lt_of_le_of_lt (Nat.succ_le_succ hfailure) hroom
  · refine ⟨?_, ?_, ?_⟩
    · exact h.allSuccesses ▸ Nat.lt_of_le_of_lt (Nat.succ_le_succ hsuccess) hroom
    · exact h.allFailures ▸ Nat.lt_of_le_of_lt (Nat.succ_le_succ hboth) hroom
    · exact h.allTransportErrors ▸ Nat.lt_of_le_of_lt (Nat.succ_le_succ hfailure) hroom

/-- One more reply is recorded. -/
theorem record (h : Tallies replies stats counter) (hroom : replies.length + 1 < UInt64.size)
    (ho : reply.outcome? = some outcome) :
    Tallies (replies ++ [reply]) (stats.record outcome).1 (counter.record outcome) := by
  obtain ⟨hstats, hroomy⟩ := h.fits hroom
  obtain ⟨-, hget⟩ := WorkerStats.record_ok hstats outcome
  obtain ⟨hsuccess, hfailure, hhttp⟩ := Reply.kind_of_outcome ho
  have hone : ∀ p : Reply → Bool,
      (replies ++ [reply]).countP p = replies.countP p + if p reply then 1 else 0 := by
    intro p
    rw [List.countP_append, List.countP_singleton]
  have hprocessed := hget .processed
  have hsuccesses := hget .successes
  have hhttpFailures := hget .httpFailures
  have htransportErrors := hget .transportErrors
  have hallSuccesses := Counter.successes_record hroomy outcome
  have hallFailures := Counter.failures_record hroomy outcome
  have hallTransportErrors := Counter.transportErrors_record hroomy outcome
  constructor
  · refine hprocessed.trans ?_
    rw [List.length_append, ← h.processed]
    rfl
  all_goals
    simp only [hone, hsuccess, hfailure, hhttp]
  · refine hsuccesses.trans (congrArg₂ (· + ·) h.successes ?_)
    cases outcome <;> rfl
  · refine hhttpFailures.trans (congrArg₂ (· + ·) h.httpFailures ?_)
    cases outcome <;> rfl
  · refine htransportErrors.trans (congrArg₂ (· + ·) h.transportErrors ?_)
    cases outcome <;> rfl
  · rw [hallSuccesses, h.allSuccesses]
  · rw [hallFailures, h.allFailures]
    cases outcome <;> simp [Outcome.isSuccess, Outcome.isTransportFailure] <;> omega
  · rw [hallTransportErrors, h.allTransportErrors]

end Tallies

/-! ### How many calls there are to make -/

/-- The replies to the first calls, which are numbered from one on. -/
def firstReplies (replies : Nat → Reply) (n : Nat) : List Reply :=
  (List.range n).map fun i => replies (i + 1)

/-- The calls that a worker makes for some items: one for each, but under `FailurePolicy.abort` none
after the first that gets no response. -/
def callsDue (policy : FailurePolicy) (replies : Nat → Reply) (items : Nat) : Nat :=
  match policy with
  | .goOn => items
  | .abort => min items ((firstReplies replies items).findIdx Reply.isFailure + 1)

/-- None of the first calls makes the worker stop. -/
def Unbroken (policy : FailurePolicy) (replies : Nat → Reply) (k : Nat) : Prop :=
  policy = .abort → ∀ i < k, (replies (i + 1)).isFailure = false

section CallsDue

variable {policy : FailurePolicy} {replies : Nat → Reply} {k n : Nat}

theorem length_firstReplies (replies : Nat → Reply) (n : Nat) :
    (firstReplies replies n).length = n := by
  simp [firstReplies]

theorem firstReplies_succ (replies : Nat → Reply) (n : Nat) :
    firstReplies replies (n + 1) = firstReplies replies n ++ [replies (n + 1)] := by
  simp [firstReplies, List.range_succ]

theorem Unbroken.succ (h : Unbroken policy replies k)
    (hk : policy = .abort → (replies (k + 1)).isFailure = false) :
    Unbroken policy replies (k + 1) := by
  intro hp i hi
  rcases Nat.lt_succ_iff_lt_or_eq.1 hi with hi | rfl
  · exact h hp i hi
  · exact hk hp

theorem callsDue_of_unbroken (h : Unbroken policy replies n) : callsDue policy replies n = n := by
  cases policy with
  | goOn => rfl
  | abort =>
    have hnone : (firstReplies replies n).findIdx Reply.isFailure = n := by
      rw [List.findIdx_eq_length.2, length_firstReplies]
      intro reply hreply
      obtain ⟨i, hi, rfl⟩ := List.mem_map.1 hreply
      exact h rfl i (List.mem_range.1 hi)
    rw [callsDue, hnone]
    exact Nat.min_eq_left (Nat.le_succ n)

theorem callsDue_of_failure (h : Unbroken .abort replies k) (hk : k < n)
    (hfailure : (replies (k + 1)).isFailure = true) : callsDue .abort replies n = k + 1 := by
  have hfirst : (firstReplies replies n).findIdx Reply.isFailure = k := by
    rw [List.findIdx_eq (by rwa [length_firstReplies])]
    simp only [firstReplies, List.getElem_map, List.getElem_range]
    exact ⟨hfailure, fun i hi => h rfl i hi⟩
  rw [callsDue, hfirst]
  exact Nat.min_eq_right hk

end CallsDue

end LoadGenerator
