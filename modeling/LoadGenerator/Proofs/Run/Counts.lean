import LoadGenerator.Proofs.Run.Accounts
import LoadGenerator.Proofs.Tallies

/-!
# What the tallies of a run say

`Counts`: the shared counter and the tallies of the workers, summed up over all of them, say how the
calls of the run ended that have been answered. A run answers fewer than 2⁶⁴ calls, so no count
wraps around. `Counts` is kept by whatever leaves the tallies and the answered calls as they are,
and by an answer, which the worker records in both tallies (`Counts.answer`).
-/

namespace LoadGenerator

/-- Whether an entry of a tally counts a call in some state. -/
def WorkerStats.Entry.sees : WorkerStats.Entry → CallState → Bool
  | .processed => CallState.isAnswered
  | .successes => CallState.isSuccess
  | .httpFailures => CallState.isHttpFailure
  | .transportErrors => CallState.isTransportError

namespace CallState

variable {s : CallState} {reply : Reply} {outcome : Outcome}

theorem of_not_isAnswered (h : s.isAnswered = false) : s.isSuccess = false ∧ s.isFailure = false ∧
    s.isTransportError = false ∧ ∀ x : WorkerStats.Entry, x.sees s = false := by
  rcases s with _ | _ | (_ | _ | _) | _
  case returned.response => cases h
  case returned.failure => cases h
  all_goals refine ⟨rfl, rfl, rfl, fun x => ?_⟩; cases x <;> rfl

theorem isAnswered_returned (h : reply.outcome? = some outcome) :
    isAnswered (.returned reply) = true := by
  cases reply with
  | response | failure => rfl
  | breakdown => cases h

theorem counts_returned (h : reply.outcome? = some outcome) :
    isSuccess (.returned reply) = outcome.isSuccess ∧
      isFailure (.returned reply) = !outcome.isSuccess ∧
      isTransportError (.returned reply) = outcome.isTransportFailure ∧
      ∀ x : WorkerStats.Entry, x.sees (.returned reply) = x.counts outcome := by
  cases reply with
  | breakdown => cases h
  | failure error =>
    cases h
    refine ⟨rfl, rfl, rfl, fun x => ?_⟩
    cases x <;> rfl
  | response status =>
    cases h
    by_cases hs : status = 200
    · subst hs
      refine ⟨rfl, rfl, rfl, fun x => ?_⟩
      cases x <;> rfl
    · have hbeq : (status == 200) = false := beq_eq_false_iff_ne.2 hs
      have hof : Outcome.ofStatus status = .httpFailure status := if_neg hs
      have hsuccess : isSuccess (.returned (.response status)) = false := hbeq
      have hfailure : isFailure (.returned (.response status)) = true := by
        rw [isFailure, hsuccess]
        rfl
      have hhttp : isHttpFailure (.returned (.response status)) = true := by
        rw [isHttpFailure, hfailure]
        rfl
      rw [hof, hfailure, hsuccess]
      refine ⟨rfl, rfl, rfl, fun x => ?_⟩
      cases x with
      | processed => rfl
      | successes => exact hsuccess
      | httpFailures => exact hhttp
      | transportErrors => rfl

end CallState

namespace Worker

variable {w : Worker} {reply : Reply} {outcome : Outcome}

theorem call?_afterItem (w : Worker) (outcome : Outcome) (verdict : Option CancelReason) :
    (w.afterItem outcome verdict).call? = none := by
  cases verdict <;> rfl

/-- A worker that has recorded a reply is not lost, and neither is the call. -/
theorem isLost_afterItem (h : reply.outcome? = some outcome) (verdict : Option CancelReason) :
    (w.afterItem outcome verdict).isLost = CallState.isLost (.returned reply) := by
  cases reply with
  | response | failure => cases verdict <;> rfl
  | breakdown => cases h

theorem get_stats_afterItem (w : Worker) (outcome : Outcome) (verdict : Option CancelReason)
    (x : WorkerStats.Entry) :
    (w.afterItem outcome verdict).stats.get x = (w.stats.record outcome).1.get x := by
  cases verdict with
  | none => rfl
  | some reason => exact WorkerStats.get_stop _ 0 x

end Worker

/-- The counter and the tallies of the workers count the calls made since `before`. -/
structure Counts (before log : CallLog) (counter : Counter) (tasks : List Task) : Prop where
  successes : counter.successes.toNat = log.countSince before CallState.isSuccess
  failures : counter.failures.toNat = log.countSince before CallState.isFailure
  transportErrors : counter.transportErrors.toNat = log.countSince before CallState.isTransportError
  shares : ∀ x : WorkerStats.Entry,
    sumWorkers (fun w => (w.stats.get x).toNat) tasks = log.countSince before x.sees

namespace Counts

variable {before log : CallLog} {counter : Counter} {tasks tasks' : List Task} {t : TaskId}
  {w v : Worker} {d d' : RunDriver} {call : Nat} {s u : CallState}

theorem start (log : CallLog) (d : RunDriver) : Counts log log {} [.driver d] := by
  refine ⟨?_, ?_, ?_, fun x => ?_⟩
  all_goals rw [CallLog.countSince_self]; rfl

theorem of_sums (h : Counts before log counter tasks)
    (hsum : ∀ x : WorkerStats.Entry, sumWorkers (fun w => (w.stats.get x).toNat) tasks' =
      sumWorkers (fun w => (w.stats.get x).toNat) tasks) : Counts before log counter tasks' :=
  ⟨h.successes, h.failures, h.transportErrors, fun x => (hsum x).trans (h.shares x)⟩

theorem setDriver (h : Counts before log counter tasks) (ht : tasks[0]? = some (.driver d)) :
    Counts before log counter (tasks.set 0 (.driver d')) :=
  h.of_sums fun _ => sumWorkers_set_driver ht

theorem spawn (h : Counts before log counter tasks) (size : Nat) (policy : FailurePolicy) :
    Counts before log counter (tasks ++ Engine.poolWorkers size policy) :=
  h.of_sums fun x => Engine.sumWorkers_append_poolWorkers (fun _ => by cases x <;> rfl) tasks

theorem abortAll {e : Engine} (h : Counts before log counter e.tasks) (members : List TaskId) :
    Counts before log counter (e.abortAll members).tasks :=
  h.of_sums fun _ => Engine.sumWorkers_abortAll (fun _ => rfl) e members

theorem rest (h : Counts before log counter tasks) (ht : tasks[t]? = some (.worker w))
    (hv : ∀ x, v.stats.get x = w.stats.get x) :
    Counts before log counter (tasks.set t (.worker v)) :=
  h.of_sums fun x => sumWorkers_set_of_eq ht (congrArg UInt64.toNat (hv x))

theorem of_countSince {log' : CallLog} (h : Counts before log counter tasks)
    (hsuccess : log'.countSince before CallState.isSuccess = log.countSince before CallState.isSuccess)
    (hfailure : log'.countSince before CallState.isFailure = log.countSince before CallState.isFailure)
    (herror : log'.countSince before CallState.isTransportError =
      log.countSince before CallState.isTransportError)
    (hsees : ∀ x : WorkerStats.Entry, log'.countSince before x.sees = log.countSince before x.sees) :
    Counts before log' counter tasks :=
  ⟨h.successes.trans hsuccess.symm, h.failures.trans hfailure.symm,
    h.transportErrors.trans herror.symm, fun x => (h.shares x).trans (hsees x).symm⟩

theorem reply (h : Counts before log counter tasks) (n : Nat) (r : Reply) :
    Counts before (log.reply n r) counter tasks :=
  h.of_countSince (CallLog.countSince_reply n r rfl) (CallLog.countSince_reply n r rfl)
    (CallLog.countSince_reply n r rfl) fun x => CallLog.countSince_reply n r (by cases x <;> rfl)

theorem take (h : Counts before log counter tasks) (hbefore : before.size ≤ log.size)
    (target : Target) (r : Option Reply) : Counts before (log.startWith target r) counter tasks := by
  have hkeep : ∀ p : CallState → Bool, p (.ofReply? r) = false →
      (log.startWith target r).countSince before p = log.countSince before p := by
    intro p hp
    rw [CallLog.countSince_startWith _ _ hbefore, hp]
    rfl
  have hnot : CallState.isAnswered (.ofReply? r) = false :=
    (CallState.of_isInFlight (CallState.isInFlight_ofReply? r)).1
  obtain ⟨hsuccess, hfailure, herror, hsees⟩ := CallState.of_not_isAnswered hnot
  exact h.of_countSince (hkeep _ hsuccess) (hkeep _ hfailure) (hkeep _ herror)
    fun x => hkeep _ (hsees x)

theorem drop (h : Counts before log counter tasks) (hn : before.size < call)
    (hs : log.state? call = some s) (hflight : s.isInFlight = true) (hu : u.isAnswered = false) :
    Counts before (log.set call u) counter tasks := by
  have hkeep : ∀ p : CallState → Bool, p s = false → p u = false →
      (log.set call u).countSince before p = log.countSince before p := by
    intro p hps hpu
    rw [CallLog.countSince_set_of_not hn hs hps, hpu]
    rfl
  have hold := CallState.of_not_isAnswered (CallState.of_isInFlight hflight).1
  have hnew := CallState.of_not_isAnswered hu
  exact h.of_countSince (hkeep _ hold.1 hnew.1) (hkeep _ hold.2.1 hnew.2.1)
    (hkeep _ hold.2.2.1 hnew.2.2.1) fun x => hkeep _ (hold.2.2.2 x) (hnew.2.2.2 x)

/-- Successes and failures are the answers, and transport errors are failures. -/
theorem answered_eq (h : Counts before log counter tasks) :
    counter.successes.toNat + counter.failures.toNat =
      log.countSince before CallState.isAnswered ∧
    counter.transportErrors.toNat ≤ counter.failures.toNat := by
  have hanswered := CallLog.countSince_isAnswered log before
  have hfailure := CallLog.countSince_isFailure log before
  rw [h.successes, h.failures, h.transportErrors]
  omega

theorem share_le (h : Counts before log counter tasks) (ht : tasks[t]? = some (.worker w))
    (x : WorkerStats.Entry) :
    (w.stats.get x).toNat ≤ log.countSince before CallState.isAnswered := by
  have hle : (w.stats.get x).toNat ≤ log.countSince before x.sees := by
    rw [← h.shares x]
    exact le_sumWorkers (f := fun w => (w.stats.get x).toNat) ht
  have hanswered := CallLog.countSince_isAnswered log before
  have hfailure := CallLog.countSince_isFailure log before
  cases x <;> simp only [WorkerStats.Entry.sees] at hle <;> omega

/-- A worker records an answer in the counter and in its own tally. -/
theorem answer {reply : Reply} {outcome : Outcome} (h : Counts before log counter tasks)
    (hroom : log.countSince before CallState.isAnswered + 1 < UInt64.size)
    (hn : before.size < call) (hs : log.state? call = some s) (hflight : s.isInFlight = true)
    (ht : tasks[t]? = some (.worker w)) (ho : reply.outcome? = some outcome)
    (hv : ∀ x, v.stats.get x = (w.stats.record outcome).1.get x) :
    Counts before (log.set call (.returned reply)) (counter.record outcome)
      (tasks.set t (.worker v)) := by
  have hroomy : counter.Roomy := by
    have := h.answered_eq
    constructor <;> omega
  have hrecord := (WorkerStats.record_ok (s := w.stats) (fun x => by
    have := h.share_le ht x
    omega) outcome).2
  have hold := CallState.of_not_isAnswered (CallState.of_isInFlight hflight).1
  obtain ⟨hsuccess, hfailure, herror, hsees⟩ := CallState.counts_returned ho
  -- what a count of calls gains is what the tallies gain
  have hgain : ∀ p : CallState → Bool, p s = false →
      (log.set call (.returned reply)).countSince before p =
        log.countSince before p + (if p (.returned reply) then 1 else 0) :=
    fun _ => CallLog.countSince_set_of_not hn hs
  refine ⟨?_, ?_, ?_, fun x => ?_⟩
  · rw [Counter.successes_record hroomy, hgain _ hold.1, hsuccess, h.successes]
  · rw [Counter.failures_record hroomy, hgain _ hold.2.1, hfailure, h.failures]
    cases outcome.isSuccess <;> rfl
  · rw [Counter.transportErrors_record hroomy, hgain _ hold.2.2.1, herror, h.transportErrors]
  · have hsum := sumWorkers_set (f := fun w => (w.stats.get x).toNat) (v := v) ht
    rw [hv, hrecord, h.shares x] at hsum
    rw [hgain _ (hold.2.2.2 x), hsees]
    omega

end Counts

end LoadGenerator
