import LoadGenerator.Orchestrator
import LoadGenerator.Proofs.Run.Accounts

/-!
# What the stages of a run rule out

A run goes through its stages in order, and each promises something: from `draining` on everything
has been put, from `closing` on everything is done, from `stopping` on the queue is closed
(`Stages`). A run fails only because it has been cancelled, and under `FailurePolicy.abort` no stage
that promises that everything is done comes after a transport error. `Endings` says how workers can
have ended: they finish only when the run is cancelled or the queue is closed, and drop everything
only when the run has failed.
-/

namespace LoadGenerator

namespace Stage

def allPut : Stage → Bool
  | .draining | .closing | .stopping | .over (.completed _ _) => true
  | _ => false

/-- The driver has seen that every item is done. -/
def allDone : Stage → Bool
  | .closing | .stopping | .over (.completed _ _) => true
  | _ => false

def hasClosed : Stage → Bool
  | .stopping | .over _ => true
  | _ => false

def hasFailed : Stage → Bool
  | .over (.failed _) => true
  | _ => false

theorem exists_of_hasFailed {stage : Stage} (h : stage.hasFailed = true) :
    ∃ error, stage = .over (.failed error) := by
  unfold hasFailed at h
  split at h
  · exact ⟨_, rfl⟩
  · cases h

end Stage

namespace Cancellation

variable {c : Cancellation} {reason : CancelReason}

theorem reason_heed_eq (c : Cancellation) (verdict : Option CancelReason) :
    (c.heed verdict).reason = c.reason.or verdict := by
  cases verdict with
  | none => exact Option.or_none.symm
  | some reason => exact reason_cancel_eq c reason

theorem reason_heed (h : c.reason = some reason) (verdict : Option CancelReason) :
    (c.heed verdict).reason = some reason := by
  rw [reason_heed_eq, h]
  rfl

theorem isCancelled_heed (h : c.isCancelled = true) (verdict : Option CancelReason) :
    (c.heed verdict).isCancelled = true := by
  obtain ⟨reason, hr⟩ := isCancelled_eq.1 h
  exact isCancelled_eq.2 ⟨reason, reason_heed hr verdict⟩

end Cancellation

/-! ### The driver -/

/-- What the stage of the driver says about the queue, the context and the log. -/
structure Stages (policy : FailurePolicy) (before : CallLog) (stage : Stage) (left : Nat)
    (q : WorkQueue WorkItem) (context : Cancellation) (log : CallLog) : Prop where
  put : stage.allPut = true → left = 0
  done : stage.allDone = true → q.outstanding = 0
  closed : q.closed = stage.hasClosed
  failed : ∀ error, stage = .over (.failed error) →
    ∃ reason, context.reason = some reason ∧ error = .ofReason reason
  abandoned : stage.hasFailed = false → log.countSince before CallState.isAbandoned = 0
  failFast : policy = .abort → log.countSince before CallState.isTransportError ≠ 0 →
    context.isCancelled = true ∧ stage.allDone = false

namespace Stages

variable {policy : FailurePolicy} {before log log' : CallLog} {stage stage' : Stage}
  {left left' : Nat} {q q' : WorkQueue WorkItem} {context context' : Cancellation} {call : Nat}
  {s u : CallState}

theorem start (policy : FailurePolicy) (log : CallLog) (left capacity : Nat)
    (context : Cancellation) :
    Stages policy log .starting left (.ofCapacity capacity) context log := by
  refine ⟨fun h => (by cases h), fun h => (by cases h), rfl, fun _ h => (by cases h), fun _ => ?_,
    fun _ h => absurd ?_ h⟩
  · exact CallLog.countSince_self log _
  · exact CallLog.countSince_self log _

/-- The stage promises what it did while nothing that it speaks of is lost. -/
theorem steady (h : Stages policy before stage left q context log)
    (hout : q'.outstanding = q.outstanding) (hclosed : q'.closed = q.closed)
    (hcontext : ∀ reason, context.reason = some reason → context'.reason = some reason)
    (habandoned : log'.countSince before CallState.isAbandoned =
      log.countSince before CallState.isAbandoned)
    (herror : log'.countSince before CallState.isTransportError =
      log.countSince before CallState.isTransportError) :
    Stages policy before stage left q' context' log' := by
  refine ⟨h.put, fun hs => hout.trans (h.done hs), hclosed.trans h.closed, fun error he => ?_,
    fun hs => habandoned.trans (h.abandoned hs), fun hp he => ?_⟩
  · obtain ⟨reason, hr, rfl⟩ := h.failed error he
    exact ⟨reason, hcontext reason hr, rfl⟩
  · rw [herror] at he
    obtain ⟨hcancelled, hdone⟩ := h.failFast hp he
    obtain ⟨reason, hr⟩ := Cancellation.isCancelled_eq.1 hcancelled
    exact ⟨Cancellation.isCancelled_eq.2 ⟨reason, hcontext reason hr⟩, hdone⟩

theorem deal {t : TaskId} (h : Stages policy before stage left q context log) (hq : q.Dealing t q')
    (hout : q'.outstanding = q.outstanding) : Stages policy before stage left q' context log :=
  h.steady hout hq.closed (fun _ => id) rfl rfl

theorem cancel (h : Stages policy before stage left q context log) (reason : CancelReason) :
    Stages policy before stage left q (context.cancel reason) log :=
  h.steady rfl rfl (fun _ hr => Cancellation.reason_cancel hr reason) rfl rfl

theorem reply (h : Stages policy before stage left q context log) (n : Nat) (r : Reply) :
    Stages policy before stage left q context (log.reply n r) :=
  h.steady rfl rfl (fun _ => id) (CallLog.countSince_reply n r rfl)
    (CallLog.countSince_reply n r rfl)

theorem take (h : Stages policy before stage left q context log) (hbefore : before.size ≤ log.size)
    (target : Target) (r : Option Reply) :
    Stages policy before stage left q context (log.startWith target r) := by
  obtain ⟨-, -, herror, -, habandoned⟩ :=
    CallState.of_isInFlight (CallState.isInFlight_ofReply? r)
  refine h.steady rfl rfl (fun _ => id) ?_ ?_
  · rw [CallLog.countSince_startWith _ _ hbefore, habandoned]
    rfl
  · rw [CallLog.countSince_startWith _ _ hbefore, herror]
    rfl

theorem drop (h : Stages policy before stage left q context log) (hn : before.size < call)
    (hs : log.state? call = some s) (hflight : s.isInFlight = true) (hu : u.isTransportError = false)
    (habandoned : stage.hasFailed = true ∨ u.isAbandoned = false) :
    Stages policy before stage left q context (log.set call u) := by
  obtain ⟨-, -, hserror, -, hsabandoned⟩ := CallState.of_isInFlight hflight
  have herror := CallLog.countSince_set (p := CallState.isTransportError) (u := u) hn hs
  rw [hserror, hu] at herror
  have hcount := CallLog.countSince_set (p := CallState.isAbandoned) (u := u) hn hs
  rw [hsabandoned] at hcount
  refine ⟨h.put, h.done, h.closed, h.failed, fun hfailed => ?_, fun hp he => h.failFast hp ?_⟩
  · have hu' : u.isAbandoned = false := by
      rcases habandoned with hf | hu'
      · rw [hfailed] at hf
        cases hf
      · exact hu'
    rw [hu'] at hcount
    exact (Nat.add_right_cancel hcount).trans (h.abandoned hfailed)
  · rwa [← Nat.add_right_cancel herror]

/-- An answer is taken, and its item marked as done: then not everything was done before. -/
theorem answer {reply : Reply} (h : Stages policy before stage left q context log)
    (hn : before.size < call) (hs : log.state? call = some s) (hflight : s.isInFlight = true)
    (hq : q.markDone = .ok q') (verdict : Option CancelReason)
    (hverdict : policy = .abort → CallState.isTransportError (.returned reply) = true →
      verdict.isSome = true) :
    Stages policy before stage left q' (context.heed verdict) (log.set call (.returned reply)) := by
  obtain ⟨hq', hout⟩ := WorkQueue.markDone_ok hq
  have hopen : stage.allDone = false := by
    rw [Bool.eq_false_iff]
    intro hdone
    have := h.done hdone
    omega
  obtain ⟨-, -, hserror, -, hsabandoned⟩ := CallState.of_isInFlight hflight
  have herror := CallLog.countSince_set (p := CallState.isTransportError) (u := .returned reply) hn hs
  rw [hserror] at herror
  have hcount := CallLog.countSince_set (p := CallState.isAbandoned) (u := .returned reply) hn hs
  rw [hsabandoned] at hcount
  refine ⟨h.put, fun hdone => ?_, ?_, fun error he => ?_, fun hfailed => ?_, fun hp he => ?_⟩
  · rw [hopen] at hdone
    cases hdone
  · rw [hq']
    exact h.closed
  · obtain ⟨reason, hr, rfl⟩ := h.failed error he
    exact ⟨reason, Cancellation.reason_heed hr verdict, rfl⟩
  · exact (Nat.add_right_cancel hcount).trans (h.abandoned hfailed)
  · refine ⟨?_, hopen⟩
    by_cases hr : CallState.isTransportError (.returned reply) = true
    · obtain ⟨reason, hv⟩ := Option.isSome_iff_exists.1 (hverdict hp hr)
      rw [hv]
      exact Cancellation.isCancelled_cancel context reason
    · rw [if_neg hr] at herror
      have he' : log.countSince before CallState.isTransportError ≠ 0 := by
        rwa [← Nat.add_right_cancel herror]
      exact Cancellation.isCancelled_heed (h.failFast hp he').1 verdict

/-- The driver goes on; it finds everything done only while the run is not cancelled. -/
theorem advance (h : Stages policy before stage left q context log)
    (hput : stage'.allPut = true → left' = 0) (hdone : stage'.allDone = true → q'.outstanding = 0)
    (hclosed : q'.closed = stage'.hasClosed) (hfailed : stage.hasFailed = false)
    (hfailed' : stage'.hasFailed = false)
    (hfast : stage'.allDone = true → stage.allDone = true ∨ context.reason = none) :
    Stages policy before stage' left' q' context log := by
  refine ⟨hput, hdone, hclosed, fun error he => ?_, fun _ => h.abandoned hfailed, fun hp he => ?_⟩
  · rw [he] at hfailed'
    cases hfailed'
  · obtain ⟨hcancelled, hopen⟩ := h.failFast hp he
    refine ⟨hcancelled, ?_⟩
    rw [Bool.eq_false_iff]
    intro hd
    rcases hfast hd with hd | hr
    · rw [hopen] at hd
      cases hd
    · rw [Cancellation.isCancelled, hr] at hcancelled
      cases hcancelled

theorem giveUp {reason : CancelReason} (h : Stages policy before stage left q context log)
    (hr : context.reason = some reason) (hclosed : q'.closed = true) :
    Stages policy before (.over (.failed (.ofReason reason))) left q' context log := by
  refine ⟨fun h => (by cases h), fun h => (by cases h), hclosed, fun error he => ?_,
    fun h => (by cases h), fun hp he => ⟨(h.failFast hp he).1, rfl⟩⟩
  cases he
  exact ⟨reason, hr, rfl⟩

end Stages

/-! ### The workers -/

/-- Whether a worker may have ended in some way by now. -/
def Ending.Due (how : Ending) (w : Worker) (cancelled closed : Bool) : Prop :=
  how = .finished ∧ (cancelled = true ∨ closed = true) ∨ how = .panicked ∨
    how = .aborted ∧ w.aborted = true

/-- How the workers stand to the stage of the driver. -/
structure Endings (stage : Stage) (cancelled closed : Bool) (tasks : List Task) : Prop where
  aborted : ∀ (t : TaskId) (w : Worker), tasks[t]? = some (.worker w) → w.aborted = true →
    stage.hasFailed = true
  ended : ∀ (t : TaskId) (w : Worker) how, tasks[t]? = some (.worker w) → w.phase = .ended how →
    how.Due w cancelled closed
  completed : ∀ counts shares (t : TaskId) (w : Worker), stage = .over (.completed counts shares) →
    tasks[t]? = some (.worker w) → w.hasEnded = true

namespace Endings

variable {stage stage' : Stage} {cancelled cancelled' closed closed' : Bool} {tasks : List Task}
  {t : TaskId} {w v : Worker} {d d' : RunDriver}

theorem start (d : RunDriver) (stage : Stage) (cancelled closed : Bool) :
    Endings stage cancelled closed [.driver d] := by
  have hnone : ∀ (t : Nat) (w : Worker), [Task.driver d][t]? ≠ some (.worker w) := by
    intro t w h
    cases t with
    | zero => cases h
    | succ t => cases h
  exact ⟨fun t w h => absurd h (hnone t w), fun t w _ h => absurd h (hnone t w),
    fun _ _ t w _ h => absurd h (hnone t w)⟩

theorem mono (h : Endings stage cancelled closed tasks)
    (hcancelled : cancelled = true → cancelled' = true) (hclosed : closed = true → closed' = true) :
    Endings stage cancelled' closed' tasks := by
  refine ⟨h.aborted, fun t w how ht hw => ?_, h.completed⟩
  rcases h.ended t w how ht hw with ⟨hhow, hwhy⟩ | hlost | habort
  · exact .inl ⟨hhow, hwhy.imp hcancelled hclosed⟩
  · exact .inr (.inl hlost)
  · exact .inr (.inr habort)

theorem setWorker (h : Endings stage cancelled closed tasks) (ht : tasks[t]? = some (.worker w))
    (hlive : w.hasEnded = false) (ha : v.aborted = w.aborted)
    (hv : ∀ how, v.phase = .ended how → how.Due v cancelled closed) :
    Endings stage cancelled closed (tasks.set t (.worker v)) := by
  refine ⟨fun u x hu hx => ?_, fun u x how hu hx => ?_, fun counts shares u x hs hu => ?_⟩
  · rw [getElem?_set_task ht] at hu
    split at hu
    · cases hu
      exact h.aborted t w ht (ha ▸ hx)
    · exact h.aborted u x hu hx
  · rw [getElem?_set_task ht] at hu
    split at hu
    · cases hu
      exact hv how hx
    · exact h.ended u x how hu hx
  · -- the worker that moves on would have ended
    have := h.completed counts shares t w hs ht
    rw [hlive] at this
    cases this

theorem setDriver (h : Endings stage cancelled closed tasks) (ht : tasks[0]? = some (.driver d))
    (hfailed : stage.hasFailed = true → stage'.hasFailed = true)
    (hcompleted : ∀ counts shares, stage' = .over (.completed counts shares) →
      ∀ (t : TaskId) (w : Worker), tasks[t]? = some (.worker w) → w.hasEnded = true) :
    Endings stage' cancelled closed (tasks.set 0 (.driver d')) := by
  have hworker : ∀ (u : Nat) (x : Worker), (tasks.set 0 (.driver d'))[u]? = some (.worker x) →
      tasks[u]? = some (.worker x) := by
    intro u x hu
    rw [getElem?_set_task ht] at hu
    split at hu
    · cases hu
    · exact hu
  exact ⟨fun u x hu hx => hfailed (h.aborted u x (hworker u x hu) hx),
    fun u x how hu hx => h.ended u x how (hworker u x hu) hx,
    fun counts shares u x hs hu => hcompleted counts shares hs u x (hworker u x hu)⟩

theorem spawn (h : Endings .submitting cancelled closed tasks) (size : Nat)
    (policy : FailurePolicy) :
    Endings .submitting cancelled closed (tasks ++ Engine.poolWorkers size policy) := by
  have hnew : ∀ (u : Nat) (x : Worker),
      (tasks ++ Engine.poolWorkers size policy)[u]? = some (.worker x) →
      tasks[u]? = some (.worker x) ∨ x.aborted = false ∧ x.phase = .seeking := by
    intro u x hu
    rcases Nat.lt_or_ge u tasks.length with hlt | hge
    · rw [List.getElem?_append_left hlt] at hu
      exact .inl hu
    · rw [List.getElem?_append_right hge] at hu
      obtain ⟨i, hi⟩ := Engine.mem_poolWorkers (List.mem_of_getElem? hu)
      cases hi
      exact .inr ⟨rfl, rfl⟩
  refine ⟨fun u x hu hx => ?_, fun u x how hu hx => ?_, fun _ _ _ _ hs => by cases hs⟩
  · rcases hnew u x hu with hold | ⟨ha, -⟩
    · exact h.aborted u x hold hx
    · rw [ha] at hx
      cases hx
  · rcases hnew u x hu with hold | ⟨-, hp⟩
    · exact h.ended u x how hold hx
    · rw [hp] at hx
      cases hx

theorem abortAll {e : Engine} (h : Endings stage cancelled closed e.tasks)
    (hfailed : stage.hasFailed = true) (members : List TaskId) :
    Endings stage cancelled closed (e.abortAll members).tasks := by
  refine ⟨fun _ _ _ _ => hfailed, fun u x how hu hx => ?_, fun counts shares _ _ hs => ?_⟩
  · obtain ⟨w, hw, rfl | ⟨hlive, rfl⟩⟩ := worker_of_abortAll hu
    · exact h.ended u _ how hw hx
    · rw [Worker.hasEnded, show w.phase = .ended how from hx] at hlive
      cases hlive
  · rw [hs] at hfailed
    cases hfailed

end Endings

end LoadGenerator
