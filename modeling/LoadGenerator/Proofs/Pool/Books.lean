import LoadGenerator.Proofs.Pool.Roster

/-!
# Two sets of books

Every answer is counted twice: in the shared counter and in the tally of the worker that took it.
Nothing limits the answers that the workers of a bench may take one after the other, and the counter
wraps around; `Books` says that it counts the answers up to multiples of 2⁶⁴, and that the tallies,
summed up over the workers, count them exactly. Only a tally that is full misses an answer, and by
then there are 2⁶⁴ of them.
-/

namespace LoadGenerator

namespace Counter

theorem successes_record_eq (c : Counter) (outcome : Outcome) :
    (c.record outcome).successes = c.successes + (if outcome.isSuccess then 1 else 0) := by
  cases outcome with
  | success => rfl
  | httpFailure | transportFailure => exact (UInt64.add_zero _).symm

theorem failures_record_eq (c : Counter) (outcome : Outcome) :
    (c.record outcome).failures = c.failures + (if !outcome.isSuccess then 1 else 0) := by
  cases outcome with
  | success => exact (UInt64.add_zero _).symm
  | httpFailure | transportFailure => rfl

theorem transportErrors_record_eq (c : Counter) (outcome : Outcome) :
    (c.record outcome).transportErrors =
      c.transportErrors + (if outcome.isTransportFailure then 1 else 0) := by
  cases outcome with
  | success | httpFailure => exact (UInt64.add_zero _).symm
  | transportFailure => rfl

end Counter

theorem Count.ofNat_add_ite (n : Nat) (b : Bool) : UInt64.ofNat (n + if b then 1 else 0) =
    UInt64.ofNat n + if b then 1 else 0 := by
  rw [UInt64.ofNat_add]
  cases b <;> rfl

namespace WorkerStats

variable {s : WorkerStats}

/-- No entry is greater than the number of requests processed. -/
def Balanced (s : WorkerStats) : Prop :=
  ∀ x, (s.get x).toNat ≤ s.processed.toNat

def IsFull (s : WorkerStats) : Prop :=
  s.processed = Count.max

theorem IsFull.toNat_eq (h : s.IsFull) : s.processed.toNat + 1 = UInt64.size := by
  rw [h]
  rfl

theorem Balanced.lt (h : s.Balanced) (hfull : ¬ s.IsFull) (x : Entry) :
    (s.get x).toNat + 1 < UInt64.size := by
  have hle := h x
  have hlt := UInt64.toNat_lt_size s.processed
  have hne : s.processed.toNat ≠ UInt64.size - 1 := by
    intro he
    exact hfull (UInt64.toNat_inj.1 he)
  omega

theorem IsFull.record (h : s.IsFull) (outcome : Outcome) : (s.record outcome).1 = s := by
  have hadd : Count.add (s.get .processed) 1 = .error .add := by
    show Count.add s.processed 1 = _
    rw [h]
    rfl
  rw [WorkerStats.record, raise, hadd]

theorem Balanced.record (h : s.Balanced) (outcome : Outcome) : (s.record outcome).1.Balanced := by
  by_cases hfull : s.IsFull
  · rwa [hfull.record]
  intro x
  have hget := (record_ok (h.lt hfull) outcome).2
  have hprocessed := hget .processed
  have hcounts : Entry.counts .processed outcome = true := rfl
  rw [hcounts, if_pos rfl] at hprocessed
  show _ ≤ ((s.record outcome).1.get .processed).toNat
  rw [hget x, hprocessed]
  have hle : (s.get x).toNat ≤ (s.get .processed).toNat := h x
  split <;> omega

theorem Balanced.congr {s' : WorkerStats} (h : s.Balanced) (hget : ∀ x, s'.get x = s.get x) :
    s'.Balanced := by
  intro x
  show _ ≤ (s'.get .processed).toNat
  rw [hget, hget]
  exact h x

end WorkerStats

/-- The counter and the tallies of the workers count the calls made since `before` that have been
answered. -/
structure Books (before log : CallLog) (counter : Counter) (tasks : List Task) : Prop where
  successes : counter.successes = UInt64.ofNat (log.countSince before CallState.isSuccess)
  failures : counter.failures = UInt64.ofNat (log.countSince before CallState.isFailure)
  transportErrors :
    counter.transportErrors = UInt64.ofNat (log.countSince before CallState.isTransportError)
  balanced : ∀ w ∈ workersOf tasks, w.stats.Balanced
  shares : UInt64.size ≤ log.countSince before CallState.isAnswered ∧
      (∃ w ∈ workersOf tasks, w.stats.IsFull) ∨
    ∀ x : WorkerStats.Entry,
      sumWorkers (fun w => (w.stats.get x).toNat) tasks = log.countSince before x.sees

namespace Books

variable {before log log' : CallLog} {counter : Counter} {tasks tasks' : List Task} {t : TaskId}
  {w v : Worker} {call : Nat} {s u : CallState}

theorem start (log : CallLog) : Books log log {} [] := by
  refine ⟨?_, ?_, ?_, fun w hw => (by cases hw), .inr fun x => ?_⟩
  all_goals rw [CallLog.countSince_self]; rfl

theorem of_sameWorkers (h : Books before log counter tasks) (hsame : SameWorkers tasks tasks') :
    Books before log counter tasks' := by
  refine ⟨h.successes, h.failures, h.transportErrors, ?_, ?_⟩
  · rw [hsame.workersOf_eq]
    exact h.balanced
  · rw [hsame.workersOf_eq]
    exact h.shares.imp_right fun hsum x => (hsame.sumWorkers_eq _).trans (hsum x)

/-- Workers that have processed nothing join. -/
theorem spawn (h : Books before log counter tasks) (size : Nat) (policy : FailurePolicy) :
    Books before log counter (tasks ++ Engine.poolWorkers size policy) := by
  refine ⟨h.successes, h.failures, h.transportErrors, fun w hw => ?_, ?_⟩
  · rw [workersOf_append, workersOf_poolWorkers] at hw
    rcases List.mem_append.1 hw with hw | hw
    · exact h.balanced w hw
    · obtain ⟨i, -, rfl⟩ := List.mem_map.1 hw
      intro x
      cases x <;> exact Nat.le_refl 0
  · rcases h.shares with ⟨hmany, w, hw, hfull⟩ | hsum
    · refine .inl ⟨hmany, w, ?_, hfull⟩
      rw [workersOf_append]
      exact List.mem_append_left _ hw
    · refine .inr fun x => ?_
      rw [Engine.sumWorkers_append_poolWorkers (fun _ => by cases x <;> rfl)]
      exact hsum x

/-- What happens to calls that are not answered changes nothing. -/
theorem of_countSince (h : Books before log counter tasks)
    (hcount : ∀ p : CallState → Bool, (∀ s, s.isAnswered = false → p s = false) →
      log'.countSince before p = log.countSince before p) : Books before log' counter tasks := by
  have hnot := fun s hs => CallState.of_not_isAnswered (s := s) hs
  refine ⟨?_, ?_, ?_, h.balanced, ?_⟩
  · rw [hcount _ fun s hs => (hnot s hs).1]
    exact h.successes
  · rw [hcount _ fun s hs => (hnot s hs).2.1]
    exact h.failures
  · rw [hcount _ fun s hs => (hnot s hs).2.2.1]
    exact h.transportErrors
  · rw [hcount _ fun _ => id]
    refine h.shares.imp_right fun hsum x => ?_
    rw [hcount _ fun s hs => (hnot s hs).2.2.2 x]
    exact hsum x

theorem reply (h : Books before log counter tasks) (n : Nat) (r : Reply) :
    Books before (log.reply n r) counter tasks :=
  h.of_countSince fun _ hp => CallLog.countSince_reply n r ((hp _ rfl).trans (hp _ rfl).symm)

theorem take (h : Books before log counter tasks) (hbefore : before.size ≤ log.size)
    (target : Target) (r : Option Reply) : Books before (log.startWith target r) counter tasks := by
  refine h.of_countSince fun p hp => ?_
  have hflight := CallState.isInFlight_ofReply? r
  rw [CallLog.countSince_startWith _ _ hbefore, hp _ (CallState.of_isInFlight hflight).1]
  rfl

theorem drop (h : Books before log counter tasks) (hn : before.size < call)
    (hs : log.state? call = some s) (hflight : s.isInFlight = true) (hu : u.isAnswered = false) :
    Books before (log.set call u) counter tasks := by
  refine h.of_countSince fun p hp => ?_
  rw [CallLog.countSince_set_of_not hn hs (hp _ (CallState.of_isInFlight hflight).1), hp _ hu]
  rfl

/-- A worker moves on with its tally as it is. -/
theorem rest (h : Books before log counter tasks) (ht : tasks[t]? = some (.worker w))
    (hv : ∀ x, v.stats.get x = w.stats.get x) :
    Books before log counter (tasks.set t (.worker v)) := by
  have hw : w ∈ workersOf tasks := mem_workersOf.2 ⟨t, ht⟩
  refine ⟨h.successes, h.failures, h.transportErrors, fun x hx => ?_, ?_⟩
  · rcases mem_of_mem_setWorker hx ht with rfl | hx
    · exact (h.balanced w hw).congr hv
    · exact h.balanced x hx
  · rcases h.shares with ⟨hmany, x, hx, hfull⟩ | hsum
    · refine .inl ⟨hmany, ?_⟩
      rcases mem_setWorker_of_mem hx ht with rfl | hx
      · exact ⟨v, mem_setWorker ht, (hv .processed).trans hfull⟩
      · exact ⟨x, hx, hfull⟩
    · exact .inr fun x => (sumWorkers_set_of_eq ht (congrArg UInt64.toNat (hv x))).trans (hsum x)

/-- A worker records an answer in the counter and in its own tally. -/
theorem answer {reply : Reply} {outcome : Outcome} (h : Books before log counter tasks)
    (hn : before.size < call) (hs : log.state? call = some s) (hflight : s.isInFlight = true)
    (ht : tasks[t]? = some (.worker w)) (ho : reply.outcome? = some outcome)
    (hv : ∀ x, v.stats.get x = (w.stats.record outcome).1.get x) :
    Books before (log.set call (.returned reply)) (counter.record outcome)
      (tasks.set t (.worker v)) := by
  have hw : w ∈ workersOf tasks := mem_workersOf.2 ⟨t, ht⟩
  have hold := CallState.of_not_isAnswered (CallState.of_isInFlight hflight).1
  obtain ⟨hsuccess, hfailure, herror, hsees⟩ := CallState.counts_returned ho
  have hgain : ∀ p : CallState → Bool, p s = false →
      (log.set call (.returned reply)).countSince before p =
        log.countSince before p + (if p (.returned reply) then 1 else 0) :=
    fun _ => CallLog.countSince_set_of_not hn hs
  have hmore := hgain _ (CallState.of_isInFlight hflight).1
  rw [CallState.isAnswered_returned ho, if_pos rfl] at hmore
  refine ⟨?_, ?_, ?_, fun x hx => ?_, ?_⟩
  · rw [Counter.successes_record_eq, h.successes, hgain _ hold.1, hsuccess, Count.ofNat_add_ite]
  · rw [Counter.failures_record_eq, h.failures, hgain _ hold.2.1, hfailure, Count.ofNat_add_ite]
  · rw [Counter.transportErrors_record_eq, h.transportErrors, hgain _ hold.2.2.1, herror,
      Count.ofNat_add_ite]
  · rcases mem_of_mem_setWorker hx ht with rfl | hx
    · exact ((h.balanced w hw).record outcome).congr hv
    · exact h.balanced x hx
  by_cases hfull : w.stats.IsFull
  · -- the answer is missing from a full tally, which counts 2⁶⁴ - 1 answers by itself
    refine .inl ⟨?_, v, mem_setWorker ht, ?_⟩
    · rw [hmore]
      rcases h.shares with ⟨hmany, -⟩ | hsum
      · omega
      · have hle : w.stats.processed.toNat ≤ log.countSince before CallState.isAnswered := by
          have hsum := hsum .processed
          simp only [WorkerStats.Entry.sees] at hsum
          rw [← hsum]
          exact le_sumWorkers (f := fun w => (w.stats.get .processed).toNat) ht
        have := hfull.toNat_eq
        omega
    · have hget := hv .processed
      rw [hfull.record] at hget
      exact hget.trans hfull
  · rcases h.shares with ⟨hmany, x, hx, hx'⟩ | hsum
    · refine .inl ⟨by omega, ?_⟩
      rcases mem_setWorker_of_mem hx ht with rfl | hx
      · exact absurd hx' hfull
      · exact ⟨x, hx, hx'⟩
    · refine .inr fun x => ?_
      have hrecord := (WorkerStats.record_ok ((h.balanced w hw).lt hfull) outcome).2
      have hset := sumWorkers_set (f := fun w => (w.stats.get x).toNat) (v := v) ht
      rw [hv, hrecord, hsum x] at hset
      rw [hgain _ (hold.2.2.2 x), hsees]
      omega

end Books

end LoadGenerator
