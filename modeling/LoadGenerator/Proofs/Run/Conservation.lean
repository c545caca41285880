import LoadGenerator.Proofs.Run.Invariant

/-!
# No item of a run is lost or counted twice

`Engine.itemsPut` and `Engine.itemsDone` count along a history of a run how often the queue accepts
an item of the driver and how often a worker marks one as done. `items_balance`: whatever happens in a
run and in whatever order, until it returns every item put is buffered, held by a worker inside its
call, lost with a worker whose transport broke down, or done, and the counter of the run has counted
exactly those that are done.
-/

namespace LoadGenerator

def Progress.isAccepted : Progress (Except QueueFault Unit) → Bool
  | .done (.ok ()) => true
  | _ => false

namespace Engine

/-- Whether the next step of a task is that the driver puts an item and the queue accepts it. -/
def puts (e : Engine) (t : TaskId) : Bool :=
  match e.tasks[t]? with
  | some (.driver d) =>
    d.stage == .submitting && !e.context.isCancelled && d.source.remaining != 0 &&
      (e.queue.put t ⟨d.source.target⟩).2.isAccepted
  | _ => false

/-- Whether the next step of a task is that a worker takes an answer and marks its item as done. -/
def marks (e : Engine) (t : TaskId) : Bool :=
  match e.tasks[t]? with
  | some (.worker w) =>
    !w.aborted && ((w.call?.bind e.log.reply?).bind Reply.outcome?).isSome && e.queue.markDone.isOk
  | _ => false

def steps (p : Engine → TaskId → Bool) (e : Engine) : Event → Bool
  | .poll t => p e t
  | _ => false

/-- How many steps of a history have a property when they are made. -/
def countSteps (p : Engine → TaskId → Bool) (script : Script) : Engine → List Event → Nat
  | _, [] => 0
  | e, event :: rest =>
    (if e.steps p event then 1 else 0) + countSteps p script (e.react script event) rest

/-- The items that the queue accepts during a history. -/
def itemsPut (script : Script) (e : Engine) (events : List Event) : Nat :=
  e.countSteps puts script events

/-- The items that are marked as done during a history. -/
def itemsDone (script : Script) (e : Engine) (events : List Event) : Nat :=
  e.countSteps marks script events

variable {script : Script} {e : Engine} {t : TaskId} {w : Worker} {d : RunDriver} {r : Engine × Bool}

theorem WorkerMove.outstanding (h : WorkerMove script e t w r)
    (ht : e.tasks[t]? = some (.worker w)) :
    r.1.queue.outstanding + (if e.marks t then 1 else 0) = e.queue.outstanding := by
  have hmarks : e.marks t = (!w.aborted &&
      ((w.call?.bind e.log.reply?).bind Reply.outcome?).isSome && e.queue.markDone.isOk) := by
    unfold marks
    rw [ht]
  rw [hmarks]
  cases h with
  | rest h =>
    rcases h with h | ⟨-, call, hw, hr⟩
    · have hcall : w.call? = none := by
        unfold Worker.hasEnded at h
        unfold Worker.call?
        split at h
        · simp only [*]
        · cases h
      simp [hcall]
    · have hcall : w.call? = some call := Worker.call?_eq_some.2 hw
      simp [hcall, hr]
  | dropPlace hw ha =>
    rw [ha]
    exact (WorkQueue.leave_dealing e.queue t).2.2
  | dropCall hw ha =>
    rw [ha]
    rfl
  | quit hw =>
    rw [(Worker.of_seeking hw).2.1]
    simpa [setTask] using (WorkQueue.leave_dealing e.queue t).2.2
  | await hw ha hc hq =>
    rw [(Worker.of_seeking hw).2.1]
    simpa using (WorkQueue.get_waiting hq).2.2.1
  | retire hw ha hc hq =>
    rw [(Worker.of_seeking hw).2.1]
    simpa [setTask] using (WorkQueue.get_none hq).2.2.1
  | start hw ha hc hq =>
    rw [(Worker.of_seeking hw).2.1]
    simpa [setTask] using (WorkQueue.get_some hq).2.2
  | lose hw ha hr =>
    have hcall := Worker.call?_eq_some.2 hw
    simp [hcall, hr, Reply.outcome?, setTask]
  | answer hw ha hr ho hq =>
    have hcall := Worker.call?_eq_some.2 hw
    have hout := (WorkQueue.markDone_ok hq).2
    simp [hcall, ha, hr, ho, hq, hout, setTask, Except.isOk, Except.toBool]
  | blunder hw ha hr ho hq =>
    simp [hq, setTask, Except.isOk, Except.toBool]

theorem DriverMove.outstanding (h : DriverMove e t d r) (ht : e.tasks[t]? = some (.driver d)) :
    r.1.queue.outstanding = e.queue.outstanding + (if e.puts t then 1 else 0) := by
  have hputs : e.puts t = (d.stage == .submitting && !e.context.isCancelled &&
      d.source.remaining != 0 && (e.queue.put t ⟨d.source.target⟩).2.isAccepted) := by
    unfold puts
    rw [ht]
  rw [hputs]
  cases h with
  | rest h => rcases h with ⟨hs, -⟩ | ⟨hs, -⟩ | ⟨how, hs⟩ <;> simp [hs]
  | refuse hs => simp [hs, setTask]
  | launch hs =>
    rw [spawnAll_eq]
    simp [hs, setTask]
  | giveUp hs hr =>
    rw [giveUp_eq]
    have hout := (WorkQueue.leave_dealing e.queue t).2.2
    rcases hs with hs | hs <;>
      simpa [hs, Cancellation.isCancelled, hr, WorkQueue.close] using hout
  | submitted hs hr hn => simp [hs, hn, setTask]
  | await hs hr hn hq =>
    have hout := (WorkQueue.put_waiting hq).2.2.1
    simp [hq, hout, Progress.isAccepted]
  | refused hs hr hn hq =>
    rw [giveUp_eq, (WorkQueue.put_error hq).1]
    have hout := (WorkQueue.leave_dealing e.queue t).2.2
    simpa [hq, Progress.isAccepted, WorkQueue.close] using hout
  | put hs hr hn hq =>
    have hout := (WorkQueue.put_ok hq).2.2
    simp [hs, hn, hq, hout, Progress.isAccepted, setTask, Cancellation.isCancelled, hr]
  | drained hs => simp [hs, setTask]
  | close hs => simp [hs, setTask, WorkQueue.close]
  | complete hs => simp [hs, setTask]

end Engine

namespace RunInv

variable {o : Orchestrator} {d : RunDriver} {e : Engine}

theorem step_counts (h : RunInv o d e) (script : Script) (t : TaskId) :
    (e.step script t).1.queue.outstanding + (if e.marks t then 1 else 0) =
        e.queue.outstanding + (if e.puts t then 1 else 0) ∧
      (e.step script t).1.log.countSince o.log CallState.isAnswered =
        e.log.countSince o.log CallState.isAnswered + (if e.marks t then 1 else 0) := by
  rcases h.crew.step_cases script t with ⟨ht, hstep⟩ | ⟨rfl, hm⟩ | ⟨w, ht, hm⟩
  · have hmarks : e.marks t = false := by unfold Engine.marks; rw [ht]
    have hputs : e.puts t = false := by unfold Engine.puts; rw [ht]
    rw [hstep, hmarks, hputs]
    exact ⟨rfl, rfl⟩
  · have hmarks : e.marks 0 = false := by unfold Engine.marks; rw [h.crew.driver]
    rw [hmarks, hm.log]
    exact ⟨hm.outstanding h.crew.driver, rfl⟩
  · have hputs : e.puts t = false := by unfold Engine.puts; rw [ht]
    rw [hputs]
    have hout := hm.outstanding ht
    refine ⟨hout, ?_⟩
    -- the driver has put as much as before, so what is no longer outstanding is answered
    have hbefore := h.accounts.outstanding
    have hafter := (h.worker ht hm).accounts.outstanding
    omega

theorem play_counts (hsize : 0 < o.size) (h : RunInv o d e) (script : Script)
    (events : List Event) : ∃ d', RunInv o d' (e.play script events) ∧
      (e.play script events).queue.outstanding + e.itemsDone script events =
        e.queue.outstanding + e.itemsPut script events ∧
      (e.play script events).log.countSince o.log CallState.isAnswered =
        e.log.countSince o.log CallState.isAnswered + e.itemsDone script events := by
  induction events generalizing d e with
  | nil => exact ⟨d, h, rfl, rfl⟩
  | cons event rest ih =>
    obtain ⟨d₁, h₁⟩ := h.react hsize script event
    obtain ⟨d', h', hout, hanswered⟩ := ih h₁
    have hone : (e.react script event).queue.outstanding +
          (if e.steps Engine.marks event then 1 else 0) =
          e.queue.outstanding + (if e.steps Engine.puts event then 1 else 0) ∧
        (e.react script event).log.countSince o.log CallState.isAnswered =
          e.log.countSince o.log CallState.isAnswered +
            (if e.steps Engine.marks event then 1 else 0) := by
      cases event with
      | poll t =>
        have hstep := (h.front t).step_counts script t
        have halike := Engine.poll_alike script e t
        rw [← halike.queue, ← halike.log] at hstep
        exact hstep
      | reply call reply => exact ⟨rfl, CallLog.countSince_reply call reply rfl⟩
      | cancel | pause => exact ⟨rfl, rfl⟩
    simp only [Engine.itemsDone, Engine.itemsPut, Engine.countSteps] at hout hanswered ⊢
    refine ⟨d', h', ?_, ?_⟩
    · change (Engine.play script (e.react script event) rest).queue.outstanding + _ = _
      omega
    · change (Engine.play script (e.react script event) rest).log.countSince o.log _ = _
      omega

theorem not_failed (h : RunInv o d e) {t : TaskId} {w : Worker}
    (ht : e.tasks[t]? = some (.worker w)) (error : Error) : w.phase ≠ .ended (.failed error) := by
  intro hw
  rcases h.endings.ended t w _ ht hw with ⟨hhow, -⟩ | hhow | ⟨hhow, -⟩ <;> cases hhow

end RunInv

/-- The items of a run when `put` of them have been put and `done` of them are done. -/
structure ItemBalance (o : Orchestrator) (put done : Nat) (e : Engine) : Prop where
  places : put = e.queue.buffer.length + countWorkers Worker.isCalling e.tasks +
    countWorkers Worker.isLost e.tasks + done
  outstanding : put = e.queue.outstanding + done
  counted : e.counter.successes.toNat + e.counter.failures.toNat = done
  errors : e.counter.transportErrors ≤ e.counter.failures
  buffered : e.queue.buffer.length ≤ o.capacity
  inFlight : e.log.countSince o.log CallState.isInFlight ≤ o.size
  atMost : put ≤ o.total

/-- A run of a valid configuration starts, and until it returns every item put is in one place and
the counter has counted those that are done; no worker fails to mark an item as done, ever. -/
theorem items_balance {o : Orchestrator} (h : o.Valid) (script : Script) (events : List Event) :
    o.engine = .ok o.launch ∧
    (Orchestrator.runEnd? (o.launch.play script events) = none →
      ItemBalance o (o.launch.itemsPut script events) (o.launch.itemsDone script events)
        (o.launch.play script events)) ∧
    ∀ (t : TaskId) (w : Worker), (o.launch.play script events).tasks[t]? = some (.worker w) →
      (∀ call, w.phase = .calling call →
        ∃ queue, (o.launch.play script events).queue.markDone = .ok queue) ∧
      ∀ error, w.phase ≠ .ended (.failed error) := by
  obtain ⟨hsize, -⟩ := Orchestrator.of_validate h.config
  obtain ⟨d, hinv, hout, hanswered⟩ := (RunInv.launch o).play_counts hsize script events
  generalize o.launch.play script events = e at *
  refine ⟨Orchestrator.engine_eq_launch h.config, fun hrun => ?_, fun t w ht => ⟨?_, ?_⟩⟩
  · have hstart : o.launch.log.countSince o.log CallState.isAnswered = 0 :=
      CallLog.countSince_self o.log _
    have hempty : o.launch.queue.outstanding = 0 := rfl
    have habandoned := hinv.stages.abandoned (hinv.hasFailed_eq_false hrun)
    have hplaces := hinv.accounts.outstanding_eq
    have hbooked := hinv.accounts.outstanding
    obtain ⟨hcounted, herrors⟩ := hinv.counts.answered_eq
    have hworkers := hinv.crew.countWorkers_add_le (p := Worker.isCalling) (q := fun _ => false)
      fun _ _ => rfl
    have hcalling := hinv.links.calling
    have hlost := hinv.links.lost
    refine ⟨?_, ?_, ?_, UInt64.le_iff_toNat_le.2 herrors, ?_, ?_, ?_⟩
    · omega
    · omega
    · omega
    · rw [← hinv.accounts.capacity]
      exact hinv.accounts.sound.buffer_le
    · omega
    · omega
  · intro call hw
    obtain ⟨hn, s, hs, hflight⟩ := hinv.links.held t call (callOf_eq_some.2 ⟨w, ht, hw⟩)
    exact hinv.accounts.markDone_ok hn hs hflight
  · exact hinv.not_failed ht

/-- Two items have been put; one is buffered, the other in a call. -/
theorem items_balance_midway :
    let events : List Event := [.poll 0, .poll 0, .poll 0, .poll 1]
    (Orchestrator.small .goOn).Valid ∧
      ((Orchestrator.small .goOn).launch.play (fun _ => none) events).queue.buffer.length = 1 ∧
      ItemBalance (.small .goOn) 2 0
        ((Orchestrator.small .goOn).launch.play (fun _ => none) events) := by
  intro events
  have hvalid := Orchestrator.valid_small .goOn
  exact ⟨hvalid, rfl, (items_balance hvalid (fun _ => none) events).2.1 rfl⟩

end LoadGenerator
