import LoadGenerator.Proofs.Engine.Crew
import LoadGenerator.Proofs.WorkQueue.Dealings

/-!
# What one step of a task can do

`WorkerMove` and `DriverMove` list the ways in which a step of a worker or of the driver of a run
can end, each with the conditions under which it is taken and the engine that it leaves;
`stepWorker_move` and `stepDriver_move` say that there are no others. Invariants are proved move by
move, so that the step functions are opened only here.
-/

namespace LoadGenerator

namespace Worker

/-- The worker once it has noted the moment of its start. -/
def begun (w : Worker) : Worker :=
  { w with stats := w.stats.start 0 }

def tallied (w : Worker) (outcome : Outcome) : Worker :=
  { w with stats := (w.stats.record outcome).1 }

/-- The worker once an item is done with: it ends if it has cancelled the run. -/
def afterItem (w : Worker) (outcome : Outcome) : Option CancelReason → Worker
  | none => { w.tallied outcome with phase := .seeking }
  | some _ => (w.tallied outcome).finish .finished

end Worker

def Cancellation.heed (c : Cancellation) : Option CancelReason → Cancellation
  | none => c
  | some reason => c.cancel reason

namespace Engine

variable {script : Script} {e : Engine} {t : TaskId}

/-! ### The line -/

structure Alike (e e' : Engine) : Prop where
  queue : e'.queue = e.queue
  counter : e'.counter = e.counter
  context : e'.context = e.context
  log : e'.log = e.log
  tasks : e'.tasks = e.tasks

theorem callBack_alike (e : Engine) : e.Alike e.callBack :=
  ⟨rfl, rfl, rfl, rfl, rfl⟩

theorem callLate_alike (e : Engine) : e.Alike e.callLate := by
  unfold callLate
  split <;> exact ⟨rfl, rfl, rfl, rfl, rfl⟩

theorem endTurn_alike (e : Engine) : e.Alike e.endTurn := by
  obtain ⟨hq, hcounter, hcontext, hlog, htasks⟩ := callLate_alike
    (callBack { e with ready := e.ready.drop 1, putInTurn := 0, turns := e.turns + 1 })
  exact ⟨hq, hcounter, hcontext, hlog, htasks⟩

/-! ### Workers -/

/-- The reason for which a worker cancels the run after a reply to its call. -/
def verdict? (e : Engine) (w : Worker) (call : Nat) (reply : Reply) : Option CancelReason :=
  w.verdict? (((e.log.get? call).map Call.target).getD default) reply

/-- What a step of a worker leads to, and whether the worker may get further. -/
inductive WorkerMove (script : Script) (e : Engine) (t : TaskId) (w : Worker) :
    Engine × Bool → Prop
  | rest (h : w.hasEnded = true ∨ w.aborted = false ∧ ∃ call, w.phase = .calling call ∧
        e.log.reply? call = none) :
      WorkerMove script e t w (e, false)
  | dropPlace (hw : w.phase = .seeking) (ha : w.aborted = true) :
      WorkerMove script e t w
        ({ e.setTask t (.worker (w.finish .aborted)) with queue := e.queue.leave t }, false)
  | dropCall {call : Nat} (hw : w.phase = .calling call) (ha : w.aborted = true) :
      WorkerMove script e t w
        ({ e.setTask t (.worker (w.finish .aborted)) with log := e.log.set call .abandoned }, false)
  | quit (hw : w.phase = .seeking) (ha : w.aborted = false) (hc : e.context.isCancelled = true) :
      WorkerMove script e t w
        (({ e with queue := e.queue.leave t }).setTask t (.worker (w.begun.finish .finished)), false)
  | await {queue : WorkQueue WorkItem} (hw : w.phase = .seeking) (ha : w.aborted = false)
      (hc : e.context.isCancelled = false) (hq : e.queue.get t = (queue, .waiting)) :
      WorkerMove script e t w ({ e with queue }, false)
  | retire {queue : WorkQueue WorkItem} (hw : w.phase = .seeking) (ha : w.aborted = false)
      (hc : e.context.isCancelled = false) (hq : e.queue.get t = (queue, .done none)) :
      WorkerMove script e t w
        (({ e with queue }).setTask t (.worker (w.begun.finish .finished)), false)
  | start {queue : WorkQueue WorkItem} {item : WorkItem} (hw : w.phase = .seeking)
      (ha : w.aborted = false) (hc : e.context.isCancelled = false)
      (hq : e.queue.get t = (queue, .done (some item))) :
      WorkerMove script e t w
        (({ e with queue, log := e.log.startWith item.target (script (e.log.size + 1)) }).setTask t
          (.worker { w.begun with phase := .calling (e.log.size + 1) }), true)
  | lose {call : Nat} (hw : w.phase = .calling call) (ha : w.aborted = false)
      (hr : e.log.reply? call = some .breakdown) :
      WorkerMove script e t w
        (({ e with log := e.log.set call (.returned .breakdown) }).setTask t
          (.worker (w.finish .panicked)), false)
  | answer {call : Nat} {reply : Reply} {outcome : Outcome} {queue : WorkQueue WorkItem}
      (hw : w.phase = .calling call) (ha : w.aborted = false)
      (hr : e.log.reply? call = some reply) (ho : reply.outcome? = some outcome)
      (hq : e.queue.markDone = .ok queue) :
      WorkerMove script e t w
        (({ e with
            queue
            counter := e.counter.record outcome
            context := e.context.heed (e.verdict? w call reply)
            log := e.log.set call (.returned reply) }).setTask t
          (.worker (w.afterItem outcome (e.verdict? w call reply))),
          (e.verdict? w call reply).isNone)
  | blunder {call : Nat} {reply : Reply} {outcome : Outcome} {fault : QueueFault}
      (hw : w.phase = .calling call) (ha : w.aborted = false)
      (hr : e.log.reply? call = some reply) (ho : reply.outcome? = some outcome)
      (hq : e.queue.markDone = .error fault) :
      WorkerMove script e t w
        (({ e with
            counter := e.counter.record outcome
            context := e.context.heed (e.verdict? w call reply)
            log := e.log.set call (.returned reply) }).setTask t
          (.worker ((w.tallied outcome).finish (.failed (w.markFailure fault)))), false)

/-- A worker that has got an answer counts it, publishes its verdict, and only then settles the
item. -/
theorem takeReply_eq {w : Worker} {call : Nat} {reply : Reply} {outcome : Outcome}
    (ho : reply.outcome? = some outcome) : e.takeReply t w call reply =
      settleItem { e with
        counter := e.counter.record outcome
        context := e.context.heed (e.verdict? w call reply)
        log := e.log.set call (.returned reply) } t (w.tallied outcome)
      (e.verdict? w call reply).isSome := by
  unfold takeReply
  rw [ho]
  have hv : Worker.verdict? (w.tallied outcome) (((e.log.get? call).map Call.target).getD default)
      reply = e.verdict? w call reply := rfl
  unfold Worker.tallied at hv
  simp only [hv]
  cases e.verdict? w call reply <;> rfl

theorem takeReply_move {w : Worker} {call : Nat} {reply : Reply} (hw : w.phase = .calling call)
    (ha : w.aborted = false) (hr : e.log.reply? call = some reply) :
    WorkerMove script e t w (e.takeReply t w call reply) := by
  cases ho : reply.outcome? with
  | none =>
    have hreply : reply = .breakdown := by
      cases reply with
      | response | failure => cases ho
      | breakdown => rfl
    subst hreply
    exact .lose hw ha hr
  | some outcome =>
    rw [takeReply_eq ho]
    unfold settleItem
    cases hq : e.queue.markDone with
    | error fault =>
      exact .blunder hw ha hr ho hq
    | ok queue =>
      have hmove : WorkerMove script e t w _ := .answer hw ha hr ho hq
      cases hv : e.verdict? w call reply <;> rw [hv] at hmove <;> exact hmove

theorem stepWorker_move (script : Script) (e : Engine) (t : TaskId) (w : Worker) :
    WorkerMove script e t w (e.stepWorker script t w) := by
  unfold stepWorker
  by_cases hended : w.hasEnded = true
  · rw [if_pos hended]
    exact .rest (.inl hended)
  rw [if_neg hended]
  by_cases ha : w.aborted = true
  · rw [if_pos ha]
    unfold dropWorker
    cases hw : w.phase with
    | seeking => exact .dropPlace hw ha
    | calling call => exact .dropCall hw ha
    | ended how =>
      rw [Worker.hasEnded, hw] at hended
      exact absurd rfl hended
  rw [if_neg ha]
  have ha := Bool.eq_false_iff.2 ha
  cases hw : w.phase with
  | seeking =>
    simp only [seek]
    by_cases hc : e.context.isCancelled = true
    · rw [if_pos hc]
      exact .quit hw ha hc
    rw [if_neg hc]
    have hc := Bool.eq_false_iff.2 hc
    rcases hq : e.queue.get t with ⟨queue, (_ | item) | _⟩
    · exact .retire hw ha hc hq
    · exact .start hw ha hc hq
    · exact .await hw ha hc hq
  | calling call =>
    simp only
    cases hr : e.log.reply? call with
    | none => exact .rest (.inr ⟨ha, call, hw, hr⟩)
    | some reply => exact takeReply_move hw ha hr
  | ended how =>
    rw [Worker.hasEnded, hw] at hended
    exact absurd rfl hended

/-! ### The driver -/

/-- What a step of a driver leads to, and whether the driver may get further. -/
inductive DriverMove (e : Engine) (t : TaskId) (d : RunDriver) : Engine × Bool → Prop
  | rest (h : d.stage = .draining ∧ e.context.reason = none ∧ e.queue.drained = false ∨
        d.stage = .stopping ∧ e.allEnded d.members = false ∨ ∃ how, d.stage = .over how) :
      DriverMove e t d (e, false)
  | refuse (hs : d.stage = .starting) (hsize : d.size = 0) :
      DriverMove e t d (e.setTask t (.driver { d with stage := .over (.failed emptyPool) }), false)
  | launch (hs : d.stage = .starting) (hsize : d.size ≠ 0) :
      DriverMove e t d
        ((e.setTask t (.driver { d with members := e.nextIds d.size, stage := .submitting })).spawnAll
          (poolWorkers d.size d.policy), true)
  | giveUp {reason : CancelReason} (hs : d.stage = .submitting ∨ d.stage = .draining)
      (hr : e.context.reason = some reason) :
      DriverMove e t d (e.giveUp t d (.ofReason reason), false)
  | submitted (hs : d.stage = .submitting) (hr : e.context.reason = none)
      (hn : d.source.remaining = 0) :
      DriverMove e t d (e.setTask t (.driver { d with stage := .draining }), true)
  | await {queue : WorkQueue WorkItem} (hs : d.stage = .submitting)
      (hr : e.context.reason = none) (hn : d.source.remaining ≠ 0)
      (hq : e.queue.put t ⟨d.source.target⟩ = (queue, .waiting)) :
      DriverMove e t d ({ e with queue }, false)
  | refused {queue : WorkQueue WorkItem} {fault : QueueFault} (hs : d.stage = .submitting)
      (hr : e.context.reason = none) (hn : d.source.remaining ≠ 0)
      (hq : e.queue.put t ⟨d.source.target⟩ = (queue, .done (.error fault))) :
      DriverMove e t d (({ e with queue }).giveUp t d (.ofQueueFault fault), false)
  | put {queue : WorkQueue WorkItem} {n : Nat} (hs : d.stage = .submitting)
      (hr : e.context.reason = none) (hn : d.source.remaining = n + 1)
      (hq : e.queue.put t ⟨d.source.target⟩ = (queue, .done (.ok ()))) :
      DriverMove e t d
        (({ e with queue }).setTask t
          (.driver { d with source := { d.source with remaining := n } }), true)
  | drained (hs : d.stage = .draining) (hr : e.context.reason = none)
      (hd : e.queue.drained = true) :
      DriverMove e t d (e.setTask t (.driver { d with stage := .closing }), true)
  | close (hs : d.stage = .closing) :
      DriverMove e t d
        (({ e with queue := e.queue.close }).setTask t (.driver { d with stage := .stopping }), true)
  | complete (hs : d.stage = .stopping) (hd : e.allEnded d.members = true) :
      DriverMove e t d
        (e.setTask t (.driver { d with
          stage := .over (.completed e.counter.snapshot (e.shares d.members)) }), false)

/-- Giving up leaves and closes the queue, and changes nothing else but tasks. -/
theorem giveUp_eq (e : Engine) (t : TaskId) (d : RunDriver) (error : Error) :
    e.giveUp t d error =
      { e with queue := (e.queue.leave t).close, tasks := (e.giveUp t d error).tasks } := by
  unfold giveUp
  rw [abortAll_eq]
  rfl

theorem DriverMove.log {d : RunDriver} {r : Engine × Bool} (h : DriverMove e t d r) :
    r.1.log = e.log := by
  cases h with
  | launch => rw [spawnAll_eq]; rfl
  | giveUp | refused => rw [giveUp_eq]
  | _ => rfl

theorem DriverMove.context {d : RunDriver} {r : Engine × Bool} (h : DriverMove e t d r) :
    r.1.context = e.context := by
  cases h with
  | launch => rw [spawnAll_eq]; rfl
  | giveUp | refused => rw [giveUp_eq]
  | _ => rfl

theorem submit_move {d : RunDriver} (hs : d.stage = .submitting) (hr : e.context.reason = none) :
    DriverMove e t d (e.submit t d) := by
  unfold submit WorkSource.next
  cases hn : d.source.remaining with
  | zero => exact .submitted hs hr hn
  | succ n =>
    have hne : d.source.remaining ≠ 0 := by omega
    simp only
    rcases hq : e.queue.put t ⟨d.source.target⟩ with ⟨queue, (fault | _) | _⟩
    · exact .refused hs hr hne hq
    · exact .put hs hr hn hq
    · exact .await hs hr hne hq

theorem stepDriver_move (e : Engine) (t : TaskId) (d : RunDriver) :
    DriverMove e t d (e.stepDriver t d) := by
  unfold stepDriver
  cases hs : d.stage with
  | starting =>
    simp only
    by_cases hsize : d.size = 0
    · rw [if_pos hsize]
      exact .refuse hs hsize
    · rw [if_neg hsize]
      exact .launch hs hsize
  | submitting =>
    simp only
    cases hr : e.context.reason with
    | some reason => exact .giveUp (.inl hs) hr
    | none => exact submit_move hs hr
  | draining =>
    simp only
    cases hr : e.context.reason with
    | some reason => exact .giveUp (.inr hs) hr
    | none =>
      simp only
      by_cases hd : e.queue.drained = true
      · rw [if_pos hd]
        exact .drained hs hr hd
      · rw [if_neg hd]
        exact .rest (.inl ⟨hs, hr, Bool.eq_false_iff.2 hd⟩)
  | closing => exact .close hs
  | stopping =>
    simp only
    by_cases hd : e.allEnded d.members = true
    · rw [if_pos hd]
      exact .complete hs hd
    · rw [if_neg hd]
      exact .rest (.inr (.inl ⟨hs, Bool.eq_false_iff.2 hd⟩))
  | _ => exact .rest (.inr (.inr ⟨_, hs⟩))

end Engine

end LoadGenerator
