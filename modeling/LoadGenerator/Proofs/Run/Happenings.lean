import LoadGenerator.Bench
import LoadGenerator.Proofs.Engine.Tasks
import LoadGenerator.Proofs.Pool.Holdings
import LoadGenerator.Proofs.WorkQueue.Requests

/-!
# Histories of an engine

Besides the events of a run, tasks may be added to an engine, items marked as done, the queue may be
closed and workers told to drop everything: a `Happening` is one of these. Runs are such histories
(`Orchestrator.play_launch`), and so is what is done at a bench (`Bench.Used.eq_undergoAll`). In all
of them no worker ever stands in the line for slots (`Slotted.undergo`).
-/

namespace LoadGenerator

/-- What may happen to an engine. -/
inductive Happening where
  | event (event : Event)
  | spawn (task : Task)
  | markDone
  | close
  | abort (members : List TaskId)
  deriving DecidableEq, Repr

namespace Engine

variable {script : Script} {e : Engine} {t u : TaskId} {w : Worker} {d : RunDriver} {p : Producer}
  {r : Engine × Bool}

/-- An engine in which there are no tasks yet. -/
def idle (capacity : Nat) (context : Cancellation) (log : CallLog) : Engine where
  queue := .ofCapacity capacity
  context := context
  log := log

def undergo (script : Script) (e : Engine) : Happening → Engine
  | .event event => e.react script event
  | .spawn task => e.spawn task
  | .markDone =>
    match e.queue.markDone with
    | .ok queue => { e with queue }.callBack
    | .error _ => e
  | .close => { e with queue := e.queue.close }.callBack
  | .abort members => (e.abortAll members).callBack

def undergoAll (script : Script) (e : Engine) (happenings : List Happening) : Engine :=
  happenings.foldl (undergo script) e

theorem undergoAll_append (script : Script) (e : Engine) (happenings more : List Happening) :
    e.undergoAll script (happenings ++ more) =
      (e.undergoAll script happenings).undergoAll script more :=
  List.foldl_append

theorem undergoAll_events (script : Script) (e : Engine) (events : List Event) :
    e.undergoAll script (events.map .event) = e.play script events := by
  unfold undergoAll play
  rw [List.foldl_map]
  rfl

theorem undergoAll_spawn (script : Script) (e : Engine) (tasks : List Task) :
    e.undergoAll script (tasks.map .spawn) = e.spawnAll tasks := by
  unfold undergoAll spawnAll
  rw [List.foldl_map]
  rfl

/-! ### Who waits for a slot -/

/-- No worker stands in the line for slots. -/
structure Slotted (e : Engine) : Prop where
  sound : e.queue.Sound
  puts : ∀ t ∈ e.queue.putLine, ∃ task, e.tasks[t]? = some task ∧ task.worker? = none

theorem Slotted.not_mem (h : Slotted e) (ht : e.tasks[t]? = some (.worker w)) :
    t ∉ e.queue.putLine := by
  intro hmem
  obtain ⟨task, htask, hnone⟩ := h.puts t hmem
  rw [ht] at htask
  cases htask
  cases hnone

theorem WorkerMove.putLine (hm : WorkerMove script e t w r) (hs : e.queue.Sound)
    (hu : u ∈ r.1.queue.putLine) : u ∈ e.queue.putLine := by
  have hleave : u ∈ (e.queue.leave t).putLine → u ∈ e.queue.putLine := by
    rw [WorkQueue.putLine_leave]
    exact List.mem_of_mem_erase
  cases hm with
  | rest | dropCall | lose | blunder => exact hu
  | dropPlace | quit => exact hleave hu
  | await _ _ _ hq => rwa [(WorkQueue.putLine_get_waiting hs hq).1] at hu
  | retire _ _ _ hq | start _ _ _ hq => exact (WorkQueue.putLine_get_done hs hq).1 ▸ hu
  | answer _ _ _ _ hq =>
    rw [(WorkQueue.markDone_ok hq).1] at hu
    exact hu

theorem DriverMove.sound (hm : DriverMove e t d r) (hs : e.queue.Sound) : r.1.queue.Sound := by
  have hleave := ((WorkQueue.leave_dealing e.queue t).1.sound hs).close
  cases hm with
  | rest | refuse | submitted | drained | complete => exact hs
  | launch => rw [spawnAll_eq]; exact hs
  | giveUp => rw [giveUp_eq]; exact hleave
  | refused _ _ _ hq => rw [giveUp_eq, (WorkQueue.put_error hq).1]; exact hleave
  | await _ _ _ hq => exact (WorkQueue.put_waiting hq).1.sound hs
  | put _ _ _ hq => exact (WorkQueue.put_ok hq).1.sound hs
  | close => exact hs.close

theorem DriverMove.putLine (hm : DriverMove e t d r) (hu : u ∈ r.1.queue.putLine) :
    u ∈ e.queue.putLine ∨ u = t := by
  have hleave : u ∈ (e.queue.leave t).close.putLine → u ∈ e.queue.putLine := by
    show u ∈ (e.queue.leave t).putLine → _
    rw [WorkQueue.putLine_leave]
    exact List.mem_of_mem_erase
  cases hm with
  | rest | refuse | submitted | drained | close | complete => exact .inl hu
  | launch =>
    rw [spawnAll_eq] at hu
    exact .inl hu
  | giveUp =>
    rw [giveUp_eq] at hu
    exact .inl (hleave hu)
  | refused _ _ _ hq =>
    rw [giveUp_eq, (WorkQueue.put_error hq).1] at hu
    exact .inl (hleave hu)
  | await _ _ _ hq =>
    rw [(WorkQueue.putLine_put_waiting hq).1] at hu
    exact WorkQueue.mem_standIn.1 hu
  | put _ _ _ hq =>
    rw [setTask, (WorkQueue.putLine_put_ok hq).1] at hu
    exact .inl (List.mem_of_mem_erase hu)

theorem ProducerMove.sound (hm : ProducerMove e t p r) (hs : e.queue.Sound) : r.1.queue.Sound := by
  cases hm with
  | rest => exact hs
  | reserve hq => exact (WorkQueue.reserve?_dealing hq).1.sound hs
  | await hq => exact (WorkQueue.put_waiting hq).1.sound hs
  | refused hq => exact (WorkQueue.put_error hq).1 ▸ hs
  | put hq => exact (WorkQueue.put_ok hq).1.sound hs

theorem ProducerMove.putLine (hm : ProducerMove e t p r) (hu : u ∈ r.1.queue.putLine) :
    u ∈ e.queue.putLine ∨ u = t := by
  cases hm with
  | rest => exact .inl hu
  | reserve hq =>
    unfold WorkQueue.reserve? at hq
    split at hq
    · cases hq
    · cases hq
      simpa [WorkQueue.putLine, or_assoc, or_comm, or_left_comm] using hu
  | await hq =>
    rw [(WorkQueue.putLine_put_waiting hq).1] at hu
    exact WorkQueue.mem_standIn.1 hu
  | refused hq => exact .inl ((WorkQueue.put_error hq).1 ▸ hu)
  | put hq =>
    rw [setTask, (WorkQueue.putLine_put_ok hq).1] at hu
    exact .inl (List.mem_of_mem_erase hu)

namespace Slotted

theorem idle (capacity : Nat) (context : Cancellation) (log : CallLog) :
    Slotted (.idle capacity context log) :=
  ⟨WorkQueue.sound_ofCapacity capacity, nofun⟩

theorem move (h : Slotted e) (hm : TaskMove script e t r) : Slotted r.1 := by
  have hself : ∀ {task : Task}, e.tasks[t]? = some task → task.worker? = none →
      (∀ u ∈ r.1.queue.putLine, u ∈ e.queue.putLine ∨ u = t) →
      ∀ u ∈ r.1.queue.putLine, ∃ task, e.tasks[u]? = some task ∧ task.worker? = none := by
    intro task ht hnone hline u hu
    rcases hline u hu with hu | rfl
    · exact h.puts u hu
    · exact ⟨task, ht, hnone⟩
  have hqueue : r.1.queue.Sound ∧
      ∀ u ∈ r.1.queue.putLine, ∃ task, e.tasks[u]? = some task ∧ task.worker? = none := by
    cases hm with
    | rest | join | shutDown => exact ⟨h.sound, h.puts⟩
    | close => exact ⟨h.sound.close, h.puts⟩
    | worker ht hm =>
      exact ⟨hm.dealing.sound h.sound, fun u hu => h.puts u (hm.putLine h.sound hu)⟩
    | driver ht hm => exact ⟨hm.sound h.sound, hself ht rfl fun u => hm.putLine⟩
    | producer ht hm => exact ⟨hm.sound h.sound, hself ht rfl fun u => hm.putLine⟩
  refine ⟨hqueue.1, fun u hu => ?_⟩
  obtain ⟨task, ht, hnone⟩ := hqueue.2 u hu
  exact hm.stays ht hnone

theorem alike {e' : Engine} (h : Slotted e) (he : e.Alike e') : Slotted e' := by
  obtain ⟨hqueue, -, -, -, htasks⟩ := he
  exact ⟨hqueue ▸ h.sound, hqueue ▸ htasks ▸ h.puts⟩

theorem undergo (h : Slotted e) (script : Script) (happening : Happening) :
    Slotted (e.undergo script happening) := by
  cases happening with
  | event event =>
    cases event with
    | poll t =>
      have hfront : Slotted (e.front t) := ⟨h.sound, h.puts⟩
      exact (hfront.move (step_move script (e.front t) t)).alike (poll_alike script e t)
    | reply | cancel | pause => exact ⟨h.sound, h.puts⟩
  | spawn task =>
    refine ⟨h.sound, fun u hu => ?_⟩
    obtain ⟨task, hu, hnone⟩ := h.puts u hu
    have hlt := (List.getElem?_eq_some_iff.1 hu).1
    exact ⟨task, (List.getElem?_append_left hlt).trans hu, hnone⟩
  | markDone =>
    unfold Engine.undergo
    cases hq : e.queue.markDone with
    | error fault => exact h
    | ok queue =>
      obtain ⟨hqueue, -⟩ := WorkQueue.markDone_ok hq
      have hline : queue.putLine = e.queue.putLine := by rw [hqueue]; rfl
      have hsound : queue.Sound := by rw [hqueue]; exact ⟨h.sound.slots, h.sound.full, h.sound.turn⟩
      exact ⟨hsound, fun u hu => h.puts u (hline ▸ hu)⟩
  | close => exact ⟨h.sound.close, h.puts⟩
  | abort members =>
    have hqueue : (e.abortAll members).queue = e.queue.close := by rw [abortAll_eq]
    refine (alike · (callBack_alike _)) ⟨?_, fun u hu => ?_⟩
    · rw [hqueue]
      exact h.sound.close
    · rw [hqueue] at hu
      obtain ⟨task, ht, hnone⟩ := h.puts u hu
      rw [getElem?_abortAll, ht]
      split
      · exact ⟨task.abort, rfl, Task.worker?_abort hnone⟩
      · exact ⟨task, rfl, hnone⟩

end Slotted

end Engine

/-! ### Runs and benches -/

/-- The driver of a run before its first step. -/
def Orchestrator.driver (o : Orchestrator) : RunDriver where
  size := o.size
  policy := o.config.failurePolicy
  source := ⟨o.target, o.total⟩

theorem Orchestrator.play_launch (o : Orchestrator) (script : Script) (events : List Event) :
    o.launch.play script events =
      (Engine.idle o.capacity o.current o.log).undergoAll script
        (.spawn (.driver o.driver) :: events.map .event) :=
  (Engine.undergoAll_events script o.launch events).symm

namespace Bench

theorem settle_eq (b : Bench) :
    ∃ happenings, b.settle.engine = b.engine.undergoAll script happenings := by
  obtain ⟨events, -, he⟩ := Engine.calmly_settle script b.engine
  exact ⟨events.map .event, he.trans (Engine.undergoAll_events _ _ _).symm⟩

theorem dropPool_eq (b : Bench) :
    ∃ happenings, b.dropPool.engine = b.engine.undergoAll script happenings := by
  unfold dropPool
  cases b.pool with
  | none => exact ⟨[], rfl⟩
  | some members => exact ⟨[.abort members], rfl⟩

theorem start_eq (b : Bench) (size : Nat) (policy : FailurePolicy) (parts : List Part) :
    ∃ happenings, (b.start size policy parts).1.engine = b.engine.undergoAll script happenings := by
  unfold start
  split
  · exact ⟨[], rfl⟩
  split
  · exact ⟨[], rfl⟩
  · obtain ⟨happenings, h⟩ := dropPool_eq
      { b with engine := b.engine.spawnAll (Engine.poolWorkers size policy) }
    refine ⟨(Engine.poolWorkers size policy).map .spawn ++ happenings, ?_⟩
    rw [Engine.undergoAll_append, Engine.undergoAll_spawn]
    exact h

/-- Whatever is done at a bench comes to some happenings. -/
theorem act_eq (b : Bench) (action : Action) :
    ∃ happenings, (b.act action).1.engine = b.engine.undergoAll script happenings := by
  cases action with
  | put count target => exact ⟨[.spawn _], rfl⟩
  | start size policy parts => exact b.start_eq size policy parts
  | worker id policy parts =>
    show ∃ happenings, (b.startWorker id policy parts).1.engine = _
    unfold startWorker
    cases Worker.missing? parts with
    | some part => exact ⟨[], rfl⟩
    | none => exact ⟨[.spawn _], rfl⟩
  | join => exact ⟨[.spawn _], rfl⟩
  | markDone =>
    refine ⟨[.markDone], ?_⟩
    simp only [act, Engine.undergoAll, List.foldl_cons, List.foldl_nil, Engine.undergo]
    cases b.engine.queue.markDone <;> rfl
  | close => exact ⟨[.close], rfl⟩
  | cancel reason => exact ⟨[.event (.cancel reason)], rfl⟩
  | shutdown =>
    show ∃ happenings, b.shutdown.engine = _
    unfold shutdown
    cases b.pool with
    | none => exact ⟨[], rfl⟩
    | some members => exact ⟨[.spawn _], rfl⟩
  | abort | dropPool => exact b.dropPool_eq
  | reply reply whom =>
    obtain ⟨events, -, he⟩ := Engine.calmly_receive script b.engine reply whom
    exact ⟨events.map .event, he.trans (Engine.undergoAll_events _ _ _).symm⟩
  | look => exact ⟨[], rfl⟩

/-- A bench at which things have been done since it was new, with tasks that step in any order. -/
inductive Used : Bench → Prop
  | new {capacity : UInt64} {b : Bench} (h : new capacity = .ok b) : Used b
  | act {b : Bench} (h : Used b) (action : Action) : Used (b.act action).1
  | event {b : Bench} (h : Used b) (event : Event) :
      Used { b with engine := b.engine.react script event }
  | settle {b : Bench} (h : Used b) : Used b.settle

theorem Used.eq_undergoAll {b : Bench} (h : b.Used) : ∃ capacity happenings,
    b.engine = (Engine.idle capacity {} {}).undergoAll script happenings := by
  induction h with
  | @new capacity b h =>
    unfold Bench.new at h
    cases hnew : (WorkQueue.new capacity : Except CapacityFault (WorkQueue WorkItem)) with
    | error fault =>
      rw [hnew] at h
      cases h
    | ok queue =>
      rw [hnew] at h
      cases h
      obtain ⟨-, -, rfl⟩ := WorkQueue.new_eq_ok_iff.1 hnew
      exact ⟨_, [], rfl⟩
  | @act b _ action ih =>
    obtain ⟨capacity, happenings, he⟩ := ih
    obtain ⟨more, hmore⟩ := b.act_eq action
    refine ⟨capacity, happenings ++ more, ?_⟩
    rw [hmore, he, Engine.undergoAll_append]
  | @event b _ event ih =>
    obtain ⟨capacity, happenings, he⟩ := ih
    refine ⟨capacity, happenings ++ [.event event], ?_⟩
    rw [Engine.undergoAll_append, ← he]
    rfl
  | @settle b _ ih =>
    obtain ⟨capacity, happenings, he⟩ := ih
    obtain ⟨more, hmore⟩ := b.settle_eq
    refine ⟨capacity, happenings ++ more, ?_⟩
    rw [hmore, he, Engine.undergoAll_append]

end Bench

end LoadGenerator
