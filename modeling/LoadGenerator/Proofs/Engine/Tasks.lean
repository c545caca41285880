import LoadGenerator.Proofs.Run.Readiness

/-!
# What one step of any task can do

Outside a run there are producers, joiners and shutdowns beside the workers. `ProducerMove` lists
the ways in which a step of a producer can end, `TaskMove` those of a task of any kind
(`step_move`). A step of one task leaves every worker a worker: it moves on itself, or it is told to
drop everything (`TaskMove.worker_at`), and nobody else becomes one.
-/

namespace LoadGenerator

namespace Engine

variable {script : Script} {e : Engine} {t u : TaskId} {w : Worker} {r : Engine × Bool}

/-- What a step of a producer leads to, and whether the producer may get further. -/
inductive ProducerMove (e : Engine) (t : TaskId) (p : Producer) : Engine × Bool → Prop
  | rest (h : p.put = p.total ∨ p.fault.isSome = true) : ProducerMove e t p (e, false)
  | reserve {queue : WorkQueue WorkItem} (hq : e.queue.reserve? t = some queue) :
      ProducerMove e t p ({ e with queue, late := t :: e.late }, false)
  | await {queue : WorkQueue WorkItem} (hq : e.queue.put t p.item = (queue, .waiting)) :
      ProducerMove e t p ({ e with queue }, false)
  | refused {queue : WorkQueue WorkItem} {fault : QueueFault}
      (hq : e.queue.put t p.item = (queue, .done (.error fault))) :
      ProducerMove e t p
        (({ e with queue }).setTask t (.producer { p with fault := some fault }), false)
  | put {queue : WorkQueue WorkItem} (hq : e.queue.put t p.item = (queue, .done (.ok ()))) :
      ProducerMove e t p
        (({ e with queue, putInTurn := e.putInTurn + 1 }).setTask t
          (.producer { p with put := p.put + 1 }), true)

theorem stepProducer_move (e : Engine) (t : TaskId) (p : Producer) :
    ProducerMove e t p (e.stepProducer t p) := by
  unfold stepProducer
  split
  · exact .rest ‹_›
  cases hlate : e.reserveLate? t with
  | some queue =>
    refine .reserve ?_
    unfold reserveLate? at hlate
    split at hlate
    · cases hlate
    · exact hlate
  | none =>
    rcases hq : e.queue.put t p.item with ⟨queue, (fault | _) | _⟩
    · exact .refused hq
    · exact .put hq
    · exact .await hq

/-- What a step of a task leads to, and whether the task may get further. -/
inductive TaskMove (script : Script) (e : Engine) (t : TaskId) : Engine × Bool → Prop
  | rest (ht : ∀ w, e.tasks[t]? ≠ some (.worker w)) : TaskMove script e t (e, false)
  | worker {w : Worker} {r : Engine × Bool} (ht : e.tasks[t]? = some (.worker w))
      (hm : WorkerMove script e t w r) : TaskMove script e t r
  | driver {d : RunDriver} {r : Engine × Bool} (ht : e.tasks[t]? = some (.driver d))
      (hm : DriverMove e t d r) : TaskMove script e t r
  | producer {p : Producer} {r : Engine × Bool} (ht : e.tasks[t]? = some (.producer p))
      (hm : ProducerMove e t p r) : TaskMove script e t r
  | join (ht : e.tasks[t]? = some (.joiner false)) :
      TaskMove script e t (e.setTask t (.joiner true), false)
  | close {s : Shutdown} (ht : e.tasks[t]? = some (.shutdown s)) :
      TaskMove script e t
        (({ e with queue := e.queue.close }).setTask t (.shutdown { s with closed := true }), true)
  | shutDown {s : Shutdown} (ht : e.tasks[t]? = some (.shutdown s))
      (hd : e.allEnded s.members = true) :
      TaskMove script e t (e.setTask t (.shutdown { s with done := true }), false)

theorem stepShutdown_move {s : Shutdown} (ht : e.tasks[t]? = some (.shutdown s)) :
    TaskMove script e t (e.stepShutdown t s) := by
  have hnot : ∀ w, e.tasks[t]? ≠ some (.worker w) := by
    intro w hw
    rw [ht] at hw
    cases hw
  unfold stepShutdown
  split
  · exact .rest hnot
  split
  · exact .close ht
  split
  · exact .shutDown ht ‹_›
  · exact .rest hnot

theorem step_move (script : Script) (e : Engine) (t : TaskId) :
    TaskMove script e t (e.step script t) := by
  unfold step
  cases ht : e.tasks[t]? with
  | none => exact .rest fun w hw => by rw [ht] at hw; cases hw
  | some task =>
    cases task with
    | worker w => exact .worker ht (stepWorker_move script e t w)
    | producer p => exact .producer ht (stepProducer_move e t p)
    | joiner done =>
      simp only
      split
      · cases done with
        | false => exact .join ht
        | true => cases ‹(!true && _) = true›
      · exact .rest fun w hw => by rw [ht] at hw; cases hw
    | shutdown s => exact stepShutdown_move ht
    | driver d => exact .driver ht (stepDriver_move e t d)

/-! ### What a step does to workers -/

/-- Another task has done nothing to a worker, or has told it to drop everything. -/
def Spared (w v : Worker) : Prop :=
  v = w ∨ w.hasEnded = false ∧ v = { w with aborted := true }

theorem worker_abortAll (members : List TaskId) (hu : e.tasks[u]? = some (.worker w)) :
    ∃ v, (e.abortAll members).tasks[u]? = some (.worker v) ∧ Spared w v := by
  rw [getElem?_abortAll, hu]
  split
  · show ∃ v, some (if w.hasEnded then Task.worker w else .worker { w with aborted := true }) = _ ∧ _
    split
    · exact ⟨w, rfl, .inl rfl⟩
    · exact ⟨_, rfl, .inr ⟨Bool.eq_false_iff.2 ‹_›, rfl⟩⟩
  · exact ⟨w, rfl, .inl rfl⟩

theorem DriverMove.worker {d : RunDriver} (ht : e.tasks[t]? = some (.driver d))
    (hm : DriverMove e t d r) (hu : e.tasks[u]? = some (.worker w)) :
    ∃ v, r.1.tasks[u]? = some (.worker v) ∧ Spared w v := by
  have hne : u ≠ t := by
    rintro rfl
    rw [ht] at hu
    cases hu
  have hset : ∀ d', (e.tasks.set t (.driver d'))[u]? = some (.worker w) :=
    fun _ => (getElem?_set_of_ne hne).trans hu
  cases hm with
  | rest | await => exact ⟨w, hu, .inl rfl⟩
  | refuse | submitted | put | drained | close | complete => exact ⟨w, hset _, .inl rfl⟩
  | launch =>
    rw [spawnAll_eq]
    have hold := hset { d with members := e.nextIds d.size, stage := .submitting }
    have hlt := (List.getElem?_eq_some_iff.1 hold).1
    exact ⟨w, (List.getElem?_append_left hlt).trans hold, .inl rfl⟩
  | giveUp | refused => exact worker_abortAll _ (hset _)

/-- A worker moves on itself, or the step is that of another task. -/
theorem TaskMove.worker_at (hm : TaskMove script e t r) (hu : e.tasks[u]? = some (.worker w)) :
    u = t ∧ WorkerMove script e t w r ∨
      u ≠ t ∧ ∃ v, r.1.tasks[u]? = some (.worker v) ∧ Spared w v := by
  by_cases hut : u = t
  · subst hut
    refine .inl ⟨rfl, ?_⟩
    cases hm with
    | rest ht => exact absurd hu (ht w)
    | worker ht hm =>
      rw [hu] at ht
      cases ht
      exact hm
    | driver ht | producer ht | join ht | close ht | shutDown ht =>
      rw [hu] at ht
      cases ht
  refine .inr ⟨hut, ?_⟩
  have hset : ∀ task, (e.tasks.set t task)[u]? = some (.worker w) :=
    fun _ => (getElem?_set_of_ne hut).trans hu
  cases hm with
  | rest => exact ⟨w, hu, .inl rfl⟩
  | worker ht hm =>
    obtain ⟨-, -, -, -, hothers⟩ := hm.frame ht
    exact ⟨w, (hothers u hut).trans hu, .inl rfl⟩
  | driver ht hm => exact hm.worker ht hu
  | producer ht hm =>
    cases hm with
    | rest | reserve | await => exact ⟨w, hu, .inl rfl⟩
    | refused | put => exact ⟨w, hset _, .inl rfl⟩
  | join | close | shutDown => exact ⟨w, hset _, .inl rfl⟩

/-! ### What a step does to the others -/

/-- The line gets longer at its end, nobody stops being late, and another task is as it was, has
been told to drop everything, or has just come into the line. -/
theorem TaskMove.frame (hm : TaskMove script e t r) :
    (∀ u ∈ e.late, u ∈ r.1.late) ∧ ∃ more, r.1.ready = e.ready ++ more ∧
      ∀ (u : TaskId) task, u ≠ t → r.1.tasks[u]? = some task → u ∈ more ∨
        e.tasks[u]? = some task ∨ (e.tasks[u]?).map Task.abort = some task := by
  have hline : e.ready = e.ready ++ [] := (List.append_nil _).symm
  have hset : ∀ {x : Task} (u : TaskId) task, u ≠ t → (e.tasks.set t x)[u]? = some task →
      u ∈ ([] : List TaskId) ∨
        e.tasks[u]? = some task ∨ (e.tasks[u]?).map Task.abort = some task :=
    fun u task hne h => .inr (.inl ((getElem?_set_of_ne hne).symm.trans h))
  cases hm with
  | rest => exact ⟨fun _ => id, [], hline, fun _ _ _ h => .inr (.inl h)⟩
  | worker ht hm =>
    obtain ⟨hready, hlate, -, -, hothers⟩ := hm.frame ht
    refine ⟨fun _ hu => hlate ▸ hu, [], hready.trans hline, fun u task hne h => ?_⟩
    exact .inr (.inl ((hothers u hne).symm.trans h))
  | driver ht hm =>
    obtain ⟨hlate, hrest⟩ := hm.frame
    exact ⟨fun _ hu => hlate ▸ hu, hrest⟩
  | producer ht hm =>
    cases hm with
    | rest | await => exact ⟨fun _ => id, [], hline, fun _ _ _ h => .inr (.inl h)⟩
    | reserve => exact ⟨fun _ => List.mem_cons_of_mem _, [], hline, fun _ _ _ h => .inr (.inl h)⟩
    | refused | put => exact ⟨fun _ => id, [], hline, hset⟩
  | join | close | shutDown => exact ⟨fun _ => id, [], hline, hset⟩

/-- Whoever is no worker does not become one. -/
theorem TaskMove.stays {task : Task} (hm : TaskMove script e t r) (hu : e.tasks[u]? = some task)
    (hw : task.worker? = none) : ∃ x, r.1.tasks[u]? = some x ∧ x.worker? = none := by
  have hset : ∀ {x : Task}, x.worker? = none →
      ∃ y, (e.tasks.set t x)[u]? = some y ∧ y.worker? = none := by
    intro x hx
    by_cases hut : u = t
    · subst hut
      exact ⟨x, getElem?_set_same hu x, hx⟩
    · exact ⟨task, (getElem?_set_of_ne hut).trans hu, hw⟩
  cases hm with
  | rest => exact ⟨task, hu, hw⟩
  | worker ht hm =>
    obtain ⟨-, -, -, -, hothers⟩ := hm.frame ht
    refine ⟨task, (hothers u ?_).trans hu, hw⟩
    rintro rfl
    rw [ht] at hu
    cases hu
    cases hw
  | driver ht hm =>
    cases hm with
    | rest | await => exact ⟨task, hu, hw⟩
    | refuse | submitted | put | drained | close | complete => exact hset rfl
    | launch =>
      rw [spawnAll_eq]
      obtain ⟨x, hx, hnone⟩ := hset (x := .driver _) rfl
      have hlt := (List.getElem?_eq_some_iff.1 hx).1
      exact ⟨x, (List.getElem?_append_left hlt).trans hx, hnone⟩
    | giveUp | refused =>
      obtain ⟨x, hx, hnone⟩ := hset (x := .driver _) rfl
      unfold giveUp
      rw [getElem?_abortAll]
      split
      · exact ⟨x.abort, congrArg (Option.map Task.abort) hx, Task.worker?_abort hnone⟩
      · exact ⟨x, hx, hnone⟩
  | producer ht hm =>
    cases hm with
    | rest | reserve | await => exact ⟨task, hu, hw⟩
    | refused | put => exact hset rfl
  | join | close | shutDown => exact hset rfl

end Engine

end LoadGenerator
