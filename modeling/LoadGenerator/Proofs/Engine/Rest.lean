import LoadGenerator.Proofs.Engine.Tasks

/-!
# Tasks at rest

A worker that has ended, or that has been told to drop everything, will record no outcome and mark
no item as done: it is at rest, like a driver that has returned. While all workers and drivers are
at rest the counter stands still and what is outstanding grows only by the items that producers put
(`standstill_play`). A worker at rest stays so whatever the other tasks do (`dropped_play`).
-/

namespace LoadGenerator

/-- A worker that is told to drop everything does nothing else. -/
structure Worker.Dropped (w v : Worker) : Prop where
  rests : v.hasEnded = true ∨ v.aborted = true
  tally : ∀ x, v.stats.get x = w.stats.get x
  phase : v.phase = w.phase ∨ w.hasEnded = false ∧ v.phase = .ended .aborted

theorem Worker.Dropped.refl {w : Worker} (h : w.hasEnded = true ∨ w.aborted = true) :
    w.Dropped w :=
  ⟨h, fun _ => rfl, .inl rfl⟩

theorem Worker.Dropped.trans {w v x : Worker} (h : w.Dropped v) (h' : v.Dropped x) :
    w.Dropped x := by
  refine ⟨h'.rests, fun y => (h'.tally y).trans (h.tally y), ?_⟩
  rcases h'.phase with hsame | ⟨hlive, hended⟩
  · rw [hsame]
    exact h.phase
  rcases h.phase with hphase | ⟨-, hphase⟩
  · have hw : w.hasEnded = v.hasEnded := by rw [Worker.hasEnded, Worker.hasEnded, hphase]
    exact .inr ⟨hw.trans hlive, hended⟩
  · rw [Worker.hasEnded, hphase] at hlive
    cases hlive

namespace Task

/-- The task counts no outcome, marks no item as done and starts no worker. -/
def AtRest : Task → Prop
  | .worker w => w.hasEnded = true ∨ w.aborted = true
  | .driver d => ∃ how, d.stage = .over how
  | _ => True

def putsMade : Task → Nat
  | .producer p => p.put
  | _ => 0

end Task

/-- The items that producers have put. -/
def putsMade (tasks : List Task) : Nat :=
  (tasks.map Task.putsMade).sum

theorem WorkQueue.reserve?_eq {q q' : WorkQueue WorkItem} {t : Ticket}
    (h : q.reserve? t = some q') :
    q'.buffer = q.buffer ∧ q'.outstanding = q.outstanding := by
  unfold WorkQueue.reserve? at h
  split at h
  · cases h
  · cases h
    exact ⟨rfl, rfl⟩

namespace Engine

variable {script : Script} {e e₁ e₂ : Engine} {t u : TaskId} {w v : Worker} {r : Engine × Bool}

/-- Nothing is counted, started or marked as done between two moments. -/
structure Standstill (e e' : Engine) : Prop where
  counter : e'.counter = e.counter
  calls : e'.log.size = e.log.size
  outstanding : e'.queue.outstanding + putsMade e.tasks = e.queue.outstanding + putsMade e'.tasks

theorem Standstill.trans (h : Standstill e e₁) (h' : Standstill e₁ e₂) : Standstill e e₂ := by
  refine ⟨h'.counter.trans h.counter, h'.calls.trans h.calls, ?_⟩
  have := h.outstanding
  have := h'.outstanding
  omega

theorem Alike.standstill (h : e.Alike e₁) : Standstill e e₁ := by
  refine ⟨h.counter, by rw [h.log], ?_⟩
  rw [h.queue, h.tasks]

def AllAtRest (e : Engine) : Prop :=
  ∀ (t : TaskId) task, e.tasks[t]? = some task → task.AtRest

theorem AllAtRest.set {task : Task} (h : AllAtRest e) (htask : task.AtRest) (u : TaskId)
    (task' : Task) (hu : (e.tasks.set t task)[u]? = some task') : task'.AtRest := by
  by_cases hut : u = t
  · subst hut
    rw [eq_of_getElem?_set hu]
    exact htask
  · rw [getElem?_set_of_ne hut] at hu
    exact h u task' hu

theorem putsMade_set {tasks : List Task} {task : Task} (ht : tasks[t]? = some task)
    (task' : Task) :
    putsMade (tasks.set t task') + task.putsMade = putsMade tasks + task'.putsMade :=
  sum_map_set_of_getElem? ht

/-- One task moves on, and puts nothing. -/
theorem Standstill.of_set {task task' : Task} (ht : e.tasks[t]? = some task)
    (htasks : e₁.tasks = e.tasks.set t task') (hput : task'.putsMade = task.putsMade)
    (hcounter : e₁.counter = e.counter) (hcalls : e₁.log.size = e.log.size)
    (hout : e₁.queue.outstanding = e.queue.outstanding) : Standstill e e₁ := by
  refine ⟨hcounter, hcalls, ?_⟩
  have := putsMade_set ht task'
  rw [htasks, hout]
  omega

theorem Standstill.of_queue (htasks : e₁.tasks = e.tasks) (hcounter : e₁.counter = e.counter)
    (hcalls : e₁.log.size = e.log.size) (hout : e₁.queue.outstanding = e.queue.outstanding) :
    Standstill e e₁ := by
  refine ⟨hcounter, hcalls, ?_⟩
  rw [htasks, hout]

/-! ### Telling a pool to drop everything -/

theorem atRest_abort (w : Worker) : (Task.worker w).abort.AtRest := by
  show Task.AtRest (if w.hasEnded then .worker w else .worker { w with aborted := true })
  split
  · exact .inl ‹_›
  · exact .inr rfl

theorem putsMade_abort (task : Task) : task.abort.putsMade = task.putsMade := by
  cases task with
  | worker w =>
    show Task.putsMade (if w.hasEnded then .worker w else .worker { w with aborted := true }) = 0
    split <;> rfl
  | producer | joiner | shutdown | driver => rfl

theorem standstill_abortAll (e : Engine) (members : List TaskId) :
    Standstill e (e.abortAll members) := by
  have hput : (e.abortAll members).tasks.map Task.putsMade = e.tasks.map Task.putsMade := by
    refine List.ext_getElem? fun t => ?_
    rw [List.getElem?_map, List.getElem?_map, getElem?_abortAll]
    split
    · rw [Option.map_map]
      exact congrArg (Option.map · e.tasks[t]?) (funext putsMade_abort)
    · rfl
  refine ⟨?_, ?_, ?_⟩
  · rw [abortAll_eq]
  · rw [abortAll_eq]
  · rw [putsMade, putsMade, hput, abortAll_eq]
    rfl

/-- Where all tasks that do not belong to a pool are at rest, all are once the pool is told to drop
everything. -/
theorem allAtRest_abortAll {members : List TaskId}
    (h : ∀ (t : TaskId) task, e.tasks[t]? = some task →
      task.AtRest ∨ t ∈ members ∧ ∃ w, task = .worker w) : AllAtRest (e.abortAll members) := by
  intro t task ht
  rw [getElem?_abortAll] at ht
  split at ht
  · obtain ⟨old, hold, rfl⟩ := Option.map_eq_some_iff.1 ht
    cases old with
    | worker w => exact atRest_abort w
    | producer | joiner | shutdown | driver =>
      rcases h t _ hold with hrest | ⟨-, w, hw⟩
      · exact hrest
      · cases hw
  · rcases h t task ht with hrest | ⟨hmem, -⟩
    · exact hrest
    · exact absurd hmem ‹_›

theorem dropped_abortAll {members : List TaskId} (ht : t ∈ members)
    (hw : e.tasks[t]? = some (.worker w)) :
    ∃ v, (e.abortAll members).tasks[t]? = some (.worker v) ∧ w.Dropped v := by
  rw [getElem?_abortAll, if_pos ht, hw]
  show ∃ v, some (if w.hasEnded then Task.worker w else .worker { w with aborted := true }) = _ ∧ _
  split
  · exact ⟨w, rfl, .refl (.inl ‹_›)⟩
  · exact ⟨_, rfl, .inr rfl, fun _ => rfl, .inl rfl⟩

/-! ### Workers -/

/-- A worker at rest gives its place or its call up, once. -/
theorem WorkerMove.dropped (hm : WorkerMove script e t w r) (ht : e.tasks[t]? = some (.worker w))
    (hrest : w.hasEnded = true ∨ w.aborted = true) :
    ∃ v, r.1.tasks[t]? = some (.worker v) ∧ w.Dropped v := by
  have hbusy : w.hasEnded = false → w.aborted = false → False := by
    intro hlive ha
    rw [hlive, ha] at hrest
    rcases hrest with h | h <;> cases h
  cases hm with
  | rest => exact ⟨w, ht, .refl hrest⟩
  | dropPlace hw =>
    exact ⟨_, getElem?_set_same ht _, .inl rfl, fun x => WorkerStats.get_stop _ 0 x,
      .inr ⟨(Worker.of_seeking hw).1, rfl⟩⟩
  | dropCall hw =>
    exact ⟨_, getElem?_set_same ht _, .inl rfl, fun x => WorkerStats.get_stop _ 0 x,
      .inr ⟨(Worker.of_calling hw).1, rfl⟩⟩
  | quit hw ha | await hw ha | retire hw ha | start hw ha =>
    exact (hbusy (Worker.of_seeking hw).1 ha).elim
  | lose hw ha | answer hw ha | blunder hw ha => exact (hbusy (Worker.of_calling hw).1 ha).elim

theorem TaskMove.dropped (hm : TaskMove script e t r) (hu : e.tasks[u]? = some (.worker w))
    (hrest : w.hasEnded = true ∨ w.aborted = true) :
    ∃ v, r.1.tasks[u]? = some (.worker v) ∧ w.Dropped v := by
  rcases hm.worker_at hu with ⟨rfl, hw⟩ | ⟨-, v, hv, rfl | ⟨-, rfl⟩⟩
  · exact hw.dropped hu hrest
  · exact ⟨_, hv, .refl hrest⟩
  · exact ⟨_, hv, .inr rfl, fun _ => rfl, .inl rfl⟩

theorem dropped_react (hu : e.tasks[u]? = some (.worker w))
    (hrest : w.hasEnded = true ∨ w.aborted = true) (event : Event) :
    ∃ v, (e.react script event).tasks[u]? = some (.worker v) ∧ w.Dropped v := by
  cases event with
  | poll t =>
    show ∃ v, (e.poll script t).tasks[u]? = some (.worker v) ∧ _
    rw [(poll_alike script e t).tasks]
    exact (step_move script (e.front t) t).dropped hu hrest
  | reply | cancel | pause => exact ⟨w, hu, .refl hrest⟩

/-- A worker at rest stays so, whatever happens. -/
theorem dropped_play (hu : e.tasks[u]? = some (.worker w))
    (hrest : w.hasEnded = true ∨ w.aborted = true) (events : List Event) :
    ∃ v, (e.play script events).tasks[u]? = some (.worker v) ∧ w.Dropped v := by
  refine play_induction (P := fun e => ∃ v, e.tasks[u]? = some (.worker v) ∧ w.Dropped v)
    ⟨w, hu, .refl hrest⟩ ?_ events
  rintro e event ⟨v, hv, hdropped⟩
  have hreact : ∃ v', (e.react script event).tasks[u]? = some (.worker v') ∧ v.Dropped v' :=
    dropped_react hv hdropped.rests event
  obtain ⟨v', hv', hdropped'⟩ := hreact
  exact ⟨v', hv', hdropped.trans hdropped'⟩

/-! ### All tasks -/

/-- A worker at rest changes nothing but itself, its place at the queue and its call. -/
theorem WorkerMove.standstill (hm : WorkerMove script e t w r) (ht : e.tasks[t]? = some (.worker w))
    (hrest : w.hasEnded = true ∨ w.aborted = true) : Standstill e r.1 := by
  have hbusy : w.hasEnded = false → w.aborted = false → Standstill e r.1 := by
    intro hlive ha
    rw [hlive, ha] at hrest
    rcases hrest with h | h <;> cases h
  cases hm with
  | rest => exact .of_queue rfl rfl rfl rfl
  | dropPlace => exact .of_set ht rfl rfl rfl rfl (WorkQueue.leave_dealing e.queue t).2.2
  | dropCall => exact .of_set ht rfl rfl rfl (CallLog.size_set _ _ _) rfl
  | quit hw ha | await hw ha | retire hw ha | start hw ha => exact hbusy (Worker.of_seeking hw).1 ha
  | lose hw ha | answer hw ha | blunder hw ha => exact hbusy (Worker.of_calling hw).1 ha

theorem ProducerMove.standstill {p : Producer} (hm : ProducerMove e t p r)
    (ht : e.tasks[t]? = some (.producer p)) : Standstill e r.1 := by
  cases hm with
  | rest => exact .of_queue rfl rfl rfl rfl
  | reserve hq => exact .of_queue rfl rfl rfl (WorkQueue.reserve?_eq hq).2
  | await hq => exact .of_queue rfl rfl rfl (WorkQueue.put_waiting hq).2.2.1
  | refused hq =>
    exact .of_set ht rfl rfl rfl rfl (congrArg WorkQueue.outstanding (WorkQueue.put_error hq).1)
  | @put queue hq =>
    have hput := putsMade_set ht (.producer { p with put := p.put + 1 })
    have hout := (WorkQueue.put_ok hq).2.2
    simp only [Task.putsMade] at hput
    refine ⟨rfl, rfl, ?_⟩
    show queue.outstanding + putsMade e.tasks = _ + putsMade (e.tasks.set t _)
    omega

theorem DriverMove.eq_of_over {d : RunDriver} {how : RunEnd} (hm : DriverMove e t d r)
    (hover : d.stage = .over how) : r = (e, false) := by
  cases hm with
  | rest => rfl
  | refuse hs | launch hs | submitted hs | await hs | refused hs | put hs | drained hs | close hs
  | complete hs =>
    rw [hover] at hs
    cases hs
  | giveUp hs =>
    rw [hover] at hs
    rcases hs with hs | hs <;> cases hs

theorem TaskMove.standstill (h : AllAtRest e) (hm : TaskMove script e t r) : Standstill e r.1 := by
  cases hm with
  | rest => exact .of_queue rfl rfl rfl rfl
  | worker ht hm => exact hm.standstill ht (h t _ ht)
  | producer ht hm => exact hm.standstill ht
  | driver ht hm =>
    obtain ⟨how, hover⟩ := h t _ ht
    rw [hm.eq_of_over hover]
    exact .of_queue rfl rfl rfl rfl
  | join ht | close ht | shutDown ht => exact .of_set ht rfl rfl rfl rfl rfl

theorem TaskMove.allAtRest (h : AllAtRest e) (hm : TaskMove script e t r) : AllAtRest r.1 := by
  cases hm with
  | rest => exact h
  | @worker w r ht hm =>
    obtain ⟨-, -, v, hv, hothers⟩ := hm.frame ht
    obtain ⟨v', hv', hdropped⟩ := hm.dropped ht (h t _ ht)
    intro u task hu
    by_cases hut : u = t
    · subst hut
      rw [hv'] at hu
      cases hu
      exact hdropped.rests
    · rw [hothers u hut] at hu
      exact h u task hu
  | producer ht hm =>
    cases hm with
    | rest | reserve | await => exact h
    | refused | put => exact h.set trivial
  | driver ht hm =>
    obtain ⟨how, hover⟩ := h t _ ht
    rw [hm.eq_of_over hover]
    exact h
  | join | close | shutDown => exact h.set trivial

theorem AllAtRest.react (h : AllAtRest e) (script : Script) (event : Event) :
    AllAtRest (e.react script event) ∧ Standstill e (e.react script event) := by
  cases event with
  | poll t =>
    have hm := step_move script (e.front t) t
    have halike := poll_alike script e t
    have hfront : Standstill e (e.front t) := .of_queue rfl rfl rfl rfl
    have hrest : AllAtRest (e.front t) := h
    refine ⟨fun u task hu => ?_, (hfront.trans (hm.standstill hrest)).trans halike.standstill⟩
    have hu' : (e.poll script t).tasks[u]? = some task := hu
    rw [halike.tasks] at hu'
    exact hm.allAtRest hrest u task hu'
  | reply call reply => exact ⟨h, .of_queue rfl rfl (CallLog.size_reply _ _ _) rfl⟩
  | cancel | pause => exact ⟨h, .of_queue rfl rfl rfl rfl⟩

/-- While all tasks are at rest nothing is counted, started or marked as done. -/
theorem standstill_play (h : AllAtRest e) (script : Script) (events : List Event) :
    Standstill e (e.play script events) := by
  refine (play_induction (P := fun e' => AllAtRest e' ∧ Standstill e e')
    ⟨h, .of_queue rfl rfl rfl rfl⟩ ?_ events).2
  rintro e' event ⟨hrest, hstill⟩
  obtain ⟨hrest', hstill'⟩ := hrest.react script event
  exact ⟨hrest', hstill.trans hstill'⟩

end Engine

end LoadGenerator
