import LoadGenerator.Proofs.Run.Places

/-!
# Steps that lead somewhere

`Engine.movesLeft` bounds the moves that the tasks of a run can still make by themselves. An item to
put is worth three, for it is put, then a worker takes it and is done with it; the stages of the
driver and the ends of the workers come on top. A step that changes a task lowers it. A step that
does not is `Vain`: it may put the task in line at the queue, it calls nobody back, and the task
itself could get no further. There is no third kind (`WorkerMove.vain_or_lt`, `DriverMove.vain_or_lt`).
-/

namespace LoadGenerator

/-! ### Tickets that are called back -/

namespace WorkQueue

variable {α : Type} {q q' : WorkQueue α} {t u : Ticket} {item : α}

theorem mem_callable (hu : u ∈ q.callable) : u ∈ q.granted ∨ q.turn.owner = some u := by
  unfold callable at hu
  refine (List.mem_append.1 hu).imp_right fun hu => ?_
  cases ht : q.turn with
  | free => simp [ht] at hu
  | granted o =>
    simp only [ht, List.mem_singleton] at hu
    rw [hu]
    rfl
  | held o =>
    simp only [ht] at hu
    split at hu
    · cases hu
    · rw [List.mem_singleton.1 hu]
      rfl

theorem mem_line_of_callable (hu : u ∈ q.callable) : u ∈ q.putLine ∨ u ∈ q.getLine := by
  refine (mem_callable hu).imp (List.mem_append_left _) fun ho => ?_
  rw [getLine_of_owner ho]
  exact List.mem_cons_self

/-- Whoever has to wait for an item is not called back, and nobody else is on that account. -/
theorem callable_get_waiting (hq : q.get t = (q', .waiting)) (ht : t ∉ q.granted)
    (hu : u ∈ q'.callable) : u ∈ q.callable ∧ u ≠ t := by
  have hgranted : u ∈ q.granted → u ∈ q.callable ∧ u ≠ t :=
    fun hu => ⟨List.mem_append_left _ hu, fun he => ht (he ▸ hu)⟩
  rcases get_waiting_eq hq with ⟨rfl, hb, hc, -⟩ | ⟨o, ho, hne, rfl⟩
  · unfold callable at hu
    simp only [hb, hc, List.isEmpty_nil, Bool.not_false, Bool.and_self, if_true,
      List.append_nil] at hu
    exact hgranted hu
  · refine (mem_callable hu).elim hgranted fun hturn => ⟨hu, fun he => hne ?_⟩
    have hturn : q.turn.owner = some u := hturn
    rw [ho] at hturn
    exact (he ▸ Option.some.inj hturn).symm

/-- Whoever has to wait for a slot is not called back, and nobody else is on that account. -/
theorem callable_put_waiting (hq : q.put t item = (q', .waiting)) (ht : t ∉ q.getLine)
    (hu : u ∈ q'.callable) : u ∈ q.callable ∧ u ≠ t := by
  obtain ⟨hgranted, rfl⟩ := put_waiting_eq hq
  refine ⟨hu, ?_⟩
  rintro rfl
  rcases mem_callable hu with hu | hu
  · exact hgranted hu
  · have howner : q.turn.owner = some u := hu
    rw [getLine_of_owner howner] at ht
    exact ht List.mem_cons_self

end WorkQueue

/-! ### Moves -/

namespace Stage

/-- The stages before a driver with workers to start, and those workers. -/
def movesLeft (size : Nat) : Stage → Nat
  | .starting => size + 5
  | .submitting => 4
  | .draining => 3
  | .closing => 2
  | .stopping => 1
  | .over _ => 0

end Stage

namespace Worker

def movesLeft (w : Worker) : Nat :=
  match w.phase with
  | .seeking => 1
  | .calling _ => 2
  | .ended _ => 0

end Worker

namespace Task

def movesLeft : Task → Nat
  | .worker w => w.movesLeft
  | .driver d => 3 * d.source.remaining + d.stage.movesLeft d.size
  | _ => 0

theorem movesLeft_abort (task : Task) : task.abort.movesLeft = task.movesLeft := by
  cases task with
  | worker w =>
    show (if w.hasEnded then Task.worker w else .worker { w with aborted := true }).movesLeft = _
    split <;> rfl
  | producer | joiner | shutdown | driver => rfl

end Task

namespace Engine

variable {script : Script} {e e' : Engine} {t u : TaskId} {task task' : Task} {w : Worker}
  {d : RunDriver} {r : Engine × Bool}

def movesLeft (e : Engine) : Nat :=
  2 * e.queue.buffer.length + (e.tasks.map Task.movesLeft).sum

theorem movesLeft_lt_of_set (ht : e.tasks[t]? = some task) (htasks : e'.tasks = e.tasks.set t task')
    (hlt : 2 * e'.queue.buffer.length + task'.movesLeft <
      2 * e.queue.buffer.length + task.movesLeft) : e'.movesLeft < e.movesLeft := by
  have hsum := sum_map_set_of_getElem? (g := Task.movesLeft) (b := task') ht
  unfold movesLeft
  rw [htasks]
  omega

theorem movesLeft_poolWorkers (size : Nat) (policy : FailurePolicy) :
    ((poolWorkers size policy).map Task.movesLeft).sum = size := by
  have hone : ∀ n ∈ (poolWorkers size policy).map Task.movesLeft, n = 1 := by
    intro n hn
    obtain ⟨task, htask, rfl⟩ := List.mem_map.1 hn
    obtain ⟨i, rfl⟩ := mem_poolWorkers htask
    rfl
  rw [List.eq_replicate_of_mem hone, List.sum_replicate, List.length_map, length_poolWorkers]
  exact Nat.mul_one size

theorem movesLeft_abortAll (e : Engine) (members : List TaskId) :
    (e.abortAll members).tasks.map Task.movesLeft = e.tasks.map Task.movesLeft := by
  refine List.ext_getElem? fun u => ?_
  rw [List.getElem?_map, List.getElem?_map, getElem?_abortAll]
  split
  · cases e.tasks[u]? with
    | none => rfl
    | some task => exact congrArg some task.movesLeft_abort
  · rfl

theorem mem_callable : u ∈ e.callable ↔
    u ∈ e.queue.callable ∨ ∃ task, e.tasks[u]? = some task ∧ e.isEnabled task = true := by
  unfold callable
  rw [List.mem_append, List.mem_filterMap]
  refine or_congr_right ⟨?_, ?_⟩
  · rintro ⟨⟨task, v⟩, hmem, hv⟩
    simp only [Option.ite_none_right_eq_some, Option.some.injEq] at hv
    obtain ⟨henabled, rfl⟩ := hv
    exact ⟨task, List.mem_zipIdx_iff_getElem?.1 hmem, henabled⟩
  · rintro ⟨task, hu, henabled⟩
    exact ⟨(task, u), List.mem_zipIdx_iff_getElem?.2 hu, by simp [henabled]⟩

/-- Where tickets stand at the queue makes no difference to those who do not wait there. -/
theorem isEnabled_of_outstanding {q' : WorkQueue WorkItem}
    (hout : q'.outstanding = e.queue.outstanding) (task : Task) :
    ({ e with queue := q' } : Engine).isEnabled task = e.isEnabled task := by
  have hdrained : q'.drained = e.queue.drained := by
    unfold WorkQueue.drained
    rw [hout]
  cases task with
  | worker | producer | shutdown => rfl
  | joiner => simp only [isEnabled, hdrained]
  | driver => simp only [isEnabled, hdrained]; rfl

/-- A step leads nowhere: at most it puts the task in line at the queue. -/
structure Vain (e : Engine) (t : TaskId) (r : Engine × Bool) : Prop where
  stuck : r.2 = false
  same : r.1 = { e with queue := r.1.queue }
  buffer : r.1.queue.buffer = e.queue.buffer
  callable : ∀ u ∈ r.1.callable, u ∈ e.callable ∧ u ≠ t

theorem Vain.rest (ht : e.tasks[t]? = some task)
    (henabled : e.isEnabled task = false) (hput : t ∉ e.queue.putLine)
    (hget : t ∉ e.queue.getLine) : Vain e t (e, false) := by
  refine ⟨rfl, rfl, rfl, fun u hu => ⟨hu, ?_⟩⟩
  rintro rfl
  rcases mem_callable.1 hu with hu | ⟨task', hu, henabled'⟩
  · exact (WorkQueue.mem_line_of_callable hu).elim hput hget
  · rw [ht] at hu
    cases hu
    rw [henabled] at henabled'
    cases henabled'

theorem Vain.await {q' : WorkQueue WorkItem} (ht : e.tasks[t]? = some task)
    (henabled : e.isEnabled task = false) (hbuffer : q'.buffer = e.queue.buffer)
    (hout : q'.outstanding = e.queue.outstanding)
    (hcall : ∀ u ∈ q'.callable, u ∈ e.queue.callable ∧ u ≠ t) :
    Vain e t ({ e with queue := q' }, false) := by
  refine ⟨rfl, rfl, hbuffer, fun u hu => ?_⟩
  rcases mem_callable.1 hu with hu | ⟨task', hu, henabled'⟩
  · obtain ⟨hold, hne⟩ := hcall u hu
    exact ⟨mem_callable.2 (.inl hold), hne⟩
  · rw [isEnabled_of_outstanding hout] at henabled'
    refine ⟨mem_callable.2 (.inr ⟨task', hu, henabled'⟩), ?_⟩
    rintro rfl
    rw [show e.tasks[u]? = some task' from hu] at ht
    cases ht
    rw [henabled] at henabled'
    cases henabled'

theorem WorkerMove.vain_or_lt (hm : WorkerMove script e t w r) (h : Placed e.queue e.tasks)
    (ht : e.tasks[t]? = some (.worker w)) : Vain e t r ∨ r.1.movesLeft < e.movesLeft := by
  have hput := h.worker_not_putting ht
  cases hm with
  | rest hrest =>
    left
    rcases hrest with hended | ⟨ha, call, hw, hr⟩
    · have hphase : ∃ how, w.phase = .ended how := by
        unfold Worker.hasEnded at hended
        split at hended
        · exact ⟨_, ‹_›⟩
        · cases hended
      obtain ⟨how, hw⟩ := hphase
      exact .rest ht (by simp [isEnabled, hw]) hput (h.not_getting ht (by simp [hw]))
    · exact .rest ht (by simp [isEnabled, hw, ha, hr]) hput (h.not_getting ht (by simp [hw]))
  | await hw ha hc hq =>
    left
    obtain ⟨-, hbuffer, hout, -⟩ := WorkQueue.get_waiting hq
    refine .await ht (by simp [isEnabled, hw, ha, hc]) hbuffer hout fun u hu => ?_
    exact WorkQueue.callable_get_waiting hq (fun hg => hput (List.mem_append_left _ hg)) hu
  | dropPlace hw | quit hw =>
    right
    refine movesLeft_lt_of_set ht rfl ?_
    have hbuffer := (WorkQueue.leave_dealing e.queue t).2.1
    simp [setTask, hbuffer, Task.movesLeft, Worker.movesLeft, Worker.finish, hw]
  | dropCall hw | lose hw | blunder hw =>
    right
    refine movesLeft_lt_of_set ht rfl ?_
    simp [setTask, Task.movesLeft, Worker.movesLeft, Worker.finish, hw]
  | retire hw _ _ hq =>
    right
    refine movesLeft_lt_of_set ht rfl ?_
    simp [setTask, (WorkQueue.get_none hq).2.1, Task.movesLeft, Worker.movesLeft, Worker.finish, hw]
  | start hw _ _ hq =>
    right
    refine movesLeft_lt_of_set ht rfl ?_
    simp only [setTask, (WorkQueue.get_some hq).2.1, Task.movesLeft, Worker.movesLeft, hw,
      List.length_cons]
    omega
  | @answer call reply outcome queue hw _ _ _ hq =>
    right
    refine movesLeft_lt_of_set ht rfl ?_
    have hbuffer : queue.buffer = e.queue.buffer := by rw [(WorkQueue.markDone_ok hq).1]
    have hmoves : (w.afterItem outcome (e.verdict? w call reply)).movesLeft ≤ 1 := by
      cases e.verdict? w call reply <;> simp [Worker.afterItem, Worker.movesLeft, Worker.finish]
    simp only [setTask, hbuffer, Task.movesLeft, Worker.movesLeft, hw] at hmoves ⊢
    omega

theorem DriverMove.vain_or_lt (hm : DriverMove e t d r) (h : Placed e.queue e.tasks)
    (ht : e.tasks[t]? = some (.driver d)) : Vain e t r ∨ r.1.movesLeft < e.movesLeft := by
  have hget := h.driver_not_getting ht
  have hcancelled : e.context.reason = none → e.context.isCancelled = false :=
    fun hr => Option.isSome_eq_false_iff.2 (Option.isNone_iff_eq_none.2 hr)
  -- to give up is worth a stage, whatever is left behind
  have hgive : ∀ error, d.stage = .submitting ∨ d.stage = .draining →
      (e.giveUp t d error).movesLeft < e.movesLeft := by
    intro error hs
    have hsum := sum_map_set_of_getElem? (g := Task.movesLeft)
      (b := .driver { d with stage := .over (.failed error) }) ht
    have hbuffer : (e.giveUp t d error).queue.buffer = e.queue.buffer := by
      rw [giveUp_eq]
      exact (WorkQueue.leave_dealing e.queue t).2.1
    have htasks : (e.giveUp t d error).tasks.map Task.movesLeft =
        (e.tasks.set t (.driver { d with stage := .over (.failed error) })).map Task.movesLeft :=
      movesLeft_abortAll _ _
    unfold movesLeft
    rw [hbuffer, htasks]
    rcases hs with hs | hs <;> simp only [Task.movesLeft, Stage.movesLeft, hs] at hsum ⊢ <;> omega
  cases hm with
  | rest hrest =>
    left
    rcases hrest with ⟨hs, hr, hd⟩ | ⟨hs, hend⟩ | ⟨how, hs⟩
    · exact .rest ht (by simp [isEnabled, hs, hd, hcancelled hr])
        (h.not_putting ht (by simp [hs])) hget
    · exact .rest ht (by simp [isEnabled, hs, hend]) (h.not_putting ht (by simp [hs])) hget
    · exact .rest ht (by simp [isEnabled, hs]) (h.not_putting ht (by simp [hs])) hget
  | await hs hr _ hq =>
    left
    obtain ⟨-, hbuffer, hout, -⟩ := WorkQueue.put_waiting hq
    refine .await ht (by simp [isEnabled, hs, hcancelled hr]) hbuffer hout fun u hu => ?_
    exact WorkQueue.callable_put_waiting hq hget hu
  | giveUp hs => exact .inr (hgive _ hs)
  | refused hs _ _ hq =>
    obtain ⟨rfl, -⟩ := WorkQueue.put_error hq
    exact .inr (hgive _ (.inl hs))
  | launch hs =>
    right
    have hsum := sum_map_set_of_getElem? (g := Task.movesLeft)
      (b := .driver { d with members := e.nextIds d.size, stage := .submitting }) ht
    rw [spawnAll_eq]
    simp only [movesLeft, setTask, List.map_append, List.sum_append, movesLeft_poolWorkers]
    simp only [Task.movesLeft, Stage.movesLeft, hs] at hsum
    omega
  | refuse hs | submitted hs | drained hs | close hs | complete hs =>
    right
    refine movesLeft_lt_of_set ht rfl ?_
    simp [setTask, WorkQueue.close, Task.movesLeft, Stage.movesLeft, hs]
  | put hs _ hn hq =>
    right
    refine movesLeft_lt_of_set ht rfl ?_
    simp only [setTask, (WorkQueue.put_ok hq).2.1, Task.movesLeft, hs, hn, List.length_append,
      List.length_singleton]
    omega

end Engine

end LoadGenerator
