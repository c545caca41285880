import LoadGenerator.Proofs.Pool.Books
import LoadGenerator.Proofs.Pool.Holdings

/-!
# The invariant of a pool

`PoolInv` is about an engine in which the only workers are those of one pool: who they are and that
nobody shuts down anything else (`Staff`), where the items are (`Holdings`, `Links`), and what was
counted (`Books`). No such worker is ever told to drop everything, and none fails to mark its item
as done; so it ends only by finishing or by losing its transport. Every move of a task keeps the
invariant (`PoolInv.move`), whatever else there is to move.
-/

namespace LoadGenerator

/-! ### Who there is -/

/-- Whether a task may stand beside the workers `members` of a pool; a shutdown that is done needs
that all of them have ended. -/
def Task.Fits (members : List TaskId) (ended : Prop) : Task → Prop
  | .driver _ => False
  | .shutdown s => s.members = members ∧ members ≠ [] ∧ (s.done = true → ended)
  | _ => True

/-- The workers among the tasks are the pool `members`, numbered in order. -/
structure Staff (members : List TaskId) (tasks : List Task) : Prop where
  posts : posts tasks = members
  ids : (workersOf tasks).map Worker.id = (List.range members.length).map UInt64.ofNat
  fits : ∀ (t : TaskId) task, tasks[t]? = some task →
    task.Fits members (∀ w ∈ workersOf tasks, w.hasEnded = true)
  loyal : ∀ w ∈ workersOf tasks, w.aborted = false
  ends : ∀ w ∈ workersOf tasks, ∀ how, w.phase = .ended how → how = .finished ∨ how = .panicked

namespace Staff

variable {members : List TaskId} {tasks tasks' : List Task} {task task' : Task} {t : TaskId}
  {w v : Worker} {size : Nat} {policy : FailurePolicy}

theorem nobody : Staff [] [] :=
  ⟨rfl, rfl, fun _ _ h => (by cases h), fun _ h => (by cases h), fun _ h => (by cases h)⟩

theorem of_sameWorkers (h : Staff members tasks) (hsame : SameWorkers tasks tasks')
    (hnew : ∀ (t : TaskId) task, tasks'[t]? = some task → tasks[t]? = some task ∨
      task.Fits members (∀ w ∈ workersOf tasks, w.hasEnded = true)) : Staff members tasks' := by
  have hworkers := hsame.workersOf_eq
  refine ⟨hsame.posts_eq.trans h.posts, ?_, fun t task ht => ?_, ?_, ?_⟩
  · rw [hworkers, h.ids]
  · rw [hworkers]
    exact (hnew t task ht).elim (h.fits t task) id
  · rw [hworkers]
    exact h.loyal
  · rw [hworkers]
    exact h.ends

/-- Another task moves on. -/
theorem setOther (h : Staff members tasks) (ht : tasks[t]? = some task)
    (hold : task.worker? = none) (hnew : task'.worker? = none)
    (hfits : task'.Fits members (∀ w ∈ workersOf tasks, w.hasEnded = true)) :
    Staff members (tasks.set t task') := by
  refine h.of_sameWorkers (sameWorkers_set ht hold hnew) fun u x hu => ?_
  rw [getElem?_set_task ht] at hu
  split at hu
  · cases hu
    exact .inr hfits
  · exact .inl hu

/-- Another task joins. -/
theorem spawn (h : Staff members tasks) (hnew : task.worker? = none)
    (hfits : task.Fits members (∀ w ∈ workersOf tasks, w.hasEnded = true)) :
    Staff members (tasks ++ [task]) := by
  refine h.of_sameWorkers (sameWorkers_append hnew) fun u x hu => ?_
  rcases Nat.lt_or_ge u tasks.length with hlt | hge
  · rw [List.getElem?_append_left hlt] at hu
    exact .inl hu
  · rw [List.getElem?_append_right hge] at hu
    obtain rfl := List.mem_singleton.1 (List.mem_of_getElem? hu)
    exact .inr hfits

/-- A worker moves on; then not all had ended, and no shutdown was done. -/
theorem setWorker (h : Staff members tasks) (ht : tasks[t]? = some (.worker w))
    (hlive : w.hasEnded = false) (hid : v.id = w.id) (ha : v.aborted = w.aborted)
    (hend : ∀ how, v.phase = .ended how → how = .finished ∨ how = .panicked) :
    Staff members (tasks.set t (.worker v)) := by
  have hw : w ∈ workersOf tasks := mem_workersOf.2 ⟨t, ht⟩
  have hnotAll : ¬ ∀ w ∈ workersOf tasks, w.hasEnded = true := by
    intro hall
    rw [hall w hw] at hlive
    cases hlive
  refine ⟨(posts_setWorker ht).trans h.posts, (ids_setWorker ht hid).trans h.ids,
    fun u task hu => ?_, fun x hx => ?_, fun x hx => ?_⟩
  · rw [getElem?_set_task ht] at hu
    split at hu
    · cases hu
      trivial
    · have hfits := h.fits u task hu
      cases task with
      | shutdown s => exact ⟨hfits.1, hfits.2.1, fun hd => absurd (hfits.2.2 hd) hnotAll⟩
      | driver d => exact hfits
      | worker | producer | joiner => trivial
  · rcases mem_of_mem_setWorker hx ht with rfl | hx
    · exact ha.trans (h.loyal w hw)
    · exact h.loyal x hx
  · rcases mem_of_mem_setWorker hx ht with rfl | hx
    · exact hend
    · exact h.ends x hx

/-- A pool starts where there is none. -/
theorem start (h : Staff [] tasks) (hsize : size ≠ 0) :
    Staff ((List.range size).map (tasks.length + ·)) (tasks ++ Engine.poolWorkers size policy) := by
  have hnone : workersOf tasks = [] := by
    rw [← filterMap_posts, h.posts]
    rfl
  have hworkers : workersOf (tasks ++ Engine.poolWorkers size policy) =
      (List.range size).map fun i => { id := UInt64.ofNat i, policy } := by
    rw [workersOf_append, hnone, workersOf_poolWorkers, List.nil_append]
  have hmembers : (List.range size).map (tasks.length + ·) ≠ [] := by
    simpa using hsize
  have hnew : ∀ w ∈ workersOf (tasks ++ Engine.poolWorkers size policy),
      w.aborted = false ∧ w.phase = .seeking := by
    intro w hw
    rw [hworkers] at hw
    obtain ⟨i, -, rfl⟩ := List.mem_map.1 hw
    exact ⟨rfl, rfl⟩
  refine ⟨?_, ?_, fun t task ht => ?_, fun w hw => (hnew w hw).1, fun w hw how hhow => ?_⟩
  · rw [posts_append_poolWorkers, h.posts, List.nil_append]
  · rw [hworkers, List.map_map, List.length_map, List.length_range]
    rfl
  · rcases Nat.lt_or_ge t tasks.length with hlt | hge
    · rw [List.getElem?_append_left hlt] at ht
      have hfits := h.fits t task ht
      cases task with
      | shutdown s => exact absurd rfl hfits.2.1
      | driver d => exact hfits
      | worker | producer | joiner => trivial
    · rw [List.getElem?_append_right hge] at ht
      obtain ⟨i, rfl⟩ := Engine.mem_poolWorkers (List.mem_of_getElem? ht)
      trivial
  · rw [(hnew w hw).2] at hhow
    cases hhow

end Staff

/-! ### The moves -/

/-- The workers of the engine are the pool `members`, and nobody else takes items or marks them as
done. -/
structure PoolInv (members : List TaskId) (e : Engine) : Prop where
  staff : Staff members e.tasks
  holdings : Holdings (acceptedTargets e.tasks) e.queue e.log
  links : Links {} e.log e.tasks
  books : Books {} e.log e.counter e.tasks
  abandoned : e.log.countSince {} CallState.isAbandoned = 0

namespace PoolInv

variable {members : List TaskId} {e e' : Engine} {script : Script} {t : TaskId} {w v : Worker}
  {call : Nat} {r : Engine × Bool}

theorem alike (h : PoolInv members e) (he : e.Alike e') : PoolInv members e' := by
  obtain ⟨hq, hcounter, -, hlog, htasks⟩ := he
  refine ⟨htasks ▸ h.staff, ?_, ?_, ?_, ?_⟩
  · rw [htasks, hq, hlog]
    exact h.holdings
  · rw [htasks, hlog]
    exact h.links
  · rw [hlog, hcounter, htasks]
    exact h.books
  · rw [hlog]
    exact h.abandoned

theorem loyal (h : PoolInv members e) (ht : e.tasks[t]? = some (.worker w)) : w.aborted = false :=
  h.staff.loyal w (mem_workersOf.2 ⟨t, ht⟩)

/-- The call that a worker waits for is in flight. -/
theorem held (h : PoolInv members e) (ht : e.tasks[t]? = some (.worker w))
    (hw : w.phase = .calling call) :
    0 < call ∧ ∃ s, e.log.state? call = some s ∧ s.isInFlight = true :=
  h.links.held t call (callOf_eq_some.2 ⟨w, ht, hw⟩)

/-! #### A worker makes a move -/

/-- A worker that waits for no call finishes, and gives its place at the queue back. -/
theorem finish {queue : WorkQueue WorkItem} (h : PoolInv members e)
    (ht : e.tasks[t]? = some (.worker w)) (hw : w.phase = .seeking)
    (hd : e.queue.Dealing t queue) (hb : queue.buffer = e.queue.buffer)
    (hout : queue.outstanding = e.queue.outstanding) :
    PoolInv members (({ e with queue }).setTask t (.worker (w.begun.finish .finished))) := by
  obtain ⟨hlive, hcall, hlost⟩ := Worker.of_seeking hw
  have hstats : ∀ x, (w.begun.finish .finished).stats.get x = w.stats.get x := fun x =>
    (WorkerStats.get_stop _ 0 x).trans (WorkerStats.get_start _ 0 x)
  refine ⟨h.staff.setWorker ht hlive rfl rfl fun how hhow => ?_, ?_,
    h.links.rest ht hcall.symm hlost.symm, h.books.rest ht hstats, h.abandoned⟩
  · cases hhow
    exact .inl rfl
  · show Holdings (acceptedTargets (e.tasks.set t _)) queue e.log
    rw [acceptedTargets_setWorker ht]
    exact h.holdings.deal hd hb hout

theorem take {queue : WorkQueue WorkItem} {item : WorkItem} (h : PoolInv members e)
    (ht : e.tasks[t]? = some (.worker w)) (hw : w.phase = .seeking)
    (hq : e.queue.get t = (queue, .done (some item))) (r : Option Reply) :
    PoolInv members (({ e with queue, log := e.log.startWith item.target r }).setTask t
      (.worker { w.begun with phase := .calling (e.log.size + 1) })) := by
  have hlive := (Worker.of_seeking hw).1
  refine ⟨h.staff.setWorker ht hlive rfl rfl fun how hhow => (by cases hhow), ?_,
    h.links.take (Nat.zero_le _) ht hw rfl _,
    (h.books.take (Nat.zero_le _) _ _).rest ht fun x => WorkerStats.get_start _ 0 x, ?_⟩
  · show Holdings (acceptedTargets (e.tasks.set t _)) queue _
    rw [acceptedTargets_setWorker ht]
    exact h.holdings.take hq r
  · have hflight := CallState.of_isInFlight (CallState.isInFlight_ofReply? r)
    show (e.log.startWith item.target r).countSince {} _ = 0
    rw [CallLog.countSince_startWith _ _ (Nat.zero_le _), h.abandoned, hflight.2.2.2.2]
    rfl

/-- The transport breaks down under a worker. -/
theorem lose (h : PoolInv members e) (ht : e.tasks[t]? = some (.worker w))
    (hw : w.phase = .calling call) :
    PoolInv members (({ e with log := e.log.set call (.returned .breakdown) }).setTask t
      (.worker (w.finish .panicked))) := by
  obtain ⟨hn, s, hs, hflight⟩ := h.held ht hw
  refine ⟨h.staff.setWorker ht (Worker.of_calling hw).1 rfl rfl fun how hhow => ?_, ?_,
    h.links.release ht hw rfl rfl rfl,
    (h.books.drop hn hs hflight rfl).rest ht fun x => WorkerStats.get_stop _ 0 x, ?_⟩
  · cases hhow
    exact .inr rfl
  · show Holdings (acceptedTargets (e.tasks.set t _)) e.queue _
    rw [acceptedTargets_setWorker ht]
    exact h.holdings.drop hn hs hflight rfl
  · show (e.log.set call (.returned .breakdown)).countSince {} _ = 0
    rw [CallLog.countSince_set_of_not hn hs (CallState.of_isInFlight hflight).2.2.2.2, h.abandoned]
    rfl

theorem answer {reply : Reply} {outcome : Outcome} {queue : WorkQueue WorkItem}
    (h : PoolInv members e) (ht : e.tasks[t]? = some (.worker w)) (hw : w.phase = .calling call)
    (ho : reply.outcome? = some outcome) (hq : e.queue.markDone = .ok queue)
    (verdict : Option CancelReason) (context : Cancellation) :
    PoolInv members (({ e with
      queue
      counter := e.counter.record outcome
      context
      log := e.log.set call (.returned reply) }).setTask t (.worker (w.afterItem outcome verdict))) := by
  obtain ⟨hn, s, hs, hflight⟩ := h.held ht hw
  have hcall := w.call?_afterItem outcome verdict
  have hlost := Worker.isLost_afterItem (w := w) ho verdict
  have hstats := w.get_stats_afterItem outcome verdict
  refine ⟨h.staff.setWorker ht (Worker.of_calling hw).1 (by cases verdict <;> rfl)
    (by cases verdict <;> rfl) fun how hhow => ?_, ?_, h.links.release ht hw hcall rfl hlost,
    h.books.answer hn hs hflight ht ho hstats, ?_⟩
  · cases verdict with
    | none => cases hhow
    | some reason =>
      cases hhow
      exact .inl rfl
  · show Holdings (acceptedTargets (e.tasks.set t _)) queue _
    rw [acceptedTargets_setWorker ht]
    exact h.holdings.answer hn hs hflight (CallState.isAnswered_returned ho) hq
  · show (e.log.set call (.returned reply)).countSince {} _ = 0
    rw [CallLog.countSince_set_of_not hn hs (CallState.of_isInFlight hflight).2.2.2.2, h.abandoned]
    rfl

theorem worker (h : PoolInv members e) (ht : e.tasks[t]? = some (.worker w))
    (hm : Engine.WorkerMove script e t w r) : PoolInv members r.1 := by
  have hloyal : w.aborted = true → PoolInv members r.1 := by
    intro ha
    rw [h.loyal ht] at ha
    cases ha
  cases hm with
  | rest => exact h
  | dropPlace _ ha | dropCall _ ha => exact hloyal ha
  | quit hw =>
    obtain ⟨hd, hb, hout⟩ := WorkQueue.leave_dealing e.queue t
    exact h.finish ht hw hd hb hout
  | await _ _ _ hq =>
    obtain ⟨hd, hb, hout, -⟩ := WorkQueue.get_waiting hq
    exact ⟨h.staff, h.holdings.deal hd hb hout, h.links, h.books, h.abandoned⟩
  | retire hw _ _ hq =>
    obtain ⟨hd, hb, hout, -⟩ := WorkQueue.get_none hq
    exact h.finish ht hw hd hb hout
  | start hw _ _ hq => exact h.take ht hw hq _
  | lose hw => exact h.lose ht hw
  | answer hw _ _ ho hq => exact h.answer ht hw ho hq _ _
  | blunder hw _ _ _ hq =>
    -- the item of a call in flight is outstanding
    obtain ⟨hn, s, hs, hflight⟩ := h.held ht hw
    obtain ⟨queue, hok⟩ := h.holdings.markDone_ok hn hs hflight
    rw [hq] at hok
    cases hok

/-! #### Another task makes a move -/

/-- Another task moves on and has nothing accepted. -/
theorem setOther {task task' : Task} {queue : WorkQueue WorkItem} (h : PoolInv members e)
    (ht : e.tasks[t]? = some task) (hold : task.worker? = none) (hnew : task'.worker? = none)
    (hfits : task'.Fits members (∀ w ∈ workersOf e.tasks, w.hasEnded = true))
    (haccepted : task'.accepted = task.accepted)
    (hholdings : Holdings (acceptedTargets e.tasks) queue e.log) :
    PoolInv members (({ e with queue }).setTask t task') := by
  have hsame := sameWorkers_set ht hold hnew
  refine ⟨h.staff.setOther ht hold hnew hfits, ?_, hsame.links h.links,
    h.books.of_sameWorkers hsame, h.abandoned⟩
  show Holdings (acceptedTargets (e.tasks.set t task')) queue e.log
  rw [acceptedTargets_set ht haccepted]
  exact hholdings

theorem producer {p : Producer} (h : PoolInv members e) (ht : e.tasks[t]? = some (.producer p))
    (hm : Engine.ProducerMove e t p r) : PoolInv members r.1 := by
  cases hm with
  | rest => exact h
  | reserve hq =>
    obtain ⟨hb, hout⟩ := WorkQueue.reserve?_eq hq
    exact ⟨h.staff, h.holdings.deal (WorkQueue.reserve?_dealing hq).1 hb hout, h.links, h.books,
      h.abandoned⟩
  | await hq =>
    obtain ⟨hd, hb, hout, -⟩ := WorkQueue.put_waiting hq
    exact ⟨h.staff, h.holdings.deal hd hb hout, h.links, h.books, h.abandoned⟩
  | refused hq =>
    have hsame := (WorkQueue.put_error hq).1
    exact h.setOther ht rfl rfl trivial rfl (hsame ▸ h.holdings)
  | put hq =>
    have hnew : Task.worker? (.producer { p with put := p.put + 1 }) = none := rfl
    have hsame := sameWorkers_set ht rfl hnew
    exact ⟨h.staff.setOther ht rfl hnew trivial, h.holdings.put hq (acceptedTargets_put ht),
      hsame.links h.links, h.books.of_sameWorkers hsame, h.abandoned⟩

theorem ended_of_allEnded (h : PoolInv members e) (hd : e.allEnded members = true) :
    ∀ w ∈ workersOf e.tasks, w.hasEnded = true := by
  intro w hw
  obtain ⟨t, ht⟩ := mem_workersOf.1 hw
  have hmem : t ∈ members := by
    rw [← h.staff.posts]
    exact mem_posts.2 ⟨w, ht⟩
  have hended := List.all_eq_true.1 hd t hmem
  rw [Engine.worker?_eq_some.2 ht] at hended
  exact hended

theorem move (h : PoolInv members e) (hm : Engine.TaskMove script e t r) : PoolInv members r.1 := by
  cases hm with
  | rest => exact h
  | worker ht hm => exact h.worker ht hm
  | driver ht => exact (h.staff.fits t _ ht).elim
  | producer ht hm => exact h.producer ht hm
  | join ht => exact h.setOther ht rfl rfl trivial rfl h.holdings
  | close ht =>
    obtain ⟨hmembers, hne, hdone⟩ := h.staff.fits t _ ht
    exact h.setOther ht rfl rfl ⟨hmembers, hne, hdone⟩ rfl h.holdings.close
  | shutDown ht hd =>
    obtain ⟨hmembers, hne, -⟩ := h.staff.fits t _ ht
    rw [hmembers] at hd
    exact h.setOther ht rfl rfl ⟨hmembers, hne, fun _ => h.ended_of_allEnded hd⟩ rfl h.holdings

/-! #### From outside -/

theorem start (capacity : Nat) : PoolInv [] { queue := .ofCapacity capacity } :=
  ⟨.nobody, .start capacity, .nobody {}, .start {}, CallLog.countSince_self {} _⟩

theorem close (h : PoolInv members e) : PoolInv members { e with queue := e.queue.close } :=
  ⟨h.staff, h.holdings.close, h.links, h.books, h.abandoned⟩

/-- A task that is no worker and has had nothing accepted joins. -/
theorem spawn {task : Task} (h : PoolInv members e)
    (hnew : task.worker? = none)
    (hfits : task.Fits members (∀ w ∈ workersOf e.tasks, w.hasEnded = true))
    (haccepted : task.accepted = []) : PoolInv members (e.spawn task) := by
  have hsame : SameWorkers e.tasks (e.tasks ++ [task]) := sameWorkers_append hnew
  refine ⟨h.staff.spawn hnew hfits, ?_, hsame.links h.links, h.books.of_sameWorkers hsame,
    h.abandoned⟩
  show Holdings (acceptedTargets (e.tasks ++ [task])) e.queue e.log
  rw [acceptedTargets_append haccepted]
  exact h.holdings

/-- A pool starts where there is none. -/
theorem launch {size : Nat} (h : PoolInv [] e) (hsize : size ≠ 0) (policy : FailurePolicy) :
    PoolInv (e.nextIds size) (e.spawnAll (Engine.poolWorkers size policy)) := by
  rw [Engine.spawnAll_eq]
  refine ⟨h.staff.start hsize, ?_, h.links.spawn size policy, h.books.spawn size policy,
    h.abandoned⟩
  show Holdings (acceptedTargets (e.tasks ++ _)) e.queue e.log
  rw [acceptedTargets_append_poolWorkers]
  exact h.holdings

theorem react (h : PoolInv members e) (script : Script) (event : Event) :
    PoolInv members (e.react script event) := by
  cases event with
  | poll t =>
    have hfront : PoolInv members (e.front t) := h.alike ⟨rfl, rfl, rfl, rfl, rfl⟩
    exact (hfront.move (Engine.step_move script (e.front t) t)).alike (Engine.poll_alike script e t)
  | reply call reply =>
    refine ⟨h.staff, h.holdings.reply call reply, h.links.reply call reply,
      h.books.reply call reply, ?_⟩
    exact (CallLog.countSince_reply call reply rfl).trans h.abandoned
  | cancel | pause => exact ⟨h.staff, h.holdings, h.links, h.books, h.abandoned⟩

end PoolInv

end LoadGenerator
