import LoadGenerator.Proofs.Engine.WindingDown
import LoadGenerator.Proofs.Pool.Invariant
import LoadGenerator.Proofs.WorkQueue.Closing

/-!
# A closed queue is worked off

If no put waits at the moment at which the queue is closed, nothing is accepted any more, and a
buffer that has become empty stays so (`Dwindles`). Therefore a worker that finishes on its own
account, and not because of a cancellation, leaves nothing behind: it has seen the end of the queue
(`Swept`). Every move of a task keeps this, unless it closes the queue before a put that waits.
-/

namespace LoadGenerator

namespace WorkQueue

variable {α : Type} {q q' : WorkQueue α} {t : Ticket} {item : α}

/-- Nothing comes into the queue if it is closed and no put waits. -/
structure Dwindles (q q' : WorkQueue α) : Prop where
  closed : q'.closed = q.closed
  line : q.closed = true → q.putLine = [] → q'.putLine = []
  buffer : q.closed = true → q.putLine = [] → q.buffer = [] → q'.buffer = []

theorem Dwindles.refl (q : WorkQueue α) : q.Dwindles q :=
  ⟨rfl, fun _ => id, fun _ _ => id⟩

theorem dwindles_leave (q : WorkQueue α) (t : Ticket) : q.Dwindles (q.leave t) := by
  obtain ⟨hd, hb, -⟩ := leave_dealing q t
  refine ⟨hd.closed, fun _ hline => ?_, fun _ _ hbuffer => hb.trans hbuffer⟩
  rw [putLine_leave, hline]
  rfl

theorem dwindles_get_waiting (hs : q.Sound) (h : q.get t = (q', .waiting)) : q.Dwindles q' := by
  obtain ⟨hd, hb, -⟩ := get_waiting h
  exact ⟨hd.closed, fun _ hline => (putLine_get_waiting hs h).1.trans hline,
    fun _ _ hbuffer => hb.trans hbuffer⟩

theorem dwindles_get_none (hs : q.Sound) (h : q.get t = (q', .done none)) : q.Dwindles q' := by
  obtain ⟨hd, hb, -⟩ := get_none h
  exact ⟨hd.closed, fun _ hline => (putLine_get_done hs h).1.trans hline,
    fun _ _ hbuffer => hb.trans hbuffer⟩

theorem dwindles_get_some (hs : q.Sound) (h : q.get t = (q', .done (some item))) :
    q.Dwindles q' := by
  obtain ⟨hd, hb, -⟩ := get_some h
  refine ⟨hd.closed, fun _ hline => (putLine_get_done hs h).1.trans hline, fun _ _ hbuffer => ?_⟩
  rw [hb] at hbuffer
  cases hbuffer

theorem dwindles_markDone (h : q.markDone = .ok q') : q.Dwindles q' := by
  rw [(markDone_ok h).1]
  exact ⟨rfl, fun _ => id, fun _ _ => id⟩

/-- Where no put waits, whoever comes to put at a closed queue is refused. -/
theorem dwindles_put {result : Progress (Except QueueFault Unit)} (hd : q.Dealing t q')
    (h : q.put t item = (q', result)) : q.Dwindles q' := by
  have hsame : q.closed = true → q.putLine = [] → q' = q := by
    intro hc hline
    have hrefused : q.put t item = (q, .done (.error .closed)) :=
      put_of_closed hc (by rw [hline]; exact List.not_mem_nil)
    rw [hrefused] at h
    exact (congrArg Prod.fst h).symm
  refine ⟨hd.closed, fun hc hline => ?_, fun hc hline hbuffer => ?_⟩
  · rw [hsame hc hline, hline]
  · rw [hsame hc hline, hbuffer]

theorem dwindles_reserve? (h : q.reserve? t = some q') : q.Dwindles q' := by
  obtain ⟨hd, hopen⟩ := reserve?_dealing h
  have hnot : ¬ q.closed = true := Bool.eq_false_iff.1 hopen
  exact ⟨hd.closed, fun hc => absurd hc hnot, fun hc => absurd hc hnot⟩

end WorkQueue

/-- Once the queue is closed no put waits, and a worker has finished because of a cancellation or at
the end of the queue. -/
structure Swept (e : Engine) : Prop where
  line : e.queue.closed = true → e.queue.putLine = []
  finished : ∀ w ∈ workersOf e.tasks, w.phase = .ended .finished →
    e.context.isCancelled = true ∨ e.queue.closed = true ∧ e.queue.buffer = []

namespace Engine

variable {script : Script} {e : Engine} {t : TaskId} {w : Worker} {r : Engine × Bool}

theorem WorkerMove.dwindles (hm : WorkerMove script e t w r) (hs : e.queue.Sound) :
    e.queue.Dwindles r.1.queue := by
  cases hm with
  | rest | dropCall | lose | blunder => exact .refl e.queue
  | dropPlace | quit => exact WorkQueue.dwindles_leave e.queue t
  | await _ _ _ hq => exact WorkQueue.dwindles_get_waiting hs hq
  | retire _ _ _ hq => exact WorkQueue.dwindles_get_none hs hq
  | start _ _ _ hq => exact WorkQueue.dwindles_get_some hs hq
  | answer _ _ _ _ hq => exact WorkQueue.dwindles_markDone hq

theorem ProducerMove.dwindles {p : Producer} (hm : ProducerMove e t p r) :
    e.queue.Dwindles r.1.queue := by
  cases hm with
  | rest => exact .refl e.queue
  | reserve hq => exact WorkQueue.dwindles_reserve? hq
  | await hq => exact WorkQueue.dwindles_put (WorkQueue.put_waiting hq).1 hq
  | refused hq =>
    have hsame := (WorkQueue.put_error hq).1
    exact WorkQueue.dwindles_put (hsame ▸ .refl e.queue t) hq
  | put hq => exact WorkQueue.dwindles_put (WorkQueue.put_ok hq).1 hq

/-- A worker that finishes sees a cancellation, or the end of the queue. -/
theorem WorkerMove.finished {x : Worker} (hm : WorkerMove script e t w r)
    (ht : e.tasks[t]? = some (.worker w)) (hx : x ∈ workersOf r.1.tasks)
    (hend : x.phase = .ended .finished) : x ∈ workersOf e.tasks ∨
      r.1.context.isCancelled = true ∨ e.queue.closed = true ∧ e.queue.buffer = [] := by
  have hnew : ∀ v, x ∈ workersOf (e.tasks.set t (.worker v)) → x = v ∨ x ∈ workersOf e.tasks :=
    fun v hx => mem_of_mem_setWorker hx ht
  cases hm with
  | rest | await => exact .inl hx
  | dropPlace | dropCall | lose | blunder | start =>
    rcases hnew _ hx with rfl | hx
    · cases hend
    · exact .inl hx
  | quit _ _ hc => exact .inr (.inl hc)
  | retire _ _ _ hq => exact .inr (.inr (WorkQueue.get_none hq).2.2.2)
  | @answer call reply =>
    rcases hnew _ hx with rfl | hx
    · cases hv : e.verdict? w call reply with
      | none =>
        rw [hv] at hend
        cases hend
      | some reason => exact .inr (.inl (Cancellation.isCancelled_cancel e.context reason))
    · exact .inl hx

end Engine

namespace Swept

variable {members : List TaskId} {e e' : Engine} {script : Script} {t : TaskId} {r : Engine × Bool}

theorem alike (h : Swept e) (he : e.Alike e') : Swept e' := by
  obtain ⟨hq, -, hcontext, -, htasks⟩ := he
  refine ⟨?_, ?_⟩
  · rw [hq]
    exact h.line
  · rw [htasks, hcontext, hq]
    exact h.finished

/-- Nothing comes into the queue, and whoever finishes leaves nothing behind. -/
theorem dwindle (h : Swept e) (hq : e.queue.Dwindles e'.queue)
    (hcontext : e.context.isCancelled = true → e'.context.isCancelled = true)
    (hworkers : ∀ w ∈ workersOf e'.tasks, w.phase = .ended .finished → w ∈ workersOf e.tasks ∨
      e'.context.isCancelled = true ∨ e.queue.closed = true ∧ e.queue.buffer = []) : Swept e' := by
  have hend : e.queue.closed = true ∧ e.queue.buffer = [] →
      e'.queue.closed = true ∧ e'.queue.buffer = [] := fun ⟨hc, hb⟩ =>
    ⟨hq.closed.trans hc, hq.buffer hc (h.line hc) hb⟩
  refine ⟨fun hc => ?_, fun w hw hphase => ?_⟩
  · rw [hq.closed] at hc
    exact hq.line hc (h.line hc)
  · rcases hworkers w hw hphase with hold | hcancelled | hdry
    · exact (h.finished w hold hphase).imp hcontext hend
    · exact .inl hcancelled
    · exact .inr (hend hdry)

/-- The queue is closed; the workers stay as they are. -/
theorem close (h : Swept e) (hline : e.queue.closed = false → e.queue.putLine = [])
    (hq : e'.queue = e.queue.close) (hcontext : e'.context = e.context)
    (hworkers : workersOf e'.tasks = workersOf e.tasks) : Swept e' := by
  refine ⟨fun _ => ?_, ?_⟩
  · rw [hq]
    show e.queue.putLine = []
    cases hc : e.queue.closed with
    | false => exact hline hc
    | true => exact h.line hc
  · rw [hworkers, hcontext, hq]
    exact fun w hw hphase => (h.finished w hw hphase).imp_right fun ⟨_, hb⟩ => ⟨rfl, hb⟩

theorem move (h : Swept e) (hinv : PoolInv members e) (hm : Engine.TaskMove script e t r)
    (hline : e.queue.closed = false → r.1.queue.closed = true → e.queue.putLine = []) :
    Swept r.1 := by
  have hcontext := fun hc => (hm.curbed hc).cancelled
  cases hm with
  | rest => exact h
  | worker ht hm =>
    exact h.dwindle (hm.dwindles hinv.holdings.sound) hcontext fun w hw => hm.finished ht hw
  | driver ht => exact (hinv.staff.fits t _ ht).elim
  | producer ht hm =>
    refine h.dwindle hm.dwindles hcontext fun w hw _ => .inl ?_
    cases hm with
    | rest | reserve | await => exact hw
    | refused | put => exact mem_of_mem_setOther hw rfl
  | join | shutDown =>
    exact h.dwindle (.refl _) hcontext fun w hw _ => .inl (mem_of_mem_setOther hw rfl)
  | close ht =>
    exact h.close (fun hc => hline hc rfl) rfl rfl (sameWorkers_set ht rfl rfl).workersOf_eq

theorem react (h : Swept e) (hinv : PoolInv members e) (script : Script) (event : Event)
    (hline : e.queue.closed = false → (e.react script event).queue.closed = true →
      e.queue.putLine = []) : Swept (e.react script event) := by
  cases event with
  | poll t =>
    have hfront : Swept (e.front t) := h.alike ⟨rfl, rfl, rfl, rfl, rfl⟩
    have hinv' : PoolInv members (e.front t) := hinv.alike ⟨rfl, rfl, rfl, rfl, rfl⟩
    have halike := Engine.poll_alike script e t
    have hqueue : (e.react script (.poll t)).queue = ((e.front t).step script t).1.queue :=
      halike.queue
    rw [hqueue] at hline
    exact (hfront.move hinv' (Engine.step_move script (e.front t) t) hline).alike halike
  | reply => exact ⟨h.line, h.finished⟩
  | cancel reason =>
    refine ⟨h.line, fun w hw hphase => .inl ?_⟩
    exact Cancellation.isCancelled_cancel e.context reason
  | pause => exact ⟨h.line, h.finished⟩

end Swept

end LoadGenerator
