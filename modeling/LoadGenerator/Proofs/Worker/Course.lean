import LoadGenerator.Proofs.Run.Replies
import LoadGenerator.Proofs.Worker.Tallying

/-!
# The course of a worker on its own

A worker alone at a closed queue is `Serving` from one answer to the next: it looks for the next
item, or it waits for the reply to the call for it, and all that it has done before is on record.
Every event but a cancellation from outside leaves it so or lets it go on (`Serving.react`), until
it is over and what it leaves behind is what was to do (`Served`).
-/

namespace LoadGenerator

/-! ### The queue -/

/-- A closed queue at which nobody waits; of its items some have been taken, and some of these are
done. -/
structure Stock (items : List WorkItem) (taken done : Nat) (q : WorkQueue WorkItem) : Prop where
  buffer : q.buffer = items.drop taken
  outstanding : q.outstanding + done = items.length
  closed : q.closed = true
  turn : q.turn = .free
  granted : q.granted = []
  putters : q.putters = []
  getters : q.getters = []

namespace Stock

variable {items : List WorkItem} {taken done : Nat} {q q' : WorkQueue WorkItem} {t : TaskId}
  {item : WorkItem}

theorem callable (h : Stock items taken done q) : q.callable = [] := by
  simp only [WorkQueue.callable, h.granted, h.turn, List.append_nil]

/-- Nobody has the turn, so whoever comes is served. -/
theorem get_eq (h : Stock items taken done q) (t : TaskId) : q.get t = q.serve t := by
  simp only [WorkQueue.get, h.turn, Turn.owner]

theorem take (h : Stock items taken done q) (hq : q.get t = (q', .done (some item))) :
    items[taken]? = some item ∧ Stock items (taken + 1) done q' := by
  rw [h.get_eq] at hq
  obtain ⟨rest, hbuffer, rfl⟩ := WorkQueue.serve_some hq
  have hdrop : items.drop taken = item :: rest := h.buffer.symm.trans hbuffer
  have hq' : ({ q with buffer := rest }).releaseSlot.passTurn =
      { q with buffer := rest, free := q.free + 1, turn := .free } := by
    simp only [WorkQueue.releaseSlot, h.putters, WorkQueue.passTurn, h.getters]
  rw [hq']
  refine ⟨?_, ?_, h.outstanding, h.closed, rfl, h.granted, h.putters, h.getters⟩
  · have hhead := congrArg (·[0]?) hdrop
    simpa using hhead
  · show rest = items.drop (taken + 1)
    rw [← List.drop_drop, hdrop]
    rfl

theorem retire (h : Stock items taken done q) (hq : q.get t = (q', .done none)) :
    items.length ≤ taken ∧ Stock items taken done q' := by
  rw [h.get_eq] at hq
  obtain ⟨rfl, hbuffer, -⟩ := WorkQueue.serve_none hq
  have hq' : q.passTurn = { q with turn := .free } := by
    simp only [WorkQueue.passTurn, h.getters]
  rw [hq']
  refine ⟨?_, h.buffer, h.outstanding, h.closed, rfl, h.granted, h.putters, h.getters⟩
  exact List.drop_eq_nil_iff.1 (h.buffer.symm.trans hbuffer)

theorem get_ne_waiting (h : Stock items taken done q) : q.get t ≠ (q', .waiting) := by
  intro hq
  rw [h.get_eq] at hq
  have hopen := (WorkQueue.serve_waiting hq).2.2
  rw [h.closed] at hopen
  cases hopen

theorem markDone (h : Stock items taken done q) (hq : q.markDone = .ok q') :
    Stock items taken (done + 1) q' := by
  obtain ⟨hq', hout⟩ := WorkQueue.markDone_ok hq
  have houtstanding := h.outstanding
  rw [hq']
  refine ⟨h.buffer, ?_, h.closed, h.turn, h.granted, h.putters, h.getters⟩
  show q'.outstanding + (done + 1) = items.length
  omega

theorem markDone_ne_error {fault : QueueFault} (h : Stock items taken done q)
    (hdone : done < items.length) : q.markDone ≠ .error fault := by
  intro hq
  have hzero := WorkQueue.markDone_error hq
  have houtstanding := h.outstanding
  omega

end Stock

/-! ### The worker -/

/-- A worker is stopped by a request without a response if it is to abort then, and by nothing
else. -/
theorem Worker.verdict?_cases {policy : FailurePolicy} {w : Worker} (hobeys : w.policy = policy)
    (target : Target) (reply : Reply) :
    (w.verdict? target reply = none ∧ (policy = .abort → reply.isFailure = false)) ∨
      ∃ error, reply = .failure error ∧ policy = .abort ∧
        w.verdict? target reply = some (.transportFailure target.display error.message) := by
  cases reply with
  | response | breakdown => exact .inl ⟨rfl, fun _ => rfl⟩
  | failure error =>
    cases policy with
    | goOn => exact .inl ⟨by simp [Worker.verdict?, hobeys], fun hp => by cases hp⟩
    | abort => exact .inr ⟨error, rfl, rfl, by simp [Worker.verdict?, hobeys]⟩

/-- What a worker leaves behind that has made `m` calls for some items. -/
structure Served (policy : FailurePolicy) (items : List WorkItem) (replies : Nat → Reply) (m : Nat)
    (e : Engine) : Prop where
  finished : ∃ w, e.tasks = [.worker w] ∧ w.phase = .ended .finished ∧
    Tallies (firstReplies replies m) w.stats e.counter
  targets : e.log.calls.toList.map Call.target = (items.take m).map WorkItem.target
  calls : e.log.size = m
  outstanding : e.queue.outstanding = items.length - m
  buffer : e.queue.buffer = items.drop m
  cancelled : e.context.isCancelled = true ↔
    policy = .abort ∧ ∃ n, 0 < n ∧ n ≤ items.length ∧ (replies n).isFailure = true
  reason : ∀ item error, policy = .abort → items[m - 1]? = some item →
    replies m = .failure error →
      e.context.reason = some (.transportFailure item.target.display error.message)

/-- A worker has got `k` answers, and it has taken some items for that. -/
structure Working (policy : FailurePolicy) (items : List WorkItem) (replies : Nat → Reply)
    (k taken : Nat) (w : Worker) (e : Engine) : Prop where
  tasks : e.tasks = [.worker w]
  obeys : w.policy = policy
  live : w.aborted = false
  stock : Stock items taken k e.queue
  targets : (e.log.since {}).map Call.target = (items.take taken).map WorkItem.target
  answered : ∀ n ≤ k, e.log.state? n ≠ some .waiting
  tally : Tallies (firstReplies replies k) w.stats e.counter
  reason : e.context.reason = none
  unbroken : Unbroken policy replies k

/-- A worker that has got `k` answers looks for the next item, or waits for the next reply, or is
over. -/
inductive Serving (policy : FailurePolicy) (items : List WorkItem) (replies : Nat → Reply) :
    Nat → Engine → Prop
  | seeking {k : Nat} {w : Worker} {e : Engine} (h : Working policy items replies k k w e)
      (hw : w.phase = .seeking) : Serving policy items replies k e
  | calling {k : Nat} {w : Worker} {e : Engine} (h : Working policy items replies k (k + 1) w e)
      (hw : w.phase = .calling (k + 1)) (hk : k < items.length)
      (hs : e.log.state? (k + 1) = some .waiting ∨
        e.log.state? (k + 1) = some (.replied (replies (k + 1)))) :
      Serving policy items replies k e
  | served {m : Nat} {e : Engine} (h : Served policy items replies m e)
      (hq : Stock items m m e.queue) (hs : ∀ n, e.log.state? n ≠ some .waiting)
      (hm : m = callsDue policy replies items.length) : Serving policy items replies m e

variable {policy : FailurePolicy} {items : List WorkItem} {replies : Nat → Reply} {k m taken : Nat}
  {w : Worker} {e e' : Engine} {r : Engine × Bool} {script : Script}

theorem Served.alike (h : Served policy items replies m e) (he : e.Alike e') :
    Served policy items replies m e' := by
  obtain ⟨hq, hcounter, hcontext, hlog, htasks⟩ := he
  obtain ⟨hfinished, htargets, hsize, hout, hbuffer, hcancelled, hreason⟩ := h
  refine ⟨?_, ?_, ?_, ?_, ?_, ?_, ?_⟩
  · rwa [htasks, hcounter]
  · rwa [hlog]
  · rwa [hlog]
  · rwa [hq]
  · rwa [hq]
  · rwa [hcontext]
  · rwa [hcontext]

namespace Working

theorem le_length (h : Working policy items replies k taken w e) : k ≤ items.length := by
  have hout := h.stock.outstanding
  omega

theorem size_eq (h : Working policy items replies k taken w e) (htaken : taken ≤ items.length) :
    e.log.size = taken := by
  have hlen := congrArg List.length h.targets
  rw [List.length_map, List.length_map, List.length_take, CallLog.length_since] at hlen
  simp only [CallLog.size] at hlen ⊢
  simpa [Nat.min_eq_left htaken] using hlen

theorem isCancelled (h : Working policy items replies k taken w e) :
    e.context.isCancelled = false :=
  Option.isSome_eq_false_iff.2 (Option.isNone_iff_eq_none.2 h.reason)

theorem alike (h : Working policy items replies k taken w e) (he : e.Alike e') :
    Working policy items replies k taken w e' := by
  obtain ⟨hq, hcounter, hcontext, hlog, htasks⟩ := he
  obtain ⟨htasks', hpolicy, hlive, hstock, htargets, hanswered, htally, hreason, hunbroken⟩ := h
  refine ⟨?_, hpolicy, hlive, ?_, ?_, ?_, ?_, ?_, hunbroken⟩
  · rwa [htasks]
  · rwa [hq]
  · rwa [hlog]
  · rwa [hlog]
  · rwa [hcounter]
  · rwa [hcontext]

/-- The worker takes the next item and sends a request for it. -/
theorem start {queue : WorkQueue WorkItem} {item : WorkItem}
    (h : Working policy items replies k k w e) (hq : e.queue.get 0 = (queue, .done (some item)))
    (hscript : ∀ n reply, 0 < n → script n = some reply → reply = replies n) :
    Serving policy items replies k
      (({ e with queue, log := e.log.startWith item.target (script (e.log.size + 1)) }).setTask 0
        (.worker { w.begun with phase := .calling (e.log.size + 1) })) := by
  obtain ⟨hitem, hstock⟩ := h.stock.take hq
  have hk := (List.getElem?_eq_some_iff.1 hitem).1
  have hsize := h.size_eq h.le_length
  rw [hsize]
  refine .calling (w := { w.begun with phase := .calling (k + 1) })
    ⟨?_, h.obeys, h.live, hstock, ?_, fun n hn => ?_, h.tally.start 0, h.reason, h.unbroken⟩
    rfl hk ?_
  · simp [Engine.setTask, h.tasks]
  · show ((e.log.startWith item.target (script (k + 1))).since {}).map Call.target = _
    rw [CallLog.targets_startWith _ _ (Nat.zero_le _), h.targets, List.take_add_one, hitem]
    simp
  · show (e.log.startWith item.target (script (k + 1))).state? n ≠ some .waiting
    rw [CallLog.state?_startWith_of_le _ (hsize ▸ hn)]
    exact h.answered n hn
  · have hnew : (e.log.startWith item.target (script (k + 1))).state? (k + 1) =
        some (.ofReply? (script (k + 1))) := by
      rw [← hsize]
      exact CallLog.state?_startWith_new _
    show (e.log.startWith item.target (script (k + 1))).state? (k + 1) = _ ∨
      (e.log.startWith item.target (script (k + 1))).state? (k + 1) = _
    rw [hnew]
    cases hreply : script (k + 1) with
    | none => exact .inl rfl
    | some reply => exact .inr (by rw [hscript _ _ (Nat.succ_pos k) hreply]; rfl)

/-- No item is left, so as many calls were to make as there were items. -/
theorem retire {queue : WorkQueue WorkItem} (h : Working policy items replies k k w e)
    (hq : e.queue.get 0 = (queue, .done none)) : Serving policy items replies k
      (({ e with queue }).setTask 0 (.worker (w.begun.finish .finished))) := by
  obtain ⟨hle, hstock⟩ := h.stock.retire hq
  obtain rfl : k = items.length := Nat.le_antisymm h.le_length hle
  have hsize := h.size_eq h.le_length
  have hout := hstock.outstanding
  have hcalm : ∀ n, policy = .abort → 0 < n → n ≤ items.length → (replies n).isFailure = false := by
    intro n hp hpos hn
    have hfine := h.unbroken hp (n - 1) (by omega)
    rwa [Nat.sub_add_cancel hpos] at hfine
  have hanswered : ∀ n, e.log.state? n ≠ some .waiting := fun n hn =>
    h.answered n (hsize ▸ CallLog.le_size_of_state? hn) hn
  refine .served ?_ hstock hanswered (callsDue_of_unbroken h.unbroken).symm
  constructor
  · exact ⟨w.begun.finish .finished, by simp [Engine.setTask, h.tasks], rfl,
      (h.tally.start 0).stop 0⟩
  · exact h.targets
  · exact hsize
  · show queue.outstanding = _
    omega
  · exact hstock.buffer
  · show e.context.isCancelled = true ↔ _
    rw [h.isCancelled]
    refine iff_of_false Bool.false_ne_true ?_
    rintro ⟨hp, n, hpos, hn, hfailure⟩
    rw [hcalm n hp hpos hn] at hfailure
    cases hfailure
  · intro item error hp hitem hreply
    have hpos := (List.getElem?_eq_some_iff.1 hitem).1
    have hfine := hcalm items.length hp (by omega) (Nat.le_refl _)
    rw [hreply] at hfine
    cases hfine

/-- The call that the worker waits for goes to the target of the item that it has taken last. -/
theorem verdict?_eq {item : WorkItem} (h : Working policy items replies k (k + 1) w e)
    (hitem : items[k]? = some item) (reply : Reply) :
    e.verdict? w (k + 1) reply = w.verdict? item.target reply := by
  have hcall : (e.log.get? (k + 1)).map Call.target = some item.target := by
    have htarget := congrArg (·[k]?) h.targets
    simpa [CallLog.since, CallLog.size, CallLog.get?, hitem] using htarget
  rw [Engine.verdict?, hcall]
  rfl

theorem answered_set (h : Working policy items replies k (k + 1) w e)
    (hs : e.log.state? (k + 1) = some (.replied (replies (k + 1)))) :
    ∀ n ≤ k + 1, (e.log.set (k + 1) (.returned (replies (k + 1)))).state? n ≠ some .waiting := by
  intro n hn
  rcases Nat.lt_succ_iff_lt_or_eq.1 (Nat.lt_succ_of_le hn) with hlt | rfl
  · rw [CallLog.state?_set_of_ne (Nat.ne_of_lt hlt)]
    exact h.answered n (Nat.le_of_lt_succ hlt)
  · rw [CallLog.state?_set_self hs]
    simp

theorem tally_record {outcome : Outcome} (h : Working policy items replies k (k + 1) w e)
    (hk : k < items.length) (hroom : items.length < UInt64.size)
    (ho : (replies (k + 1)).outcome? = some outcome) :
    Tallies (firstReplies replies (k + 1)) (w.tallied outcome).stats (e.counter.record outcome) := by
  rw [firstReplies_succ]
  refine h.tally.record ?_ ho
  rw [length_firstReplies]
  omega

/-- The worker records an answer that does not stop it, and looks for the next item. -/
theorem go_on {outcome : Outcome} {queue : WorkQueue WorkItem}
    (h : Working policy items replies k (k + 1) w e) (hk : k < items.length)
    (hroom : items.length < UInt64.size)
    (hs : e.log.state? (k + 1) = some (.replied (replies (k + 1))))
    (ho : (replies (k + 1)).outcome? = some outcome) (hq : e.queue.markDone = .ok queue)
    (hfine : policy = .abort → (replies (k + 1)).isFailure = false) :
    Serving policy items replies (k + 1)
      (({ e with
          queue
          counter := e.counter.record outcome
          context := e.context.heed none
          log := e.log.set (k + 1) (.returned (replies (k + 1))) }).setTask 0
        (.worker (w.afterItem outcome none))) := by
  refine .seeking (w := { w.tallied outcome with phase := .seeking })
    ⟨?_, h.obeys, h.live, h.stock.markDone hq, ?_, h.answered_set hs, h.tally_record hk hroom ho,
      h.reason, h.unbroken.succ hfine⟩ rfl
  · simp [Engine.setTask, h.tasks, Worker.afterItem]
  · exact (CallLog.targets_set e.log {} (k + 1) _).trans h.targets

/-- The worker records that there is no response, cancels the run and ends. -/
theorem give_up {outcome : Outcome} {queue : WorkQueue WorkItem} {item : WorkItem}
    {error : TransportError} (h : Working .abort items replies k (k + 1) w e)
    (hitem : items[k]? = some item) (hroom : items.length < UInt64.size)
    (hs : e.log.state? (k + 1) = some (.replied (replies (k + 1))))
    (ho : (replies (k + 1)).outcome? = some outcome) (hq : e.queue.markDone = .ok queue)
    (hreply : replies (k + 1) = .failure error) :
    Serving .abort items replies (k + 1)
      (({ e with
          queue
          counter := e.counter.record outcome
          context := e.context.heed (some (.transportFailure item.target.display error.message))
          log := e.log.set (k + 1) (.returned (replies (k + 1))) }).setTask 0
        (.worker (w.afterItem outcome
          (some (.transportFailure item.target.display error.message))))) := by
  have hk := (List.getElem?_eq_some_iff.1 hitem).1
  have hstock := h.stock.markDone hq
  have hout := hstock.outstanding
  have hsize : (e.log.set (k + 1) (.returned (replies (k + 1)))).size = k + 1 :=
    (CallLog.size_set _ _ _).trans (h.size_eq hk)
  have hfailure : (replies (k + 1)).isFailure = true := by
    rw [hreply]
    rfl
  have hcontext : (e.context.heed (some (.transportFailure item.target.display
      error.message))).reason = some (.transportFailure item.target.display error.message) := by
    rw [Cancellation.heed, Cancellation.reason_cancel_eq, h.reason]
    rfl
  refine .served ?_ hstock
    (fun n hn => h.answered_set hs n (hsize ▸ CallLog.le_size_of_state? hn) hn)
    (callsDue_of_failure h.unbroken hk hfailure).symm
  constructor
  · exact ⟨(w.tallied outcome).finish .finished,
      by simp [Engine.setTask, h.tasks, Worker.afterItem], rfl,
      (h.tally_record hk hroom ho).stop 0⟩
  · exact (CallLog.targets_set e.log {} (k + 1) _).trans h.targets
  · exact hsize
  · show queue.outstanding = _
    omega
  · exact hstock.buffer
  · exact iff_of_true (congrArg Option.isSome hcontext) ⟨rfl, k + 1, Nat.succ_pos k, hk, hfailure⟩
  · intro item' error' _ hitem' hreply'
    rw [Nat.add_sub_cancel, hitem] at hitem'
    rw [hreply] at hreply'
    cases hitem'
    cases hreply'
    exact hcontext

/-- The worker records an answer; only a request without a response can make it stop. -/
theorem answer {outcome : Outcome} {queue : WorkQueue WorkItem}
    (h : Working policy items replies k (k + 1) w e) (hk : k < items.length)
    (hroom : items.length < UInt64.size)
    (hs : e.log.state? (k + 1) = some (.replied (replies (k + 1))))
    (ho : (replies (k + 1)).outcome? = some outcome) (hq : e.queue.markDone = .ok queue) :
    Serving policy items replies (k + 1)
      (({ e with
          queue
          counter := e.counter.record outcome
          context := e.context.heed (e.verdict? w (k + 1) (replies (k + 1)))
          log := e.log.set (k + 1) (.returned (replies (k + 1))) }).setTask 0
        (.worker (w.afterItem outcome (e.verdict? w (k + 1) (replies (k + 1)))))) := by
  obtain ⟨item, hitem⟩ : ∃ item, items[k]? = some item := ⟨_, List.getElem?_eq_getElem hk⟩
  rw [h.verdict?_eq hitem]
  rcases Worker.verdict?_cases h.obeys item.target (replies (k + 1)) with
    ⟨hnone, hfine⟩ | ⟨error, hreply, rfl, hsome⟩
  · rw [hnone]
    exact h.go_on hk hroom hs ho hq hfine
  · rw [hsome]
    exact h.give_up hitem hroom hs ho hq hreply

/-- A reply reaches the call that the worker waits for, or none. -/
theorem reply (h : Working policy items replies k taken w e) (n : Nat) (r : Reply) :
    Working policy items replies k taken w { e with log := e.log.reply n r } := by
  refine ⟨h.tasks, h.obeys, h.live, h.stock, ?_, fun m hm => ?_, h.tally, h.reason, h.unbroken⟩
  · exact (CallLog.targets_reply e.log {} n r).trans h.targets
  · show (e.log.reply n r).state? m ≠ some .waiting
    rcases CallLog.reply_eq e.log n r with ⟨hwaiting, hset⟩ | hsame
    · have hne : m ≠ n := fun he => h.answered m hm (he ▸ hwaiting)
      rw [hset, CallLog.state?_set_of_ne hne]
      exact h.answered m hm
    · rw [hsame]
      exact h.answered m hm

end Working

namespace Serving

theorem alike (h : Serving policy items replies k e) (he : e.Alike e') :
    Serving policy items replies k e' := by
  cases h with
  | seeking h hw => exact .seeking (h.alike he) hw
  | calling h hw hk hs =>
    refine .calling (h.alike he) hw hk ?_
    rwa [he.log]
  | served h hq hs hm =>
    refine .served (h.alike he) ?_ ?_ hm
    · rwa [he.queue]
    · rwa [he.log]

theorem exists_stock (h : Serving policy items replies k e) :
    ∃ taken done, Stock items taken done e.queue := by
  cases h with
  | seeking h => exact ⟨_, _, h.stock⟩
  | calling h => exact ⟨_, _, h.stock⟩
  | served _ hq => exact ⟨_, _, hq⟩

theorem exists_worker (h : Serving policy items replies k e) (script : Script) :
    ∃ w, e.tasks = [.worker w] ∧ Engine.WorkerMove script e 0 w (e.step script 0) := by
  obtain ⟨w, hw⟩ : ∃ w, e.tasks = [.worker w] := by
    cases h with
    | seeking h => exact ⟨_, h.tasks⟩
    | calling h => exact ⟨_, h.tasks⟩
    | served h =>
      obtain ⟨w, hw, -⟩ := h.finished
      exact ⟨w, hw⟩
  refine ⟨w, hw, ?_⟩
  have ht : e.tasks[0]? = some (.worker w) := by rw [hw]; rfl
  rw [Engine.step, ht]
  exact Engine.stepWorker_move script e 0 w

/-- A worker that has been replied to takes one step to the next answer. -/
theorem of_replied (h : Working policy items replies k (k + 1) w e)
    (hw : w.phase = .calling (k + 1)) (hk : k < items.length) (hroom : items.length < UInt64.size)
    (hsane : ∀ n, replies n ≠ .breakdown)
    (hs : e.log.state? (k + 1) = some (.replied (replies (k + 1))))
    (hm : Engine.WorkerMove script e 0 w r) : Serving policy items replies (k + 1) r.1 := by
  have hreply : e.log.reply? (k + 1) = some (replies (k + 1)) := by
    rw [CallLog.reply?, hs]
  cases hm with
  | rest hrest =>
    rcases hrest with hended | ⟨-, call, hw', hr⟩
    · rw [(Worker.of_calling hw).1] at hended
      cases hended
    · rw [hw] at hw'
      cases hw'
      rw [hreply] at hr
      cases hr
  | dropPlace hw' | quit hw' | await hw' | retire hw' | start hw' =>
    rw [hw] at hw'
    cases hw'
  | dropCall _ ha =>
    rw [h.live] at ha
    cases ha
  | lose hw' _ hr =>
    rw [hw] at hw'
    cases hw'
    rw [hreply] at hr
    exact absurd (Option.some.inj hr) (hsane _)
  | answer hw' _ hr ho hq =>
    rw [hw] at hw'
    cases hw'
    rw [hreply] at hr
    cases hr
    exact h.answer hk hroom hs ho hq
  | blunder _ _ _ _ hq => exact absurd hq (h.stock.markDone_ne_error hk)

/-- A worker that looks for an item finds one, or is done with all of them. -/
theorem of_seeking (h : Working policy items replies k k w e) (hw : w.phase = .seeking)
    (hscript : ∀ n reply, script n = some reply → reply = replies n)
    (hm : Engine.WorkerMove script e 0 w r) : Serving policy items replies k r.1 := by
  cases hm with
  | rest hrest =>
    rcases hrest with hended | ⟨-, call, hw', -⟩
    · rw [(Worker.of_seeking hw).1] at hended
      cases hended
    · rw [hw] at hw'
      cases hw'
  | dropPlace _ ha =>
    rw [h.live] at ha
    cases ha
  | quit _ _ hc =>
    rw [h.isCancelled] at hc
    cases hc
  | await _ _ _ hq => exact absurd hq h.stock.get_ne_waiting
  | retire _ _ _ hq => exact h.retire hq
  | start _ _ _ hq => exact h.start hq fun n reply _ => hscript n reply
  | dropCall hw' | lose hw' | answer hw' | blunder hw' =>
    rw [hw] at hw'
    cases hw'

/-- A worker that has not been replied to stays as it is. -/
theorem of_unanswered (h : Working policy items replies k (k + 1) w e)
    (hw : w.phase = .calling (k + 1)) (hs : e.log.state? (k + 1) = some .waiting)
    (hm : Engine.WorkerMove script e 0 w r) : r.1 = e := by
  have hreply : e.log.reply? (k + 1) = none := by
    rw [CallLog.reply?, hs]
  cases hm with
  | rest => rfl
  | dropPlace hw' | quit hw' | await hw' | retire hw' | start hw' =>
    rw [hw] at hw'
    cases hw'
  | dropCall _ ha =>
    rw [h.live] at ha
    cases ha
  | lose hw' _ hr | answer hw' _ hr | blunder hw' _ hr =>
    rw [hw] at hw'
    cases hw'
    rw [hreply] at hr
    cases hr

/-- A worker that has ended stays as it is. -/
theorem of_ended {how : Ending} (hw : w.phase = .ended how)
    (hm : Engine.WorkerMove script e 0 w r) : r.1 = e := by
  cases hm with
  | rest => rfl
  | dropPlace hw' | dropCall hw' | quit hw' | await hw' | retire hw' | start hw' | lose hw'
  | answer hw' | blunder hw' =>
    rw [hw] at hw'
    cases hw'

theorem step (h : Serving policy items replies k e) (hroom : items.length < UInt64.size)
    (hsane : ∀ n, replies n ≠ .breakdown)
    (hscript : ∀ n reply, script n = some reply → reply = replies n)
    (ht : e.tasks = [.worker w]) (hm : Engine.WorkerMove script e 0 w r) :
    ∃ k', k ≤ k' ∧ Serving policy items replies k' r.1 := by
  have hsame : ∀ {v}, e.tasks = [.worker v] → v = w := by
    intro v hv
    rw [ht] at hv
    cases hv
    rfl
  cases h with
  | seeking h hw =>
    obtain rfl := hsame h.tasks
    exact ⟨k, Nat.le_refl k, of_seeking h hw hscript hm⟩
  | calling h hw hk hs =>
    obtain rfl := hsame h.tasks
    rcases hs with hs | hs
    · rw [of_unanswered h hw hs hm]
      exact ⟨k, Nat.le_refl k, .calling h hw hk (.inl hs)⟩
    · exact ⟨k + 1, Nat.le_succ k, of_replied h hw hk hroom hsane hs hm⟩
  | served h hq hs hdue =>
    obtain ⟨v, hv, hended, -⟩ := h.finished
    obtain rfl := hsame hv
    rw [of_ended hended hm]
    exact ⟨k, Nat.le_refl k, .served h hq hs hdue⟩

/-- What happens at a bench where nobody cancels, and where calls get the replies that they are to
get, leaves a worker serving. -/
theorem react (h : Serving policy items replies k e) (hroom : items.length < UInt64.size)
    (hsane : ∀ n, replies n ≠ .breakdown)
    (hscript : ∀ n reply, script n = some reply → reply = replies n) (event : Event)
    (hcalm : ∀ reason, event ≠ .cancel reason)
    (hreply : ∀ n reply, event = .reply n reply → reply = replies n) :
    ∃ k', k ≤ k' ∧ Serving policy items replies k' (e.react script event) := by
  cases event with
  | poll t =>
    have hfront : Serving policy items replies k (e.front t) := h.alike ⟨rfl, rfl, rfl, rfl, rfl⟩
    by_cases ht : t = 0
    · subst ht
      obtain ⟨w, hw, hm⟩ := hfront.exists_worker script
      obtain ⟨k', hle, hstep⟩ := hfront.step hroom hsane hscript hw hm
      exact ⟨k', hle, hstep.alike (Engine.poll_alike script e 0)⟩
    · obtain ⟨w, hw, -⟩ := hfront.exists_worker script
      have hnone : (e.front t).tasks[t]? = none := by
        rw [hw, List.getElem?_eq_none]
        exact Nat.pos_of_ne_zero ht
      have hstep : (e.front t).step script t = (e.front t, false) := by rw [Engine.step, hnone]
      have halike := Engine.poll_alike script e t
      rw [hstep] at halike
      exact ⟨k, Nat.le_refl k, hfront.alike halike⟩
  | reply n reply =>
    refine ⟨k, Nat.le_refl k, ?_⟩
    have hlog : Serving policy items replies k { e with log := e.log.reply n reply } := by
      cases h with
      | seeking h hw => exact .seeking (h.reply n reply) hw
      | calling h hw hk hs =>
        refine .calling (h.reply n reply) hw hk ?_
        show (e.log.reply n reply).state? (k + 1) = _ ∨ (e.log.reply n reply).state? (k + 1) = _
        rcases CallLog.reply_eq e.log n reply with ⟨hwaiting, hset⟩ | hsame
        · rw [hset]
          by_cases hn : k + 1 = n
          · subst hn
            rw [CallLog.state?_set_self hwaiting, hreply _ reply rfl]
            exact .inr rfl
          · rwa [CallLog.state?_set_of_ne hn]
        · rwa [hsame]
      | served h hq hs hdue =>
        -- no call waits any more
        have hsame : e.log.reply n reply = e.log :=
          (CallLog.reply_eq e.log n reply).resolve_left fun hw => hs n hw.1
        rw [hsame]
        exact .served h hq hs hdue
    exact hlog.alike (Engine.callBack_alike _)
  | cancel reason => exact absurd rfl (hcalm reason)
  | pause => exact ⟨k, Nat.le_refl k, h.alike ⟨rfl, rfl, rfl, rfl, rfl⟩⟩

theorem play (h : Serving policy items replies k e) (hroom : items.length < UInt64.size)
    (hsane : ∀ n, replies n ≠ .breakdown)
    (hscript : ∀ n reply, script n = some reply → reply = replies n) (events : List Event)
    (hcalm : ∀ reason, .cancel reason ∉ events)
    (hreply : ∀ n reply, .reply n reply ∈ events → reply = replies n) :
    ∃ k', k ≤ k' ∧ Serving policy items replies k' (e.play script events) := by
  induction events generalizing e k with
  | nil => exact ⟨k, Nat.le_refl k, h⟩
  | cons event rest ih =>
    obtain ⟨k₁, hle₁, h₁⟩ := h.react hroom hsane hscript event
      (fun reason he => hcalm reason (he ▸ List.mem_cons_self))
      fun n reply he => hreply n reply (he ▸ List.mem_cons_self)
    obtain ⟨k', hle, h'⟩ := ih h₁ (fun reason hmem => hcalm reason (List.mem_cons_of_mem _ hmem))
      fun n reply hmem => hreply n reply (List.mem_cons_of_mem _ hmem)
    exact ⟨k', Nat.le_trans hle₁ hle, h'⟩

end Serving

end LoadGenerator
