import LoadGenerator.Proofs.Engine.Rest

/-!
# Workers that have been cancelled

Once the context is cancelled nobody takes an item or starts a call. A worker that has none ends,
and one that waits for a call takes its reply at most and then has none: at most one more outcome,
that of the call, is recorded by each (`LastOutcome`). `WindingDown` collects what an engine keeps
to from then on, whatever happens (`windingDown_play`).
-/

namespace LoadGenerator

namespace WorkerStats

/-- What is recorded depends on the counts only. -/
theorem get_raise_congr {s s' : WorkerStats} (h : ∀ x, s.get x = s'.get x)
    (adds : List (Entry × UInt64)) (x : Entry) :
    (s.raise adds).1.get x = (s'.raise adds).1.get x := by
  induction adds generalizing s s' with
  | nil => exact h x
  | cons add rest ih =>
    obtain ⟨y, n⟩ := add
    simp only [raise, h y]
    cases Count.add (s'.get y) n with
    | error => exact h x
    | ok total =>
      refine ih fun z => ?_
      rw [get_set, get_set, h z]

theorem get_record_congr {s s' : WorkerStats} (h : ∀ x, s.get x = s'.get x) (outcome : Outcome)
    (x : Entry) : (s.record outcome).1.get x = (s'.record outcome).1.get x :=
  get_raise_congr h _ x

end WorkerStats

/-- What becomes of a worker that gets no more items: it stays as it is, ends, or takes the reply to
the call that it waits for. -/
inductive LastOutcome (log : CallLog) (w v : Worker) : Prop
  | unchanged (hphase : v.phase = w.phase) (htally : ∀ x, v.stats.get x = w.stats.get x)
  | ended (hw : w.hasEnded = false) (hv : v.hasEnded = true)
      (htally : ∀ x, v.stats.get x = w.stats.get x)
  | answered {call : Nat} {reply : Reply} {outcome : Outcome} (hw : w.phase = .calling call)
      (hreply : log.state? call = some (.returned reply)) (ho : reply.outcome? = some outcome)
      (hv : v.phase = .seeking ∨ v.hasEnded = true)
      (htally : ∀ x, v.stats.get x = (w.stats.record outcome).1.get x)

/-- Every call has one caller. -/
def CallsApart (tasks : List Task) : Prop :=
  ∀ t u call, callOf tasks t = some call → callOf tasks u = some call → t = u

namespace LastOutcome

variable {log log' : CallLog} {w v x : Worker} {t : TaskId}

theorem spared (h : LastOutcome log w v) (hx : Engine.Spared v x) : LastOutcome log w x := by
  rcases hx with rfl | ⟨-, rfl⟩
  · exact h
  · cases h with
    | unchanged hphase htally => exact .unchanged hphase htally
    | ended hw hv htally => exact .ended hw hv htally
    | answered hw hreply ho hv htally => exact .answered hw hreply ho hv htally

theorem mono (h : LastOutcome log w v) (hlog : ∀ call reply, w.phase = .calling call →
    log.state? call = some (.returned reply) → log'.state? call = some (.returned reply)) :
    LastOutcome log' w v := by
  cases h with
  | unchanged hphase htally => exact .unchanged hphase htally
  | ended hw hv htally => exact .ended hw hv htally
  | answered hw hreply ho hv htally => exact .answered hw (hlog _ _ hw hreply) ho hv htally

theorem of_calling {call : Nat} (h : LastOutcome log w v) (hv : v.phase = .calling call) :
    w.phase = .calling call ∧ ∀ y, v.stats.get y = w.stats.get y := by
  cases h with
  | unchanged hphase htally => exact ⟨hphase ▸ hv, htally⟩
  | ended _ hended =>
    rw [(Worker.of_calling hv).1] at hended
    cases hended
  | answered _ _ _ hended =>
    rcases hended with hp | hended
    · rw [hv] at hp
      cases hp
    · rw [(Worker.of_calling hv).1] at hended
      cases hended

/-- A worker that looks for an item ends without another outcome. -/
theorem stop {how : Ending} (h : LastOutcome log w v) (hlive : v.hasEnded = false)
    (htally : ∀ y, x.stats.get y = v.stats.get y) : LastOutcome log w (x.finish how) := by
  have hget : ∀ y, (x.finish how).stats.get y = v.stats.get y :=
    fun y => (WorkerStats.get_stop _ 0 y).trans (htally y)
  cases h with
  | unchanged hphase hsame =>
    refine .ended ?_ rfl fun y => (hget y).trans (hsame y)
    rw [Worker.hasEnded, ← hphase]
    exact hlive
  | ended _ hv =>
    rw [hlive] at hv
    cases hv
  | answered hw hreply ho _ hsame =>
    exact .answered hw hreply ho (.inr rfl) fun y => (hget y).trans (hsame y)

end LastOutcome

namespace Engine

variable {script : Script} {e e₁ e₂ : Engine} {t u : TaskId} {w v : Worker} {r : Engine × Bool}

/-- What an engine that has been cancelled keeps to, as compared with how it was at a moment since
then. -/
structure WindingDown (e e' : Engine) : Prop where
  cancelled : e'.context.isCancelled = true
  calls : e'.log.size = e.log.size
  items : e.queue.buffer <+: e'.queue.buffer
  callers : ∀ t call, callOf e'.tasks t = some call → callOf e.tasks t = some call
  workers : ∀ (t : TaskId) w, e.tasks[t]? = some (.worker w) →
    ∃ v, e'.tasks[t]? = some (.worker v) ∧ LastOutcome e'.log w v

/-! ### Steps -/

/-- A step of the task `t` that takes no item and starts no call. -/
structure Curbed (t : TaskId) (e e' : Engine) : Prop where
  cancelled : e'.context.isCancelled = true
  calls : e'.log.size = e.log.size
  items : e.queue.buffer <+: e'.queue.buffer
  callers : ∀ u call, callOf e'.tasks u = some call → callOf e.tasks u = some call
  states : ∀ call, callOf e.tasks t ≠ some call → e'.log.state? call = e.log.state? call

theorem callOf_of_set {tasks : List Task} {task : Task} {call : Nat} (hnone : task.call? = none)
    (h : callOf (tasks.set t task) u = some call) : callOf tasks u = some call := by
  by_cases hut : u = t
  · subst hut
    unfold callOf at h
    obtain ⟨task', htask, hcall⟩ := Option.bind_eq_some_iff.1 h
    rw [eq_of_getElem?_set htask, hnone] at hcall
    cases hcall
  · rwa [callOf, getElem?_set_of_ne hut] at h

theorem Curbed.of_log (hc : e₁.context.isCancelled = true) (hlog : e₁.log = e.log)
    (hitems : e.queue.buffer <+: e₁.queue.buffer)
    (hcallers : ∀ u call, callOf e₁.tasks u = some call → callOf e.tasks u = some call) :
    Curbed t e e₁ :=
  ⟨hc, by rw [hlog], hitems, hcallers, fun call _ => by rw [hlog]⟩

theorem Curbed.of_queue (hc : e₁.context.isCancelled = true) (hlog : e₁.log = e.log)
    (hitems : e.queue.buffer <+: e₁.queue.buffer) (htasks : e₁.tasks = e.tasks) : Curbed t e e₁ :=
  .of_log hc hlog hitems fun _ _ hu => htasks ▸ hu

theorem Curbed.of_set {task : Task} (hc : e₁.context.isCancelled = true) (hlog : e₁.log = e.log)
    (hitems : e.queue.buffer <+: e₁.queue.buffer) (htasks : e₁.tasks = e.tasks.set t task)
    (hnone : task.call? = none) : Curbed t e e₁ :=
  .of_log hc hlog hitems fun _ _ hu => callOf_of_set hnone (htasks ▸ hu)

/-- A worker comes to the end of its call. -/
theorem Curbed.of_call {call : Nat} {s : CallState} {task : Task}
    (hc : e₁.context.isCancelled = true) (hcall : callOf e.tasks t = some call)
    (hlog : e₁.log = e.log.set call s) (hitems : e.queue.buffer <+: e₁.queue.buffer)
    (htasks : e₁.tasks = e.tasks.set t task) (hnone : task.call? = none) : Curbed t e e₁ := by
  refine ⟨hc, by rw [hlog, CallLog.size_set], hitems,
    fun u call hu => callOf_of_set hnone (htasks ▸ hu), fun call' hne => ?_⟩
  have hother : call' ≠ call := by
    rintro rfl
    exact hne hcall
  rw [hlog, CallLog.state?_set_of_ne hother]

theorem prefix_of_buffer_eq {q q' : WorkQueue WorkItem} (h : q'.buffer = q.buffer) :
    q.buffer <+: q'.buffer :=
  h ▸ List.prefix_rfl

theorem WorkerMove.curbed (hm : WorkerMove script e t w r) (ht : e.tasks[t]? = some (.worker w))
    (hc : e.context.isCancelled = true) : Curbed t e r.1 := by
  have hleave := prefix_of_buffer_eq (WorkQueue.leave_dealing e.queue t).2.1
  have hcall : ∀ {call}, w.phase = .calling call → callOf e.tasks t = some call :=
    fun hw => callOf_eq_some.2 ⟨w, ht, hw⟩
  have hopen : e.context.isCancelled = false → Curbed t e r.1 := by
    intro hopen
    rw [hc] at hopen
    cases hopen
  cases hm with
  | rest => exact .of_queue hc rfl List.prefix_rfl rfl
  | dropPlace | quit => exact .of_set hc rfl hleave rfl rfl
  | dropCall hw | lose hw => exact .of_call hc (hcall hw) rfl List.prefix_rfl rfl rfl
  | await _ _ h | retire _ _ h | start _ _ h => exact hopen h
  | @answer call reply _ _ hw _ _ _ hq =>
    have hbuffer := prefix_of_buffer_eq (congrArg WorkQueue.buffer (WorkQueue.markDone_ok hq).1)
    refine .of_call (Cancellation.isCancelled_heed hc _) (hcall hw) rfl hbuffer rfl ?_
    cases e.verdict? w call reply <;> rfl
  | blunder hw =>
    exact .of_call (Cancellation.isCancelled_heed hc _) (hcall hw) rfl List.prefix_rfl rfl rfl

theorem callOf_giveUp {d : RunDriver} (ht : e.tasks[t]? = some (.driver d)) (error : Error)
    (u : TaskId) : callOf (e.giveUp t d error).tasks u = callOf e.tasks u := by
  unfold giveUp
  rw [callOf_abortAll]
  exact callOf_set_driver ht u

theorem Curbed.giveUp {d : RunDriver} {q : WorkQueue WorkItem} (ht : e.tasks[t]? = some (.driver d))
    (hc : e.context.isCancelled = true) (hq : q.buffer = e.queue.buffer) (error : Error) :
    Curbed t e (({ e with queue := q }).giveUp t d error) := by
  rw [giveUp_eq]
  refine .of_log hc rfl (prefix_of_buffer_eq ?_) fun u call hu => ?_
  · exact (WorkQueue.leave_dealing q t).2.1.trans hq
  · have ht' : ({ e with queue := q } : Engine).tasks[t]? = some (.driver d) := ht
    exact (callOf_giveUp ht' error u).symm.trans hu

theorem DriverMove.curbed {d : RunDriver} (hm : DriverMove e t d r)
    (ht : e.tasks[t]? = some (.driver d)) (hc : e.context.isCancelled = true) : Curbed t e r.1 := by
  cases hm with
  | rest => exact .of_queue hc rfl List.prefix_rfl rfl
  | refuse | submitted | drained | close | complete => exact .of_set hc rfl List.prefix_rfl rfl rfl
  | await _ _ _ hq =>
    exact .of_queue hc rfl (prefix_of_buffer_eq (WorkQueue.put_waiting hq).2.1) rfl
  | put _ _ _ hq => exact .of_set hc rfl ⟨_, (WorkQueue.put_ok hq).2.1.symm⟩ rfl rfl
  | launch =>
    rw [spawnAll_eq]
    refine .of_log hc rfl List.prefix_rfl fun u call hu => ?_
    rw [← callOf_set_driver ht, ← callOf_append_poolWorkers]
    exact hu
  | giveUp => exact .giveUp ht hc rfl _
  | refused _ _ _ hq =>
    exact .giveUp ht hc (congrArg WorkQueue.buffer (WorkQueue.put_error hq).1) _

theorem ProducerMove.curbed {p : Producer} (hm : ProducerMove e t p r)
    (hc : e.context.isCancelled = true) : Curbed t e r.1 := by
  cases hm with
  | rest => exact .of_queue hc rfl List.prefix_rfl rfl
  | reserve hq => exact .of_queue hc rfl (prefix_of_buffer_eq (WorkQueue.reserve?_eq hq).1) rfl
  | await hq => exact .of_queue hc rfl (prefix_of_buffer_eq (WorkQueue.put_waiting hq).2.1) rfl
  | refused hq =>
    have hbuffer := prefix_of_buffer_eq (congrArg WorkQueue.buffer (WorkQueue.put_error hq).1)
    exact .of_set hc rfl hbuffer rfl rfl
  | put hq => exact .of_set hc rfl ⟨_, (WorkQueue.put_ok hq).2.1.symm⟩ rfl rfl

theorem TaskMove.curbed (hm : TaskMove script e t r) (hc : e.context.isCancelled = true) :
    Curbed t e r.1 := by
  cases hm with
  | rest => exact .of_queue hc rfl List.prefix_rfl rfl
  | worker ht hm => exact hm.curbed ht hc
  | driver ht hm => exact hm.curbed ht hc
  | producer ht hm => exact hm.curbed hc
  | join | close | shutDown => exact .of_set hc rfl List.prefix_rfl rfl rfl

/-! ### Histories -/

/-- A worker that has been cancelled makes a move: it ends, or takes the reply to its call. -/
theorem WorkerMove.lastOutcome {base : Worker} (h : LastOutcome e.log base w)
    (hm : WorkerMove script e t w r) (ht : e.tasks[t]? = some (.worker w))
    (hc : e.context.isCancelled = true) :
    ∃ v, r.1.tasks[t]? = some (.worker v) ∧ LastOutcome r.1.log base v := by
  have hlost : ∀ {call how log}, w.phase = .calling call → LastOutcome log base (w.finish how) := by
    intro call how log hw
    obtain ⟨hbase, htally⟩ := h.of_calling hw
    exact .ended (Worker.of_calling hbase).1 rfl
      fun x => (WorkerStats.get_stop _ 0 x).trans (htally x)
  cases hm with
  | rest => exact ⟨w, ht, h⟩
  | dropPlace hw => exact ⟨_, getElem?_set_same ht _, h.stop (Worker.of_seeking hw).1 fun _ => rfl⟩
  | quit hw =>
    exact ⟨_, getElem?_set_same ht _,
      h.stop (Worker.of_seeking hw).1 fun x => WorkerStats.get_start _ 0 x⟩
  | dropCall hw | lose hw => exact ⟨_, getElem?_set_same ht _, hlost hw⟩
  | await _ _ hopen | retire _ _ hopen | start _ _ hopen =>
    rw [hc] at hopen
    cases hopen
  | @answer call reply outcome _ hw _ hr ho =>
    obtain ⟨hbase, htally⟩ := h.of_calling hw
    have hrecord := WorkerStats.get_record_congr htally outcome
    have hreply := CallLog.state?_set_self (u := .returned reply) (CallLog.reply?_eq_some hr)
    refine ⟨_, getElem?_set_same ht _, .answered hbase hreply ho ?_ fun x => ?_⟩
    · cases e.verdict? w call reply with
      | none => exact .inl rfl
      | some => exact .inr rfl
    · rw [← hrecord x]
      cases e.verdict? w call reply with
      | none => rfl
      | some => exact WorkerStats.get_stop _ 0 x
  | @blunder call reply outcome _ hw _ hr ho =>
    obtain ⟨hbase, htally⟩ := h.of_calling hw
    have hrecord := WorkerStats.get_record_congr htally outcome
    have hreply := CallLog.state?_set_self (u := .returned reply) (CallLog.reply?_eq_some hr)
    exact ⟨_, getElem?_set_same ht _, .answered hbase hreply ho (.inr rfl) fun x =>
      (WorkerStats.get_stop _ 0 x).trans (hrecord x)⟩

theorem WindingDown.step (hapart : CallsApart e.tasks) (h : WindingDown e e₁)
    (hm : TaskMove script e₁ t r) : WindingDown e r.1 := by
  have hcurbed := hm.curbed h.cancelled
  refine ⟨hcurbed.cancelled, hcurbed.calls.trans h.calls, h.items.trans hcurbed.items,
    fun u call hu => h.callers u call (hcurbed.callers u call hu), fun u w hu => ?_⟩
  obtain ⟨v, hv, hlast⟩ := h.workers u w hu
  rcases hm.worker_at hv with ⟨rfl, hw⟩ | ⟨hne, x, hx, hspared⟩
  · exact hw.lastOutcome hlast hv h.cancelled
  · refine ⟨x, hx, (hlast.mono fun call reply hphase hstate => ?_).spared hspared⟩
    -- nobody else has made the call
    have hother : callOf e₁.tasks t ≠ some call := fun hcall =>
      hne (hapart u t call (callOf_eq_some.2 ⟨w, hu, hphase⟩) (h.callers t call hcall))
    exact (hcurbed.states call hother).trans hstate

theorem WindingDown.refl (hc : e.context.isCancelled = true) : WindingDown e e :=
  ⟨hc, rfl, List.prefix_rfl, fun _ _ => id, fun _ w hw => ⟨w, hw, .unchanged rfl fun _ => rfl⟩⟩

theorem WindingDown.congr (h : WindingDown e e₁) (halike : e₁.Alike e₂) : WindingDown e e₂ := by
  obtain ⟨hqueue, -, hcontext, hlog, htasks⟩ := halike
  refine ⟨?_, ?_, ?_, ?_, ?_⟩
  · rw [hcontext]
    exact h.cancelled
  · rw [hlog]
    exact h.calls
  · rw [hqueue]
    exact h.items
  · rw [htasks]
    exact h.callers
  · rw [htasks, hlog]
    exact h.workers

theorem WindingDown.react (hapart : CallsApart e.tasks) (h : WindingDown e e₁) (event : Event) :
    WindingDown e (e₁.react script event) := by
  cases event with
  | poll t =>
    have hfront : WindingDown e (e₁.front t) := h.congr ⟨rfl, rfl, rfl, rfl, rfl⟩
    exact (hfront.step hapart (step_move script (e₁.front t) t)).congr (poll_alike script e₁ t)
  | reply call reply =>
    refine ⟨h.cancelled, (CallLog.size_reply _ _ _).trans h.calls, h.items, h.callers,
      fun u w hu => ?_⟩
    obtain ⟨v, hv, hlast⟩ := h.workers u w hu
    exact ⟨v, hv, hlast.mono fun _ _ _ => CallLog.state?_reply_of_returned call reply⟩
  | cancel reason =>
    exact ⟨Cancellation.isCancelled_cancel _ reason, h.calls, h.items, h.callers, h.workers⟩
  | pause => exact ⟨h.cancelled, h.calls, h.items, h.callers, h.workers⟩

/-- Whatever happens to an engine that has been cancelled, no item is taken and no call is started
any more. -/
theorem windingDown_play (hc : e.context.isCancelled = true) (hapart : CallsApart e.tasks)
    (events : List Event) : WindingDown e (e.play script events) :=
  play_induction (P := WindingDown e) (.refl hc) (fun _ event h => h.react hapart event) events

end Engine

end LoadGenerator
