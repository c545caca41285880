import LoadGenerator.Proofs.Run.Conservation

/-!
# The first reason to cancel a run counts

Reasons to cancel a run come from outside, and under `FailurePolicy.abort` from every worker that
takes the error of its call. `firstReason` reads off a history which comes first, and that is the
one that the context of the run keeps (`RunInv.reason_play`). Once a run is cancelled it starts no
more calls (`RunInv.calls_play`), and before that no worker has more than one call that is not
answered (`calls_le_play`).
-/

namespace LoadGenerator

def Reply.error? : Reply → Option TransportError
  | .failure error => some error
  | _ => none

theorem Worker.verdict?_eq (w : Worker) (target : Target) (reply : Reply) :
    w.verdict? target reply = if w.policy = .abort then
      reply.error?.map fun error => .transportFailure target.display error.message else none := by
  cases reply with
  | response | breakdown => simp [Worker.verdict?, Reply.error?]
  | failure error => cases hp : w.policy <;> simp [Worker.verdict?, Reply.error?, hp]

namespace Engine

/-- The reply to its call that a task takes in its next step. -/
def taking? (e : Engine) (t : TaskId) : Option Reply :=
  match e.tasks[t]? with
  | some (.worker w) => if w.aborted then none else w.call?.bind e.log.reply?
  | _ => none

/-- The error of its call that a task takes in its next step. -/
def failing? (e : Engine) (t : TaskId) : Option TransportError :=
  (e.taking? t).bind Reply.error?

end Engine

namespace Orchestrator

/-- The reason that an event gives to cancel a run of `o`. -/
def offer? (o : Orchestrator) (e : Engine) : Event → Option CancelReason
  | .poll t =>
    if o.config.failurePolicy = .abort then
      (e.failing? t).map fun error => .transportFailure o.target.display error.message
    else none
  | .cancel reason => some reason
  | _ => none

/-- The first reason that a history gives to cancel a run of `o`. -/
def firstReason (o : Orchestrator) (script : Script) : Engine → List Event → Option CancelReason
  | _, [] => none
  | e, event :: rest => (o.offer? e event).or (o.firstReason script (e.react script event) rest)

theorem offer?_poll (o : Orchestrator) (e : Engine) (t : TaskId) : o.offer? e (.poll t) =
    if o.config.failurePolicy = .abort then ((e.taking? t).bind Reply.error?).map
      fun error => .transportFailure o.target.display error.message else none :=
  rfl

theorem offer?_of_taking? {o : Orchestrator} {e : Engine} {t : TaskId} (h : e.taking? t = none) :
    o.offer? e (.poll t) = none := by
  rw [offer?_poll, h]
  split <;> rfl

end Orchestrator

namespace Engine

variable {script : Script} {e : Engine} {t : TaskId} {w : Worker}

theorem taking?_worker (ht : e.tasks[t]? = some (.worker w)) :
    e.taking? t = if w.aborted then none else w.call?.bind e.log.reply? := by
  unfold taking?
  rw [ht]

theorem taking?_of_call?_eq_none (ht : e.tasks[t]? = some (.worker w)) (h : w.call? = none) :
    e.taking? t = none := by
  rw [taking?_worker ht, h]
  split <;> rfl

end Engine

namespace RunInv

variable {o : Orchestrator} {d d' : RunDriver} {e : Engine} {script : Script} {t : TaskId}
  {w : Worker} {call : Nat} {r : Engine × Bool}

/-! ### The first reason -/

theorem target_of_calling (h : RunInv o d e) (ht : e.tasks[t]? = some (.worker w))
    (hw : w.phase = .calling call) :
    ((e.log.get? call).map Call.target).getD default = o.target := by
  obtain ⟨hn, s, hs, -⟩ := h.links.held t call (callOf_eq_some.2 ⟨w, ht, hw⟩)
  obtain ⟨c, hget, hc, -⟩ := CallLog.get?_of_state? hn hs
  rw [hget]
  exact h.accounts.called c.target (List.mem_map_of_mem hc)

theorem verdict?_eq (h : RunInv o d e) (ht : e.tasks[t]? = some (.worker w))
    (hw : w.phase = .calling call) (reply : Reply) : e.verdict? w call reply =
      if o.config.failurePolicy = .abort then
        reply.error?.map fun error => .transportFailure o.target.display error.message else none := by
  unfold Engine.verdict?
  rw [Worker.verdict?_eq, h.crew.policy_eq ht, h.target_of_calling ht hw]

/-- A worker gives a reason to cancel only when it takes the error of its call. -/
theorem reason_worker (h : RunInv o d e) (ht : e.tasks[t]? = some (.worker w))
    (hm : Engine.WorkerMove script e t w r) :
    r.1.context.reason = e.context.reason.or (o.offer? e (.poll t)) := by
  have hnone : e.taking? t = none →
      e.context.reason = e.context.reason.or (o.offer? e (.poll t)) := by
    intro htaking
    rw [Orchestrator.offer?_of_taking? htaking, Option.or_none]
  have hverdict : ∀ {call reply}, w.phase = .calling call → w.aborted = false →
      e.log.reply? call = some reply → o.offer? e (.poll t) = e.verdict? w call reply := by
    intro call reply hw ha hr
    have htaking : e.taking? t = some reply := by
      rw [Engine.taking?_worker ht, ha, Worker.call?_eq_some.2 hw]
      exact hr
    rw [Orchestrator.offer?_poll, h.verdict?_eq ht hw, htaking]
    rfl
  cases hm with
  | rest hrest =>
    refine hnone ?_
    rcases hrest with hended | ⟨ha, call, hw, hr⟩
    · refine Engine.taking?_of_call?_eq_none ht ?_
      refine Option.eq_none_iff_forall_ne_some.2 fun call hcall => ?_
      rw [(Worker.of_calling (Worker.call?_eq_some.1 hcall)).1] at hended
      cases hended
    · rw [Engine.taking?_worker ht, ha, Worker.call?_eq_some.2 hw]
      exact hr
  | dropPlace hw ha | dropCall hw ha =>
    refine hnone ?_
    rw [Engine.taking?_worker ht, ha]
    rfl
  | quit hw | await hw | retire hw | start hw =>
    exact hnone (Engine.taking?_of_call?_eq_none ht (Worker.of_seeking hw).2.1)
  | lose hw ha hr =>
    rw [hverdict hw ha hr]
    exact Option.or_none.symm
  | answer hw ha hr | blunder hw ha hr =>
    rw [hverdict hw ha hr]
    exact Cancellation.reason_heed_eq _ _

theorem reason_step (h : RunInv o d e) (script : Script) (t : TaskId) :
    (e.step script t).1.context.reason = e.context.reason.or (o.offer? e (.poll t)) := by
  rcases h.crew.step_cases script t with ⟨ht, hstep⟩ | ⟨rfl, hm⟩ | ⟨w, ht, hm⟩
  · have htaking : e.taking? t = none := by unfold Engine.taking?; rw [ht]
    rw [hstep, Orchestrator.offer?_of_taking? htaking, Option.or_none]
  · have htaking : e.taking? 0 = none := by unfold Engine.taking?; rw [h.crew.driver]
    rw [hm.context, Orchestrator.offer?_of_taking? htaking, Option.or_none]
  · exact h.reason_worker ht hm

theorem reason_react (h : RunInv o d e) (script : Script) (event : Event) :
    (e.react script event).context.reason = e.context.reason.or (o.offer? e event) := by
  cases event with
  | poll t =>
    have hpoll := congrArg Cancellation.reason (Engine.poll_alike script e t).context
    exact hpoll.trans ((h.front t).reason_step script t)
  | reply call reply => exact Option.or_none.symm
  | cancel reason => exact Cancellation.reason_cancel_eq e.context reason
  | pause => exact Option.or_none.symm

/-- The context of a run keeps the first reason that the run is given. -/
theorem reason_play (hsize : 0 < o.size) (h : RunInv o d e) (script : Script)
    (events : List Event) : (e.play script events).context.reason =
      e.context.reason.or (o.firstReason script e events) := by
  induction events generalizing d e with
  | nil => exact Option.or_none.symm
  | cons event rest ih =>
    obtain ⟨d', h'⟩ := h.react hsize script event
    show (Engine.play script (e.react script event) rest).context.reason = _
    rw [ih h', h.reason_react script event, Option.or_assoc]
    rfl

theorem isCancelled_react (h : RunInv o d e) (script : Script) (event : Event)
    (hc : e.context.isCancelled = true) : (e.react script event).context.isCancelled = true := by
  obtain ⟨reason, hr⟩ := Cancellation.isCancelled_eq.1 hc
  refine Cancellation.isCancelled_eq.2 ⟨reason, ?_⟩
  rw [h.reason_react script event, hr]
  rfl

/-! ### Calls -/

theorem calls_worker (hm : Engine.WorkerMove script e t w r) (hc : e.context.isCancelled = true) :
    (r.1.log.since o.log).length = (e.log.since o.log).length := by
  rw [CallLog.length_since, CallLog.length_since]
  cases hm with
  | rest | dropPlace | quit | await | retire => rfl
  | dropCall | lose | answer | blunder =>
    show (e.log.set _ _).size - o.log.size = _
    rw [CallLog.size_set]
  | start _ _ hopen =>
    rw [hc] at hopen
    cases hopen

theorem calls_step (h : RunInv o d e) (script : Script) (t : TaskId)
    (hc : e.context.isCancelled = true) :
    ((e.step script t).1.log.since o.log).length = (e.log.since o.log).length := by
  rcases h.crew.step_cases script t with ⟨-, hstep⟩ | ⟨rfl, hm⟩ | ⟨w, ht, hm⟩
  · rw [hstep]
  · rw [hm.log]
  · exact calls_worker hm hc

/-- Once a run is cancelled it starts no more calls. -/
theorem calls_play (hsize : 0 < o.size) (h : RunInv o d e) (script : Script) (events : List Event)
    (hc : e.context.isCancelled = true) :
    ((e.play script events).log.since o.log).length = (e.log.since o.log).length := by
  induction events generalizing d e with
  | nil => rfl
  | cons event rest ih =>
    obtain ⟨d', h'⟩ := h.react hsize script event
    refine (ih h' (h.isCancelled_react script event hc)).trans ?_
    cases event with
    | poll t =>
      show ((e.poll script t).log.since o.log).length = _
      rw [(Engine.poll_alike script e t).log]
      exact (h.front t).calls_step script t hc
    | reply call reply =>
      show ((e.log.reply call reply).since o.log).length = _
      rw [CallLog.length_since, CallLog.length_since, CallLog.size_reply]
    | cancel | pause => rfl

/-- The step that takes an error is an answer and starts no call. -/
theorem error_worker (h : RunInv o d e) (ht : e.tasks[t]? = some (.worker w))
    (hm : Engine.WorkerMove script e t w r)
    (herror : r.1.log.countSince o.log CallState.isTransportError ≠
      e.log.countSince o.log CallState.isTransportError) :
    (r.1.log.since o.log).length = (e.log.since o.log).length ∧
      r.1.log.countSince o.log CallState.isAnswered =
        e.log.countSince o.log CallState.isAnswered + 1 := by
  have hset : ∀ {call s u}, w.phase = .calling call → e.log.state? call = some s →
      s.isInFlight = true → u.isTransportError = false →
      (e.log.set call u).countSince o.log CallState.isTransportError =
        e.log.countSince o.log CallState.isTransportError := by
    intro call s u hw hs hflight hu
    have hcount := CallLog.countSince_set (p := CallState.isTransportError) (u := u)
      (h.lt_of_calling ht hw) hs
    rwa [(CallState.of_isInFlight hflight).2.2.1, hu, Nat.add_right_cancel_iff] at hcount
  have hanswer : ∀ {call reply outcome}, w.phase = .calling call →
      e.log.reply? call = some reply → reply.outcome? = some outcome →
      ((e.log.set call (.returned reply)).since o.log).length = (e.log.since o.log).length ∧
        (e.log.set call (.returned reply)).countSince o.log CallState.isAnswered =
          e.log.countSince o.log CallState.isAnswered + 1 := by
    intro call reply outcome hw hr ho
    have hcount := CallLog.countSince_set (p := CallState.isAnswered) (u := .returned reply)
      (h.lt_of_calling ht hw) (CallLog.reply?_eq_some hr)
    rw [CallState.isAnswered_returned ho] at hcount
    refine ⟨?_, hcount⟩
    rw [CallLog.length_since, CallLog.length_since, CallLog.size_set]
  cases hm with
  | rest | dropPlace | quit | await | retire => exact absurd rfl herror
  | @dropCall call hw =>
    obtain ⟨-, s, hs, hflight⟩ := h.links.held t call (callOf_eq_some.2 ⟨w, ht, hw⟩)
    exact absurd (hset hw hs hflight rfl) herror
  | lose hw ha hr => exact absurd (hset hw (CallLog.reply?_eq_some hr) rfl rfl) herror
  | start =>
    refine absurd ?_ herror
    show (e.log.startWith _ (script (e.log.size + 1))).countSince o.log _ = _
    rw [CallLog.countSince_startWith _ _ h.accounts.before,
      (CallState.of_isInFlight (CallState.isInFlight_ofReply? _)).2.2.1]
    rfl
  | answer hw ha hr ho => exact hanswer hw hr ho
  | blunder hw ha hr ho => exact hanswer hw hr ho

theorem error_step (h : RunInv o d e) (script : Script) (t : TaskId)
    (herror : (e.step script t).1.log.countSince o.log CallState.isTransportError ≠
      e.log.countSince o.log CallState.isTransportError) :
    ((e.step script t).1.log.since o.log).length = (e.log.since o.log).length ∧
      (e.step script t).1.log.countSince o.log CallState.isAnswered =
        e.log.countSince o.log CallState.isAnswered + 1 := by
  rcases h.crew.step_cases script t with ⟨-, hstep⟩ | ⟨rfl, hm⟩ | ⟨w, ht, hm⟩
  · rw [hstep] at herror
    exact absurd rfl herror
  · rw [hm.log] at herror
    exact absurd rfl herror
  · exact h.error_worker ht hm herror

theorem error_react (h : RunInv o d e) (script : Script) (event : Event)
    (herror : (e.react script event).log.countSince o.log CallState.isTransportError ≠
      e.log.countSince o.log CallState.isTransportError) :
    ((e.react script event).log.since o.log).length = (e.log.since o.log).length ∧
      (e.react script event).log.countSince o.log CallState.isAnswered =
        e.log.countSince o.log CallState.isAnswered + 1 := by
  cases event with
  | poll t =>
    have hlog : (e.react script (.poll t)).log =
        ((e.front t).step script t).1.log :=
      (Engine.poll_alike script e t).log
    rw [hlog] at herror ⊢
    exact (h.front t).error_step script t herror
  | reply call reply => exact absurd (CallLog.countSince_reply call reply rfl) herror
  | cancel | pause => exact absurd rfl herror

theorem calls_le (h : RunInv o d e) (hf : d.stage.hasFailed = false) :
    (e.log.since o.log).length ≤ e.log.countSince o.log CallState.isAnswered + o.size := by
  have hcalls := CallLog.length_since_eq e.log o.log
  have habandoned := h.stages.abandoned hf
  have hcalling := h.links.calling
  have hlost := h.links.lost
  have hworkers := h.crew.countWorkers_add_le (p := Worker.isLost) (q := Worker.isCalling)
    fun _ => Worker.isCalling_eq_false
  omega

theorem hasFailed_of_not_cancelled (h : RunInv o d e) (hc : e.context.isCancelled = false) :
    d.stage.hasFailed = false := by
  rw [Bool.eq_false_iff]
  intro hf
  obtain ⟨error, hs⟩ := Stage.exists_of_hasFailed hf
  obtain ⟨reason, hr, -⟩ := h.stages.failed _ hs
  rw [Cancellation.isCancelled, hr] at hc
  cases hc

theorem calls_le_step (h : RunInv o d e) (script : Script) (t : TaskId)
    (hle : (e.log.since o.log).length ≤ e.log.countSince o.log CallState.isAnswered + o.size) :
    ((e.step script t).1.log.since o.log).length ≤
      (e.step script t).1.log.countSince o.log CallState.isAnswered + o.size := by
  by_cases hc : e.context.isCancelled = true
  · have hcalls := h.calls_step script t hc
    have hanswered := (h.step_counts script t).2
    omega
  · have hf := h.hasFailed_of_not_cancelled (Bool.eq_false_iff.2 hc)
    rcases h.crew.step_cases script t with ⟨-, hstep⟩ | ⟨rfl, hm⟩ | ⟨w, ht, hm⟩
    · rw [hstep]
      exact hle
    · rw [hm.log]
      exact hle
    · exact (h.worker ht hm).calls_le hf

end RunInv

/-- No worker ever has more than one call that is not answered. -/
theorem calls_le_play {o : Orchestrator} (hsize : 0 < o.size) (script : Script)
    (events : List Event) : ((o.launch.play script events).log.since o.log).length ≤
      (o.launch.play script events).log.countSince o.log CallState.isAnswered + o.size := by
  refine (Engine.play_induction (P := fun e => (∃ d, RunInv o d e) ∧ (e.log.since o.log).length ≤
    e.log.countSince o.log CallState.isAnswered + o.size) ⟨⟨_, .launch o⟩, ?_⟩ ?_ events).2
  · have hstart : o.launch.log.since o.log = [] := CallLog.since_self o.log
    rw [hstart]
    exact Nat.zero_le _
  · rintro e event ⟨⟨d, h⟩, hle⟩
    refine ⟨h.react hsize script event, ?_⟩
    cases event with
    | poll t =>
      show ((e.poll script t).log.since o.log).length ≤
        (e.poll script t).log.countSince o.log CallState.isAnswered + o.size
      rw [(Engine.poll_alike script e t).log]
      exact (h.front t).calls_le_step script t hle
    | reply call reply =>
      show ((e.log.reply call reply).since o.log).length ≤
        (e.log.reply call reply).countSince o.log CallState.isAnswered + o.size
      rw [CallLog.countSince_reply call reply rfl, CallLog.length_since, CallLog.size_reply,
        ← CallLog.length_since]
      exact hle
    | cancel | pause => exact hle

end LoadGenerator
