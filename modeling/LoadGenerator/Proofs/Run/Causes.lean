import LoadGenerator.Proofs.Engine.Rest
import LoadGenerator.Proofs.Run.Verdict

/-!
# Why a run is cancelled

Where nobody cancels from outside, a run is cancelled only by a worker that has taken the error of a
call of the run under `FailurePolicy.abort` (`RunInv.caused_react`): the reply that it has taken
stays in the log. A run that is cancelled before it starts is `Forestalled`: it starts no call, and
fails for the reason that it was given as soon as its driver has made two steps, so it does not
outlast its first turn (`Forestalled.settle`).
-/

namespace LoadGenerator

namespace Orchestrator

/-- A worker has taken the error of a call of the present run of `o`, and cancels the run for it. -/
def FailedFast (o : Orchestrator) (log : CallLog) (reason : CancelReason) : Prop :=
  o.config.failurePolicy = .abort ∧ ∃ call error, o.log.size < call ∧
    log.state? call = some (.returned (.failure error)) ∧
    reason = .transportFailure o.target.display error.message

/-- What a run is cancelled for is one of the given reasons or the verdict of a worker. -/
def Caused (o : Orchestrator) (given : CancelReason → Prop) (e : Engine) : Prop :=
  ∀ reason, e.context.reason = some reason → given reason ∨ o.FailedFast e.log reason

end Orchestrator

namespace Engine

theorem prefix_foldl_enqueue (line calls : List TaskId) : line <+: calls.foldl enqueue line := by
  induction calls generalizing line with
  | nil => exact List.prefix_rfl
  | cons t rest ih =>
    refine List.IsPrefix.trans ?_ (ih (enqueue line t))
    unfold enqueue
    split
    · exact List.prefix_rfl
    · exact List.prefix_append _ _

/-- Nobody who is in line loses their place when others are called back. -/
theorem prefix_callBack (e : Engine) : e.ready <+: e.callBack.ready :=
  prefix_foldl_enqueue _ _

theorem run_succ {e : Engine} {t : TaskId} {rest : List TaskId} (script : Script) (fuel : Nat)
    (h : e.ready = t :: rest) : e.run script (fuel + 1) = (e.poll script t).run script fuel := by
  have htick : e.tick script = e.poll script t := tick_eq_poll h
  rw [run, htick, h]
  rfl

theorem two_le_stepsLeft (e : Engine) : 2 ≤ e.stepsLeft := by
  unfold stepsLeft
  simp only
  generalize 4 * _ + _ = moves
  have hmul : e.total tasksToCome + 2 ≤ (moves + 1) * (e.total tasksToCome + 2) :=
    Nat.le_mul_of_pos_left _ (Nat.succ_pos moves)
  omega

/-- Who takes an error in the next step is a worker whose call has failed. -/
theorem of_failing? {e : Engine} {t : TaskId} {error : TransportError}
    (h : e.failing? t = some error) : ∃ w call, e.tasks[t]? = some (.worker w) ∧
      w.aborted = false ∧ w.phase = .calling call ∧ e.log.reply? call = some (.failure error) := by
  obtain ⟨reply, htaking, herror⟩ := Option.bind_eq_some_iff.1 h
  have hreply : reply = .failure error := by
    cases reply with
    | response | breakdown => cases herror
    | failure => cases herror; rfl
  subst hreply
  unfold taking? at htaking
  split at htaking
  · rename_i w ht
    split at htaking
    · cases htaking
    · obtain ⟨call, hcall, hreply⟩ := Option.bind_eq_some_iff.1 htaking
      exact ⟨w, call, ht, Bool.eq_false_iff.2 ‹_›, Worker.call?_eq_some.1 hcall, hreply⟩
  · cases htaking

end Engine

namespace RunInv

variable {o : Orchestrator} {d : RunDriver} {e : Engine} {script : Script} {t : TaskId}
  {w : Worker} {n : Nat} {reply : Reply} {reason : CancelReason} {r : Engine × Bool}

/-! ### Replies that have been taken -/

theorem returned_worker (h : RunInv o d e) (ht : e.tasks[t]? = some (.worker w))
    (hm : Engine.WorkerMove script e t w r) (hs : e.log.state? n = some (.returned reply)) :
    r.1.log.state? n = some (.returned reply) := by
  have hset : ∀ {call u}, w.phase = .calling call →
      (e.log.set call u).state? n = some (.returned reply) := by
    intro call u hw
    obtain ⟨-, s, hcall, hflight⟩ := h.links.held t call (callOf_eq_some.2 ⟨w, ht, hw⟩)
    have hne : n ≠ call := by
      rintro rfl
      rw [hs] at hcall
      cases hcall
      cases hflight
    rw [CallLog.state?_set_of_ne hne, hs]
  cases hm with
  | rest | dropPlace | quit | await | retire => exact hs
  | dropCall hw | lose hw | answer hw | blunder hw => exact hset hw
  | start => exact (CallLog.state?_startWith_of_le _ (CallLog.le_size_of_state? hs)).trans hs

theorem returned_react (h : RunInv o d e) (script : Script) (event : Event)
    (hs : e.log.state? n = some (.returned reply)) :
    (e.react script event).log.state? n = some (.returned reply) := by
  cases event with
  | poll t =>
    show (e.poll script t).log.state? n = _
    rw [(Engine.poll_alike script e t).log]
    rcases (h.front t).crew.step_cases script t with ⟨-, hstep⟩ | ⟨rfl, hm⟩ | ⟨w, ht, hm⟩
    · rw [hstep]
      exact hs
    · rw [hm.log]
      exact hs
    · exact (h.front t).returned_worker ht hm hs
  | reply call r => exact CallLog.state?_reply_of_returned call r hs
  | cancel | pause => exact hs

/-- A worker that can take an error has taken it after its next step. -/
theorem returned_of_failing {error : TransportError} (hm : Engine.WorkerMove script e t w r)
    (ha : w.aborted = false) (hphase : w.phase = .calling n)
    (hreply : e.log.reply? n = some (.failure error)) :
    r.1.log.state? n = some (.returned (.failure error)) := by
  have hset := CallLog.state?_set_self (u := .returned (.failure error))
    (CallLog.reply?_eq_some hreply)
  cases hm with
  | rest hrest =>
    rcases hrest with hended | ⟨-, call, hw, hnone⟩
    · rw [(Worker.of_calling hphase).1] at hended
      cases hended
    · rw [hphase] at hw
      cases hw
      rw [hreply] at hnone
      cases hnone
  | dropPlace _ hab | dropCall _ hab =>
    rw [ha] at hab
    cases hab
  | quit hw | await hw | retire hw | start hw =>
    rw [hphase] at hw
    cases hw
  | lose hw _ hr =>
    rw [hphase] at hw
    cases hw
    rw [hreply] at hr
    cases hr
  | answer hw _ hr | blunder hw _ hr =>
    rw [hphase] at hw
    cases hw
    rw [hreply] at hr
    cases hr
    exact hset

theorem failedFast_of_offer (h : RunInv o d e) (script : Script)
    (ho : o.offer? e (.poll t) = some reason) : o.FailedFast (e.poll script t).log reason := by
  unfold Orchestrator.offer? at ho
  simp only at ho
  split at ho
  · rename_i hpolicy
    obtain ⟨error, hf, rfl⟩ := Option.map_eq_some_iff.1 ho
    obtain ⟨w, call, ht, ha, hphase, hreply⟩ := Engine.of_failing? hf
    refine ⟨hpolicy, call, error, h.lt_of_calling ht hphase, ?_, rfl⟩
    rw [(Engine.poll_alike script e t).log]
    have hfront : (e.front t).tasks[t]? = some (.worker w) := ht
    rcases (h.front t).crew.step_cases script t with ⟨hnone, -⟩ | ⟨rfl, -⟩ | ⟨v, hv, hm⟩
    · rw [hfront] at hnone
      cases hnone
    · rw [(h.front 0).crew.driver] at hfront
      cases hfront
    · rw [hfront] at hv
      cases hv
      exact returned_of_failing hm ha hphase hreply
  · cases ho

theorem failedFast_react (h : RunInv o d e) (script : Script) (event : Event)
    (hf : o.FailedFast e.log reason) : o.FailedFast (e.react script event).log reason := by
  obtain ⟨hpolicy, call, error, hlt, hstate, hreason⟩ := hf
  exact ⟨hpolicy, call, error, hlt, h.returned_react script event hstate, hreason⟩

/-- An event brings no cause but the verdict of a worker, or its own reason if it is a
cancellation. -/
theorem caused_react {given : CancelReason → Prop} (h : RunInv o d e) (hcaused : o.Caused given e)
    (script : Script) {event : Event} (hgiven : ∀ reason, event = .cancel reason → given reason) :
    o.Caused given (e.react script event) := by
  intro reason hr
  rw [h.reason_react script event] at hr
  cases hold : e.context.reason with
  | some first =>
    rw [hold, Option.some_or] at hr
    cases hr
    exact (hcaused _ hold).imp_right (h.failedFast_react script event)
  | none =>
    rw [hold, Option.none_or] at hr
    cases event with
    | poll t => exact .inr (h.failedFast_of_offer script hr)
    | reply | pause => cases hr
    | cancel reason =>
      cases hr
      exact .inl (hgiven _ rfl)

theorem caused_calmly {given : CancelReason → Prop} {e' : Engine} (hsize : 0 < o.size)
    (h : RunInv o d e) (hcaused : o.Caused given e) (hcalm : e.Calmly script e') :
    (∃ d', RunInv o d' e') ∧ o.Caused given e' := by
  refine hcalm.induction (P := fun e => (∃ d, RunInv o d e) ∧ o.Caused given e)
    ⟨⟨d, h⟩, hcaused⟩ ?_
  rintro e event hevent ⟨⟨d, h⟩, hcaused⟩
  exact ⟨h.react hsize script event,
    h.caused_react hcaused script fun reason he => absurd he (hevent reason)⟩

/-! ### Runs that are over -/

/-- A run that is over stays so. -/
theorem runEnd?_react {how : RunEnd} (h : RunInv o d e) (script : Script)
    (hrun : Orchestrator.runEnd? e = some how) (event : Event) :
    Orchestrator.runEnd? (e.react script event) = some how := by
  cases event with
  | poll t =>
    have hover := h.runEnd?_eq_some.1 hrun
    have htask : (e.poll script t).tasks[0]? = some (.driver d) := by
      rw [(Engine.poll_alike script e t).tasks]
      rcases (h.front t).crew.step_cases script t with ⟨-, hstep⟩ | ⟨rfl, hm⟩ | ⟨w, ht, hm⟩
      · rw [hstep]
        exact h.crew.driver
      · rw [hm.eq_of_over hover]
        exact h.crew.driver
      · obtain ⟨-, -, -, -, hothers⟩ := hm.frame ht
        rw [hothers 0 (Nat.ne_of_lt ((h.front t).crew.pos_of_worker ht))]
        exact h.crew.driver
    show Orchestrator.runEnd? (e.poll script t) = some how
    unfold Orchestrator.runEnd?
    rw [List.head?_eq_getElem?, htask]
    simp only [hover]
  | reply | cancel | pause => exact hrun

theorem runEnd?_play {how : RunEnd} (hsize : 0 < o.size) (h : RunInv o d e) (script : Script)
    (hrun : Orchestrator.runEnd? e = some how) (events : List Event) :
    Orchestrator.runEnd? (e.play script events) = some how := by
  refine (Engine.play_induction
    (P := fun e => (∃ d, RunInv o d e) ∧ Orchestrator.runEnd? e = some how)
    ⟨⟨d, h⟩, hrun⟩ ?_ events).2
  rintro e event ⟨⟨d, h⟩, hrun⟩
  exact ⟨h.react hsize script event, h.runEnd?_react script hrun event⟩

/-- The driver of a cancelled run that has not put everything gives up. -/
theorem runEnd?_poll (h : RunInv o d e) (script : Script)
    (hs : d.stage = .submitting ∨ d.stage = .draining) (hr : e.context.reason = some reason) :
    Orchestrator.runEnd? (e.poll script 0) = some (.failed (.ofReason reason)) := by
  have hfront : (e.front 0).tasks[0]? = some (.driver d) := h.crew.driver
  have hreason : (e.front 0).context.reason = some reason := hr
  have hstep : (e.front 0).step script 0 = ((e.front 0).giveUp 0 d (.ofReason reason), false) := by
    rw [Engine.step, hfront]
    rcases hs with hs | hs <;> simp only [Engine.stepDriver, hs, hreason]
  unfold Orchestrator.runEnd?
  rw [(Engine.poll_alike script e 0).tasks, hstep, List.head?_eq_getElem?,
    Engine.task_giveUp hfront]

/-- A driver that has started the workers may go on at once. -/
theorem poll_starting (hsize : 0 < o.size) (h : RunInv o d e) (script : Script)
    (hs : d.stage = .starting) : (∃ d', RunInv o d' (e.poll script 0) ∧ d'.stage = .submitting) ∧
      ∃ rest, (e.poll script 0).ready = 0 :: rest := by
  have hfront : (e.front 0).tasks[0]? = some (.driver d) := h.crew.driver
  have hne : d.size ≠ 0 := by
    rw [h.crew.size]
    exact Nat.ne_of_gt hsize
  have hstep : (e.front 0).step script 0 = (((e.front 0).setTask 0 (.driver { d with
      members := (e.front 0).nextIds d.size, stage := .submitting })).spawnAll
        (Engine.poolWorkers d.size d.policy), true) := by
    rw [Engine.step, hfront]
    simp only [Engine.stepDriver, hs, if_neg hne]
  have htasks := (Engine.poll_alike script e 0).tasks
  have hready := congrArg Engine.ready (Engine.poll_eq script e 0)
  rw [hstep, Engine.spawnAll_eq] at htasks hready
  constructor
  · obtain ⟨d', hinv⟩ := h.react hsize script (.poll 0)
    refine ⟨d', hinv, ?_⟩
    have hdriver : (e.poll script 0).tasks[0]? = some (.driver d') := hinv.crew.driver
    have hlt : 0 < ((e.front 0).tasks.set 0 (.driver { d with
        members := (e.front 0).nextIds d.size, stage := .submitting })).length := by
      rw [List.length_set]
      exact (List.getElem?_eq_some_iff.1 hfront).1
    rw [htasks] at hdriver
    have hset := eq_of_getElem?_set ((List.getElem?_append_left hlt).symm.trans hdriver)
    rw [Task.driver.inj hset]
  · rw [if_pos rfl] at hready
    obtain ⟨rest, hrest⟩ := Engine.prefix_callBack _
    rw [hready, ← hrest]
    exact ⟨_, rfl⟩

end RunInv

/-! ### Runs that are cancelled before they start -/

/-- The run has been cancelled before it started, and is not over or has failed. -/
structure Forestalled (o : Orchestrator) (reason : CancelReason) (e : Engine) : Prop where
  inv : ∃ d, RunInv o d e ∧ d.stage.allDone = false
  reason : e.context.reason = some reason
  calls : e.log.size = o.log.size

namespace Forestalled

variable {o : Orchestrator} {e : Engine} {reason : CancelReason}

theorem launch (hr : o.current.reason = some reason) : Forestalled o reason o.launch :=
  ⟨⟨_, RunInv.launch o, rfl⟩, hr, rfl⟩

theorem react (hsize : 0 < o.size) (h : Forestalled o reason e) (script : Script) (event : Event) :
    Forestalled o reason (e.react script event) := by
  obtain ⟨⟨d, hinv, hopen⟩, hr, hcalls⟩ := h
  have hc : e.context.isCancelled = true := Cancellation.isCancelled_eq.2 ⟨reason, hr⟩
  obtain ⟨d', hinv'⟩ := hinv.react hsize script event
  refine ⟨⟨d', hinv', ?_⟩, ?_, ?_⟩
  · rw [Bool.eq_false_iff]
    intro hdone
    rcases (hinv.allDone_react script event hinv').1 hdone with hd | ⟨-, -, hnot⟩
    · rw [hopen] at hd
      cases hd
    · rw [hc] at hnot
      cases hnot
  · rw [hinv.reason_react script event, hr]
    rfl
  · have hplay := hinv.calls_play hsize script [event] hc
    have hbefore := hinv'.accounts.before
    rw [CallLog.length_since, CallLog.length_since, hcalls] at hplay
    change (e.react script event).log.size - o.log.size = _ at hplay
    omega

theorem runEnd? (h : Forestalled o reason e) {how : RunEnd}
    (hrun : Orchestrator.runEnd? e = some how) : how = .failed (.ofReason reason) := by
  obtain ⟨⟨d, hinv, hopen⟩, hr, -⟩ := h
  obtain ⟨error, rfl⟩ := (hinv.failed_iff hrun).2 hopen
  obtain ⟨first, hfirst, rfl⟩ := hinv.stages.failed error (hinv.runEnd?_eq_some.1 hrun)
  rw [hr] at hfirst
  cases hfirst
  rfl

/-- Two steps of the driver end the run, whatever has happened in between. -/
theorem poll_poll (hsize : 0 < o.size) (h : Forestalled o reason e) (script : Script)
    (hpoll : Orchestrator.runEnd? (e.poll script 0) = none) :
    ∃ how, Orchestrator.runEnd? ((e.poll script 0).poll script 0) = some how := by
  have hr' := (h.react hsize script (.poll 0)).reason
  obtain ⟨⟨d, hinv, hopen⟩, hr, -⟩ := h
  have hgivesUp : d.stage ≠ .submitting ∧ d.stage ≠ .draining := by
    constructor
    all_goals
      intro hs
      rw [hinv.runEnd?_poll script (by simp [hs]) hr] at hpoll
      cases hpoll
  match hs : d.stage with
  | .starting =>
    obtain ⟨⟨d', hinv', hs'⟩, -⟩ := hinv.poll_starting hsize script hs
    exact ⟨_, hinv'.runEnd?_poll script (.inl hs') hr'⟩
  | .submitting => exact absurd hs hgivesUp.1
  | .draining => exact absurd hs hgivesUp.2
  | .closing | .stopping =>
    rw [hs] at hopen
    cases hopen
  | .over how =>
    have hover := hinv.runEnd?_react script (hinv.runEnd?_eq_some.2 hs) (.poll 0)
    change Orchestrator.runEnd? (e.poll script 0) = some how at hover
    rw [hpoll] at hover
    cases hover

/-- A run that has been cancelled before it starts does not outlast its first turn. -/
theorem settle (hsize : 0 < o.size) (hr : o.current.reason = some reason) (script : Script) :
    Orchestrator.runEnd? (o.launch.settle script) = some (.failed (.ofReason reason)) := by
  obtain ⟨fuel, hfuel⟩ := Nat.exists_eq_add_of_le' (Engine.two_le_stepsLeft o.launch)
  have hinv : RunInv o _ (o.launch.react script .pause) :=
    (RunInv.launch o).alike ⟨rfl, rfl, rfl, rfl, rfl⟩
  obtain ⟨⟨d', hinv', hs'⟩, rest, hready⟩ := hinv.poll_starting hsize script rfl
  have hr' := (((launch hr).react hsize script .pause).react hsize script (.poll 0)).reason
  have hover := hinv'.runEnd?_poll script (.inl hs') hr'
  obtain ⟨d'', hinv''⟩ := hinv'.react hsize script (.poll 0)
  have hrun : o.launch.settle script =
      (((o.launch.react script .pause).poll script 0).poll script 0).run script fuel := by
    have hfirst : (o.launch.react script .pause).ready = [0] := rfl
    show (o.launch.react script .pause).run script o.launch.stepsLeft = _
    rw [hfuel, Engine.run_succ script (fuel + 1) hfirst, Engine.run_succ script fuel hready]
  obtain ⟨events, -, hplay⟩ := Engine.calmly_run script fuel
    (((o.launch.react script .pause).poll script 0).poll script 0)
  rw [hrun, hplay]
  exact hinv''.runEnd?_play hsize script hover events

end Forestalled

end LoadGenerator
