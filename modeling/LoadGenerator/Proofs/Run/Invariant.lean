import LoadGenerator.Proofs.Run.Counts
import LoadGenerator.Proofs.Run.Stages

/-!
# The invariant of a run

`RunInv` puts together who works in a run (`Crew`), where its items are (`Accounts`, `Links`), what
its tallies say (`Counts`) and what its stage promises (`Stages`, `Endings`). Every move of a worker
keeps it (`RunInv.worker`), every move of the driver keeps it for the driver as it is afterwards
(`RunInv.driver`), and the line plays no part in it; so it holds after every history of a run
(`exists_runInv`).
-/

namespace LoadGenerator

/-- The engine `e` is in a run of `o`, and the driver of the run is `d`. -/
structure RunInv (o : Orchestrator) (d : RunDriver) (e : Engine) : Prop where
  crew : Crew o d e.tasks
  accounts : Accounts o d.source.remaining e.queue e.log
  links : Links o.log e.log e.tasks
  counts : Counts o.log e.log e.counter e.tasks
  stages : Stages o.config.failurePolicy o.log d.stage d.source.remaining e.queue e.context e.log
  endings : Endings d.stage e.context.isCancelled e.queue.closed e.tasks
  report : ∀ counts shares, d.stage = .over (.completed counts shares) →
    counts = e.counter.snapshot ∧ shares = e.shares d.members

namespace RunInv

variable {o : Orchestrator} {d : RunDriver} {e : Engine} {t : TaskId} {w : Worker} {call : Nat}
  {script : Script}

theorem total_lt (o : Orchestrator) : o.total < UInt64.size :=
  UInt64.toNat_lt_size _

theorem launch (o : Orchestrator) :
    RunInv o ⟨o.size, o.config.failurePolicy, ⟨o.target, o.total⟩, [], .starting⟩ o.launch := by
  refine ⟨⟨rfl, fun t task ht htask => ?_, rfl, rfl, rfl, .inl ⟨rfl, rfl⟩⟩, .start o, .start o.log _,
    .start o.log _, .start _ _ _ _ _, .start _ _ _ _, fun _ _ h => by cases h⟩
  cases t with
  | zero => exact absurd ht (Nat.lt_irrefl 0)
  | succ t => cases htask

theorem runEnd?_eq_some (h : RunInv o d e) {how : RunEnd} :
    Orchestrator.runEnd? e = some how ↔ d.stage = .over how := by
  unfold Orchestrator.runEnd?
  rw [List.head?_eq_getElem?, h.crew.driver]
  simp only
  cases d.stage <;> simp

theorem hasFailed_eq_false (h : RunInv o d e) (hrun : Orchestrator.runEnd? e = none) :
    d.stage.hasFailed = false := by
  rw [Bool.eq_false_iff]
  intro hf
  obtain ⟨error, hs⟩ := Stage.exists_of_hasFailed hf
  rw [h.runEnd?_eq_some.2 hs] at hrun
  cases hrun

/-! ### A worker makes a move -/

theorem not_completed (h : RunInv o d e) (ht : e.tasks[t]? = some (.worker w))
    (hlive : w.hasEnded = false) {counts : Snapshot} {shares : List WorkerStats} :
    d.stage ≠ .over (.completed counts shares) := by
  intro hs
  have := h.endings.completed counts shares t w hs ht
  rw [hlive] at this
  cases this

/-- The call that a worker waits for was made in this run. -/
theorem lt_of_calling (h : RunInv o d e) (ht : e.tasks[t]? = some (.worker w))
    (hw : w.phase = .calling call) : o.log.size < call :=
  (h.links.held t call (callOf_eq_some.2 ⟨w, ht, hw⟩)).1

theorem verdict?_isSome {reply : Reply} (h : RunInv o d e) (ht : e.tasks[t]? = some (.worker w))
    (hp : o.config.failurePolicy = .abort)
    (hr : CallState.isTransportError (.returned reply) = true) :
    (e.verdict? w call reply).isSome = true := by
  have hpolicy := (h.crew.policy_eq ht).trans hp
  cases reply with
  | response | breakdown => cases hr
  | failure error => simp [Engine.verdict?, Worker.verdict?, hpolicy]

theorem answer {reply : Reply} {outcome : Outcome} {queue : WorkQueue WorkItem}
    (h : RunInv o d e) (ht : e.tasks[t]? = some (.worker w)) (hw : w.phase = .calling call)
    (hr : e.log.reply? call = some reply) (ho : reply.outcome? = some outcome)
    (hq : e.queue.markDone = .ok queue) :
    RunInv o d (({ e with
      queue
      counter := e.counter.record outcome
      context := e.context.heed (e.verdict? w call reply)
      log := e.log.set call (.returned reply) }).setTask t
        (.worker (w.afterItem outcome (e.verdict? w call reply)))) := by
  have hlive := (Worker.of_calling hw).1
  have hn := h.lt_of_calling ht hw
  have hs := CallLog.reply?_eq_some hr
  have hclosed := (WorkQueue.Dealing.markDone hq t).closed
  have hroom : e.log.countSince o.log CallState.isAnswered + 1 < UInt64.size := by
    have hout := h.accounts.outstanding
    have hmark := (WorkQueue.markDone_ok hq).2
    have hlt := total_lt o
    omega
  generalize hv : e.verdict? w call reply = verdict
  have hcall := w.call?_afterItem outcome verdict
  have hlost := Worker.isLost_afterItem (w := w) ho verdict
  have hstats := w.get_stats_afterItem outcome verdict
  refine ⟨h.crew.setWorker ht (by cases verdict <;> rfl),
    h.accounts.answer hn hs rfl (CallState.isAnswered_returned ho) hq,
    h.links.release ht hw hcall rfl hlost, h.counts.answer hroom hn hs rfl ht ho hstats,
    h.stages.answer hn hs rfl hq verdict fun hp hr => hv ▸ h.verdict?_isSome ht hp hr,
    (h.endings.mono (fun hc => Cancellation.isCancelled_heed hc verdict)
      (fun hc => hclosed.trans hc)).setWorker ht hlive (by cases verdict <;> rfl) ?_,
    fun _ _ hover => absurd hover (h.not_completed ht hlive)⟩
  intro how hhow
  cases verdict with
  | none => cases hhow
  | some reason =>
    cases hhow
    exact .inl ⟨rfl, .inl (Cancellation.isCancelled_cancel _ reason)⟩

/-- A worker that waits for no call ends, and gives its place at the queue back. -/
theorem finish {v : Worker} {how : Ending} {queue : WorkQueue WorkItem} (h : RunInv o d e)
    (ht : e.tasks[t]? = some (.worker w)) (hw : w.phase = .seeking) (hpolicy : v.policy = w.policy)
    (haborted : v.aborted = w.aborted) (hstats : ∀ x, v.stats.get x = w.stats.get x)
    (hd : e.queue.Dealing t queue) (hb : queue.buffer = e.queue.buffer)
    (hout : queue.outstanding = e.queue.outstanding) (hlost : how ≠ .panicked)
    (hdue : how.Due v e.context.isCancelled e.queue.closed) :
    RunInv o d (({ e with queue }).setTask t (.worker (v.finish how))) := by
  obtain ⟨hlive, hcall, hnot⟩ := Worker.of_seeking hw
  have hlost' : (v.finish how).isLost = w.isLost := by
    rw [hnot]
    exact beq_eq_false_iff_ne.2 fun hp => hlost (Phase.ended.inj hp)
  have hstats' : ∀ x, (v.finish how).stats.get x = w.stats.get x := fun x =>
    (WorkerStats.get_stop v.stats 0 x).trans (hstats x)
  have haborted' : (v.finish how).aborted = w.aborted := haborted
  refine ⟨h.crew.setWorker ht hpolicy, h.accounts.deal hd hb hout,
    h.links.rest ht hcall.symm hlost', h.counts.rest ht hstats', h.stages.deal hd hout,
    (h.endings.setWorker ht hlive haborted' ?_).mono id fun hc => hd.closed.trans hc,
    fun _ _ hover => absurd hover (h.not_completed ht hlive)⟩
  rintro _ ⟨⟩
  exact hdue

theorem worker {r : Engine × Bool} (h : RunInv o d e) (ht : e.tasks[t]? = some (.worker w))
    (hm : Engine.WorkerMove script e t w r) : RunInv o d r.1 := by
  cases hm with
  | rest => exact h
  | dropPlace hw ha =>
    obtain ⟨hd, hb, hout⟩ := WorkQueue.leave_dealing e.queue t
    exact h.finish ht hw rfl rfl (fun _ => rfl) hd hb hout (by simp) (.inr (.inr ⟨rfl, ha⟩))
  | @dropCall call hw ha =>
    have hlive := (Worker.of_calling hw).1
    obtain ⟨hn, s, hs, hflight⟩ := h.links.held t call (callOf_eq_some.2 ⟨w, ht, hw⟩)
    refine ⟨h.crew.setWorker ht rfl, h.accounts.drop hn hs hflight rfl,
      h.links.release ht hw rfl rfl rfl,
      (h.counts.drop hn hs hflight rfl).rest ht fun x => WorkerStats.get_stop _ 0 x,
      h.stages.drop hn hs hflight rfl (.inl (h.endings.aborted t w ht ha)),
      h.endings.setWorker ht hlive rfl ?_,
      fun _ _ hover => absurd hover (h.not_completed ht hlive)⟩
    rintro how ⟨⟩
    exact .inr (.inr ⟨rfl, ha⟩)
  | quit hw ha hc =>
    obtain ⟨hd, hb, hout⟩ := WorkQueue.leave_dealing e.queue t
    exact h.finish ht hw rfl rfl (fun x => WorkerStats.get_start _ 0 x) hd hb hout (by simp)
      (.inl ⟨rfl, .inl hc⟩)
  | await hw ha hc hq =>
    obtain ⟨hd, hb, hout, -⟩ := WorkQueue.get_waiting hq
    exact ⟨h.crew, h.accounts.deal hd hb hout, h.links, h.counts, h.stages.deal hd hout,
      h.endings.mono id fun hc => hd.closed.trans hc, h.report⟩
  | retire hw ha hc hq =>
    obtain ⟨hd, hb, hout, hclosed, -⟩ := WorkQueue.get_none hq
    exact h.finish ht hw rfl rfl (fun x => WorkerStats.get_start _ 0 x) hd hb hout (by simp)
      (.inl ⟨rfl, .inr hclosed⟩)
  | start hw ha hc hq =>
    have hlive := (Worker.of_seeking hw).1
    have hbefore := h.accounts.before
    obtain ⟨hd, hb, hout⟩ := WorkQueue.get_some hq
    refine ⟨h.crew.setWorker ht rfl, h.accounts.take hq _, h.links.take hbefore ht hw rfl _,
      (h.counts.take hbefore _ _).rest ht fun x => WorkerStats.get_start _ 0 x,
      (h.stages.take hbefore _ _).deal hd hout,
      (h.endings.mono id fun hc => hd.closed.trans hc).setWorker ht hlive rfl ?_,
      fun _ _ hover => absurd hover (h.not_completed ht hlive)⟩
    rintro how ⟨⟩
  | lose hw ha hr =>
    have hlive := (Worker.of_calling hw).1
    have hn := h.lt_of_calling ht hw
    have hs := CallLog.reply?_eq_some hr
    refine ⟨h.crew.setWorker ht rfl, h.accounts.drop hn hs rfl rfl,
      h.links.release ht hw rfl rfl rfl,
      (h.counts.drop hn hs rfl rfl).rest ht fun x => WorkerStats.get_stop _ 0 x,
      h.stages.drop hn hs rfl rfl (.inr rfl), h.endings.setWorker ht hlive rfl ?_,
      fun _ _ hover => absurd hover (h.not_completed ht hlive)⟩
    rintro how ⟨⟩
    exact .inr (.inl rfl)
  | answer hw ha hr ho hq => exact h.answer ht hw hr ho hq
  | blunder hw ha hr ho hq =>
    -- the item of a call in flight is outstanding
    obtain ⟨queue, hok⟩ := h.accounts.markDone_ok (h.lt_of_calling ht hw)
      (CallLog.reply?_eq_some hr) rfl
    rw [hq] at hok
    cases hok

/-! ### The driver makes a move -/

theorem shares_setDriver {d' : RunDriver} (h : e.tasks[0]? = some (.driver d))
    (members : List TaskId) : (e.setTask 0 (.driver d')).shares members = e.shares members := by
  have hworker : ∀ t, (e.setTask 0 (.driver d')).worker? t = e.worker? t := by
    intro t
    unfold Engine.worker?
    rw [Engine.setTask, getElem?_set_task h]
    by_cases ht : t = 0
    · subst ht
      rw [if_pos rfl, h]
    · rw [if_neg ht]
  unfold Engine.shares
  rw [funext hworker]

/-- The driver goes on to another stage or has put an item. -/
theorem advance {d' : RunDriver} {q' : WorkQueue WorkItem} (h : RunInv o d e)
    (hsize : d'.size = d.size) (hpolicy : d'.policy = d.policy)
    (htarget : d'.source.target = d.source.target) (hmembers : d'.members = d.members)
    (hstart : d.stage ≠ .starting) (hstart' : d'.stage ≠ .starting)
    (hfailed : d.stage.hasFailed = false)
    (haccounts : Accounts o d'.source.remaining q' e.log)
    (hclosed : e.queue.closed = true → q'.closed = true)
    (hstages : Stages o.config.failurePolicy o.log d'.stage d'.source.remaining q' e.context e.log)
    (hcompleted : ∀ counts shares, d'.stage = .over (.completed counts shares) →
      e.allEnded d.members = true ∧ counts = e.counter.snapshot ∧ shares = e.shares d.members) :
    RunInv o d' (({ e with queue := q' }).setTask 0 (.driver d')) := by
  have hdriver := h.crew.driver
  refine ⟨h.crew.setDriver hsize hpolicy htarget hmembers hstart hstart', haccounts,
    h.links.setDriver hdriver, h.counts.setDriver hdriver, hstages,
    (h.endings.mono id hclosed).setDriver hdriver (fun hf => ?_) fun counts shares hs t w ht => ?_,
    fun counts shares hs => ?_⟩
  · rw [hfailed] at hf
    cases hf
  · have hmember := (h.crew.mem_members hstart).2 ⟨w, ht⟩
    have hw := List.all_eq_true.1 (hcompleted counts shares hs).1 t hmember
    rw [Engine.worker?_eq_some.2 ht] at hw
    exact hw
  · obtain ⟨-, hcounts, hshares⟩ := hcompleted counts shares hs
    rw [hmembers]
    exact ⟨hcounts, hshares.trans (shares_setDriver hdriver d.members).symm⟩

theorem giveUp {reason : CancelReason} (h : RunInv o d e)
    (hs : d.stage = .submitting ∨ d.stage = .draining) (hr : e.context.reason = some reason) :
    RunInv o { d with stage := .over (.failed (.ofReason reason)) }
      (e.giveUp 0 d (.ofReason reason)) := by
  have hstart : d.stage ≠ .starting := by
    rcases hs with hs | hs <;> rw [hs] <;> simp
  have hfailed : d.stage.hasFailed = false := by
    rcases hs with hs | hs <;> rw [hs] <;> rfl
  unfold Engine.giveUp
  rw [Engine.abortAll_eq]
  refine ⟨Crew.abortAll (h.crew.setDriver rfl rfl rfl rfl hstart (by simp)),
    (h.accounts.leave 0).close, Links.abortAll (h.links.setDriver h.crew.driver) _,
    Counts.abortAll (h.counts.setDriver h.crew.driver) _, h.stages.giveUp hr rfl, .abortAll ?_ rfl _,
    fun _ _ hover => (by cases hover)⟩
  refine (h.endings.mono id fun _ => rfl).setDriver h.crew.driver (fun hf => ?_)
    fun _ _ hover => (by cases hover)
  rw [hfailed] at hf
  cases hf

theorem spawn (h : RunInv o d e) (hs : d.stage = .starting) :
    RunInv o { d with members := e.nextIds d.size, stage := .submitting }
      ((e.setTask 0 (.driver { d with members := e.nextIds d.size, stage := .submitting })).spawnAll
        (Engine.poolWorkers d.size d.policy)) := by
  have hdriver := h.crew.driver
  have hclosed : e.queue.closed = false := by rw [h.stages.closed, hs]; rfl
  have hfailed : d.stage.hasFailed = false := by rw [hs]; rfl
  rw [Engine.spawnAll_eq]
  refine ⟨h.crew.launch hs rfl, h.accounts, (h.links.setDriver hdriver).spawn _ _,
    (h.counts.setDriver hdriver).spawn _ _, h.stages.advance (fun hp => ?_) (fun hd => ?_) hclosed
    hfailed rfl (fun hd => ?_), Endings.spawn (h.endings.setDriver hdriver (fun hf => ?_) ?_) _ _,
    fun _ _ hover => (by cases hover)⟩
  · cases hp
  · cases hd
  · cases hd
  · rw [hfailed] at hf
    cases hf
  · intro _ _ hover
    cases hover

/-- A run that has workers is never refused, and its driver finds the queue open. -/
theorem driver {r : Engine × Bool} (hsize : 0 < o.size) (h : RunInv o d e)
    (hm : Engine.DriverMove e 0 d r) : ∃ d', RunInv o d' r.1 := by
  have hfailed : ∀ stage, d.stage = stage → stage.hasFailed = false → d.stage.hasFailed = false := by
    rintro _ rfl
    exact id
  have hclosed := h.stages.closed
  cases hm with
  | rest => exact ⟨d, h⟩
  | refuse hs h0 =>
    have := h.crew.size
    omega
  | launch hs hne => exact ⟨_, h.spawn hs⟩
  | giveUp hs hr => exact ⟨_, h.giveUp hs hr⟩
  | submitted hs hr hn =>
    rw [hs] at hclosed
    refine ⟨{ d with stage := .draining }, h.advance rfl rfl rfl rfl (by simp [hs]) (by simp)
      (hfailed _ hs rfl) h.accounts id ?_ fun _ _ hover => (by cases hover)⟩
    exact h.stages.advance (fun _ => hn) (fun hd => by cases hd) hclosed (hfailed _ hs rfl) rfl
      fun hd => by cases hd
  | await hs hr hn hq =>
    obtain ⟨hd, hb, hout, -⟩ := WorkQueue.put_waiting hq
    exact ⟨d, h.crew, h.accounts.deal hd hb hout, h.links, h.counts, h.stages.deal hd hout,
      h.endings.mono id fun hc => hd.closed.trans hc, h.report⟩
  | refused hs hr hn hq =>
    have hc := (WorkQueue.put_error hq).2
    rw [hclosed, hs] at hc
    cases hc
  | @put queue n hs hr hn hq =>
    have hd := (WorkQueue.put_ok hq).1
    refine ⟨{ d with source := { d.source with remaining := n } }, h.advance rfl rfl rfl rfl
      (by simp [hs]) (by simp [hs]) (hfailed _ hs rfl) ((hn ▸ h.accounts).put hq h.crew.target)
      (fun hc => hd.closed.trans hc) ?_ fun _ _ hover => ?_⟩
    · refine h.stages.advance (fun hp => ?_) (fun hdone => ?_) (hd.closed.trans hclosed)
        (hfailed _ hs rfl) (hfailed _ hs rfl) .inl
      · rw [hs] at hp
        cases hp
      · rw [hs] at hdone
        cases hdone
    · rw [hs] at hover
      cases hover
  | drained hs hr hd =>
    rw [hs] at hclosed
    refine ⟨{ d with stage := .closing }, h.advance rfl rfl rfl rfl (by simp [hs]) (by simp)
      (hfailed _ hs rfl) h.accounts id ?_ fun _ _ hover => (by cases hover)⟩
    exact h.stages.advance (fun _ => h.stages.put (by rw [hs]; rfl)) (fun _ => eq_of_beq hd) hclosed
      (hfailed _ hs rfl) rfl fun _ => .inr hr
  | close hs =>
    refine ⟨{ d with stage := .stopping }, h.advance rfl rfl rfl rfl (by simp [hs]) (by simp)
      (hfailed _ hs rfl) h.accounts.close (fun _ => rfl) ?_ fun _ _ hover => (by cases hover)⟩
    exact h.stages.advance (fun _ => h.stages.put (by rw [hs]; rfl))
      (fun _ => h.stages.done (by rw [hs]; rfl)) rfl (hfailed _ hs rfl) rfl
      fun _ => .inl (by rw [hs]; rfl)
  | complete hs hend =>
    rw [hs] at hclosed
    refine ⟨{ d with stage := .over (.completed e.counter.snapshot (e.shares d.members)) },
      h.advance rfl rfl rfl rfl (by simp [hs]) (by simp) (hfailed _ hs rfl) h.accounts id ?_ ?_⟩
    · exact h.stages.advance (fun _ => h.stages.put (by rw [hs]; rfl))
        (fun _ => h.stages.done (by rw [hs]; rfl)) hclosed (hfailed _ hs rfl) rfl
        fun _ => .inl (by rw [hs]; rfl)
    · rintro counts shares ⟨⟩
      exact ⟨hend, rfl, rfl⟩

/-! ### Anything happens -/

theorem alike {e' : Engine} (h : RunInv o d e) (he : e.Alike e') : RunInv o d e' := by
  obtain ⟨hq, hcounter, hcontext, hlog, htasks⟩ := he
  have hshares : ∀ members, e'.shares members = e.shares members := by
    intro members
    unfold Engine.shares Engine.worker?
    rw [htasks]
  refine ⟨htasks ▸ h.crew, ?_, ?_, ?_, ?_, ?_, fun counts shares hs => ?_⟩
  · rw [hq, hlog]
    exact h.accounts
  · rw [hlog, htasks]
    exact h.links
  · rw [hlog, hcounter, htasks]
    exact h.counts
  · rw [hq, hcontext, hlog]
    exact h.stages
  · rw [hcontext, hq, htasks]
    exact h.endings
  · rw [hcounter, hshares]
    exact h.report counts shares hs

theorem front (h : RunInv o d e) (t : TaskId) : RunInv o d (e.front t) :=
  h.alike ⟨rfl, rfl, rfl, rfl, rfl⟩

theorem step (hsize : 0 < o.size) (h : RunInv o d e) (script : Script) (t : TaskId) :
    ∃ d', RunInv o d' (e.step script t).1 := by
  rcases h.crew.step_cases script t with ⟨-, hstep⟩ | ⟨rfl, hm⟩ | ⟨w, ht, hm⟩
  · rw [hstep]
    exact ⟨d, h⟩
  · exact h.driver hsize hm
  · exact ⟨d, h.worker ht hm⟩

theorem react (hsize : 0 < o.size) (h : RunInv o d e) (script : Script) (event : Event) :
    ∃ d', RunInv o d' (e.react script event) := by
  cases event with
  | poll t =>
    obtain ⟨d', hd'⟩ := (h.front t).step hsize script t
    exact ⟨d', hd'.alike (Engine.poll_alike script e t)⟩
  | reply call reply =>
    exact ⟨d, h.crew, h.accounts.reply call reply, h.links.reply call reply,
      h.counts.reply call reply, h.stages.reply call reply, h.endings, h.report⟩
  | cancel reason =>
    refine ⟨d, h.crew, h.accounts, h.links, h.counts, h.stages.cancel reason,
      h.endings.mono (fun _ => ?_) id, h.report⟩
    exact Cancellation.isCancelled_cancel e.context reason
  | pause => exact ⟨d, h.alike ⟨rfl, rfl, rfl, rfl, rfl⟩⟩

/-- Whatever happens in a run keeps its invariant. -/
theorem play (hsize : 0 < o.size) (h : RunInv o d e) (script : Script) (events : List Event) :
    ∃ d', RunInv o d' (e.play script events) :=
  Engine.play_induction (P := fun e => ∃ d, RunInv o d e) ⟨d, h⟩
    (fun _ event ⟨_, h⟩ => h.react hsize script event) events

end RunInv

theorem exists_runInv {o : Orchestrator} (hsize : 0 < o.size) (script : Script)
    (events : List Event) : ∃ d, RunInv o d (o.launch.play script events) :=
  (RunInv.launch o).play hsize script events

end LoadGenerator
