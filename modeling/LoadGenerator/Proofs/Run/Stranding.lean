import LoadGenerator.Proofs.Run.Verdict

/-!
# A worker that is lost keeps the run from its end

A worker that is lost to its transport never marks its item as done, so a run that has lost one does
not complete. Once no call can be replied to such a run is stranded (`stranded_run`): its driver goes
on waiting for the lost items, and nothing but a reason to cancel ends the wait.
-/

namespace LoadGenerator

/-- A state that a call is not in any more is counted no more than before. -/
theorem CallLog.countSince_le_set {before log : CallLog} {n : Nat} {s u : CallState}
    {p : CallState → Bool} (hn : before.size < n) (hs : log.state? n = some s) (hp : p s = false) :
    log.countSince before p ≤ (log.set n u).countSince before p := by
  rw [countSince_set_of_not hn hs hp]
  exact Nat.le_add_right _ _

namespace RunInv

variable {o : Orchestrator} {d d' : RunDriver} {e : Engine} {script : Script} {t : TaskId}
  {w : Worker}

/-! ### Lost calls -/

theorem lost_le_worker {r : Engine × Bool} (h : RunInv o d e) (ht : e.tasks[t]? = some (.worker w))
    (hm : Engine.WorkerMove script e t w r) :
    e.log.countSince o.log CallState.isLost ≤ r.1.log.countSince o.log CallState.isLost := by
  cases hm with
  | rest | dropPlace | quit | await | retire => exact Nat.le_refl _
  | dropCall hw =>
    obtain ⟨hn, s, hs, hflight⟩ := h.links.held t _ (callOf_eq_some.2 ⟨w, ht, hw⟩)
    exact CallLog.countSince_le_set hn hs (CallState.of_isInFlight hflight).2.2.2.1
  | start =>
    show _ ≤ (e.log.startWith _ (script (e.log.size + 1))).countSince o.log _
    rw [CallLog.countSince_startWith _ _ h.accounts.before]
    exact Nat.le_add_right _ _
  | lose hw _ hr | answer hw _ hr | blunder hw _ hr =>
    exact CallLog.countSince_le_set (h.lt_of_calling ht hw) (CallLog.reply?_eq_some hr) rfl

theorem lost_le_step (h : RunInv o d e) (script : Script) (t : TaskId) :
    e.log.countSince o.log CallState.isLost ≤
      (e.step script t).1.log.countSince o.log CallState.isLost := by
  rcases h.crew.step_cases script t with ⟨-, hstep⟩ | ⟨rfl, hm⟩ | ⟨w, ht, hm⟩
  · rw [hstep]
  · rw [hm.log]
  · exact h.lost_le_worker ht hm

/-- A worker that is lost stays lost. -/
theorem lost_le_play (hsize : 0 < o.size) (h : RunInv o d e) (script : Script)
    (events : List Event) : e.log.countSince o.log CallState.isLost ≤
      (e.play script events).log.countSince o.log CallState.isLost := by
  induction events generalizing d e with
  | nil => exact Nat.le_refl _
  | cons event rest ih =>
    obtain ⟨d', h'⟩ := h.react hsize script event
    refine Nat.le_trans ?_ (ih h')
    cases event with
    | poll t =>
      show _ ≤ (e.poll script t).log.countSince o.log _
      rw [(Engine.poll_alike script e t).log]
      exact (h.front t).lost_le_step script t
    | reply call reply => exact Nat.le_of_eq (CallLog.countSince_reply call reply rfl).symm
    | cancel | pause => exact Nat.le_refl _

/-- The item of a worker that is lost stays outstanding. -/
theorem allDone_of_lost (h : RunInv o d e)
    (hlost : 0 < e.log.countSince o.log CallState.isLost) : d.stage.allDone = false := by
  rw [Bool.eq_false_iff]
  intro hdone
  have hout := h.stages.done hdone
  have hplaces := h.accounts.outstanding_eq
  omega

theorem not_completed_of_lost (hsize : 0 < o.size) (h : RunInv o d e)
    (hlost : 0 < e.log.countSince o.log CallState.isLost) (script : Script) (events : List Event)
    (counts : Snapshot) (shares : List WorkerStats) :
    Orchestrator.runEnd? (e.play script events) ≠ some (.completed counts shares) := by
  intro hrun
  obtain ⟨d', h'⟩ := h.play hsize script events
  have hopen := h'.allDone_of_lost (Nat.lt_of_lt_of_le hlost (h.lost_le_play hsize script events))
  obtain ⟨error, he⟩ := (h'.failed_iff hrun).2 hopen
  cases he

/-- Once a run is cancelled it stays so. -/
theorem isCancelled_play (hsize : 0 < o.size) (h : RunInv o d e) (script : Script)
    (events : List Event) (hc : e.context.isCancelled = true) :
    (e.play script events).context.isCancelled = true := by
  obtain ⟨reason, hr⟩ := Cancellation.isCancelled_eq.1 hc
  refine Cancellation.isCancelled_eq.2 ⟨reason, ?_⟩
  rw [h.reason_play hsize script events, hr]
  rfl

theorem isCancelled_of_mem (hsize : 0 < o.size) (h : RunInv o d e) (script : Script)
    {events : List Event} {reason : CancelReason} (hmem : .cancel reason ∈ events) :
    (e.play script events).context.isCancelled = true := by
  obtain ⟨before, after, rfl⟩ := List.append_of_mem hmem
  obtain ⟨d₁, h₁⟩ := h.play hsize script before
  obtain ⟨d₂, h₂⟩ := h₁.react hsize script (.cancel reason)
  rw [Engine.play_append]
  exact h₂.isCancelled_play hsize script after (Cancellation.isCancelled_cancel _ reason)

end RunInv

/-! ### Runs that do not move -/

theorem Engine.isEnabled_congr {e e' : Engine} {task : Task} (hqueue : e'.queue = e.queue)
    (hcontext : e'.context = e.context) (htasks : e'.tasks = e.tasks)
    (hidle : ∀ w, task = .worker w → w.isCalling = false) :
    e'.isEnabled task = e.isEnabled task := by
  have hended : ∀ members, e'.allEnded members = e.allEnded members := by
    intro members
    unfold Engine.allEnded Engine.worker?
    rw [htasks]
  cases task with
  | worker w =>
    cases hw : w.phase with
    | calling call =>
      have hcalling := hidle w rfl
      rw [(Worker.of_calling hw).2.1] at hcalling
      cases hcalling
    | seeking | ended => simp only [Engine.isEnabled, hw, hcontext]
  | producer => rfl
  | joiner => simp only [Engine.isEnabled, hqueue]
  | shutdown => simp only [Engine.isEnabled, hended]
  | driver => simp only [Engine.isEnabled, hqueue, hcontext, hended]

/-- Nobody could get further, and nobody waits for a reply. -/
structure Quiet (o : Orchestrator) (d : RunDriver) (e : Engine) : Prop where
  inv : RunInv o d e
  settled : Settled e
  idle : countWorkers Worker.isCalling e.tasks = 0

namespace Quiet

variable {o : Orchestrator} {d : RunDriver} {e e' : Engine} {script : Script}

theorem of_settled (hinv : RunInv o d e) (hsettled : Settled e)
    (hcalls : ∀ call ∈ e.log.since o.log, call.state ≠ .waiting) : Quiet o d e := by
  refine ⟨hinv, hsettled, ?_⟩
  rw [hinv.links.calling]
  by_contra hflight
  obtain ⟨call, hcall, hwaiting⟩ := hsettled.exists_waiting hinv (Nat.pos_of_ne_zero hflight)
  exact hcalls call hcall hwaiting

theorem congr (h : Quiet o d e) (hinv : ∃ d', RunInv o d' e') (hqueue : e'.queue = e.queue)
    (hcontext : e'.context = e.context) (htasks : e'.tasks = e.tasks) : Quiet o d e' := by
  obtain ⟨d', hinv'⟩ := hinv
  obtain rfl : d' = d := by
    have hdriver := hinv'.crew.driver
    rw [htasks, h.inv.crew.driver] at hdriver
    cases hdriver
    rfl
  refine ⟨hinv', ⟨?_, fun t task ht => ?_⟩, ?_⟩
  · have hcallable : e'.callable = e.callable := by
      unfold Engine.callable
      rw [hqueue, htasks]
      congr 1
      refine List.filterMap_congr fun ⟨task, t⟩ hentry => ?_
      have hsame : e'.isEnabled task = e.isEnabled task := by
        refine Engine.isEnabled_congr hqueue hcontext htasks ?_
        rintro w rfl
        exact countWorkers_eq_zero.1 h.idle t w (List.mem_zipIdx_iff_getElem?.1 hentry)
      simp only [hsame]
    rw [hcallable]
    exact h.settled.callable
  · rw [hqueue]
    exact h.settled.parked t task (htasks ▸ ht)
  · rw [htasks]
    exact h.idle

/-- Nothing but a reason to cancel makes a difference. -/
theorem react (hsize : 0 < o.size) (h : Quiet o d e) (script : Script) {event : Event}
    (hevent : ∀ reason, event ≠ .cancel reason) : Quiet o d (e.react script event) := by
  have hinv := h.inv.react hsize script event
  cases event with
  | poll t =>
    have hfront : Settled (e.front t) := ⟨h.settled.callable, h.settled.parked⟩
    have halike := Engine.poll_alike script e t
    rw [hfront.step_eq (h.inv.front t) script t] at halike
    exact h.congr hinv halike.queue halike.context halike.tasks
  | reply call reply => exact h.congr hinv rfl rfl rfl
  | cancel reason => exact absurd rfl (hevent reason)
  | pause => exact h.congr hinv rfl rfl rfl

theorem play (hsize : 0 < o.size) (h : Quiet o d e) (script : Script) {events : List Event}
    (hevents : ∀ reason, .cancel reason ∉ events) : Quiet o d (e.play script events) := by
  induction events generalizing e with
  | nil => exact h
  | cons event rest ih =>
    have hrest : ∀ reason, .cancel reason ∉ rest :=
      fun reason hmem => hevents reason (List.mem_cons_of_mem _ hmem)
    refine ih (h.react hsize script fun reason he => hevents reason ?_) hrest
    rw [he]
    exact List.mem_cons_self

/-- A run that can get no further has returned unless it has lost a worker and is not cancelled. -/
theorem runEnd?_eq_none (h : Quiet o d e) (hvalid : o.Valid) :
    Orchestrator.runEnd? e = none ↔
      0 < e.log.countSince o.log CallState.isLost ∧ e.context.isCancelled = false := by
  constructor
  · intro hrun
    refine ⟨Nat.pos_of_ne_zero fun hlost => ?_, (h.settled.of_runEnd?_eq_none h.inv hrun).2.1⟩
    have hflight := (h.settled.inFlight_eq h.inv hvalid hlost hrun).1
    have hidle := h.idle
    rw [h.inv.links.calling] at hidle
    omega
  · rintro ⟨hlost, hcancelled⟩
    cases hrun : Orchestrator.runEnd? e with
    | none => rfl
    | some how =>
      obtain ⟨error, rfl⟩ := (h.inv.failed_iff hrun).2 (h.inv.allDone_of_lost hlost)
      obtain ⟨reason, hr, -⟩ := h.inv.stages.failed error (h.inv.runEnd?_eq_some.1 hrun)
      rw [Cancellation.isCancelled, hr] at hcancelled
      cases hcancelled

end Quiet

/-- What becomes of a run of `o` none of whose calls can be replied to any more. -/
structure Stranding (o : Orchestrator) (script : Script) (events : List Event) : Prop where
  stranded : Orchestrator.runEnd? (o.launch.play script events) = none ↔
    0 < (o.launch.play script events).log.countSince o.log CallState.isLost ∧
      (o.launch.play script events).context.isCancelled = false
  outstanding : Orchestrator.runEnd? (o.launch.play script events) = none →
    (o.launch.play script events).queue.outstanding =
      (o.launch.play script events).queue.buffer.length +
        (o.launch.play script events).log.countSince o.log CallState.isLost
  forever : Orchestrator.runEnd? (o.launch.play script events) = none → ∀ more,
    (∀ reason, .cancel reason ∉ more) →
    Orchestrator.runEnd? (o.launch.play script (events ++ more)) = none
  cancelled : Orchestrator.runEnd? (o.launch.play script events) = none → ∀ more reason,
    .cancel reason ∈ more → (o.launch.play script (events ++ more)).ready = [] →
    ∃ error, Orchestrator.runEnd? (o.launch.play script (events ++ more)) = some (.failed error)

/-- When every call has been answered or has broken down a settled run has returned, unless it has
lost a worker and is not cancelled: then its driver waits for the items that were lost, for ever if
nobody cancels the run. -/
theorem stranded_run {o : Orchestrator} (h : o.Valid) {script : Script} {events : List Event}
    (hready : (o.launch.play script events).ready = [])
    (hcalls : ∀ call ∈ (o.launch.play script events).log.since o.log, call.state ≠ .waiting) :
    Stranding o script events := by
  have hsize := (Orchestrator.of_validate h.config).1
  obtain ⟨d, hinv, hattended⟩ := attended_play hsize script events
  have hquiet := Quiet.of_settled hinv (hattended.settled hready) hcalls
  have hstranded := hquiet.runEnd?_eq_none h
  refine ⟨hstranded, fun hrun => ?_, fun hrun more hmore => ?_, fun hrun more reason hmem hready' => ?_⟩
  · have hplaces := hinv.accounts.outstanding_eq
    have habandoned := hinv.stages.abandoned (hinv.hasFailed_eq_false hrun)
    have hidle := hquiet.idle
    rw [hinv.links.calling] at hidle
    omega
  · rw [Engine.play_append]
    have hstill := hquiet.play hsize script hmore
    cases hend : Orchestrator.runEnd? ((o.launch.play script events).play script more) with
    | none => rfl
    | some how =>
      have hover := hinv.runEnd?_eq_some.2 (hstill.inv.runEnd?_eq_some.1 hend)
      rw [hrun] at hover
      cases hover
  · obtain ⟨d', hinv', hattended'⟩ := attended_play hsize script (events ++ more)
    cases hend : Orchestrator.runEnd? (o.launch.play script (events ++ more)) with
    | none =>
      have hnot := ((hattended'.settled hready').of_runEnd?_eq_none hinv' hend).2.1
      rw [Engine.play_append, hinv.isCancelled_of_mem hsize script hmem] at hnot
      cases hnot
    | some how =>
      cases how with
      | failed error => exact ⟨error, rfl⟩
      | completed counts shares =>
        rw [Engine.play_append] at hend
        exact absurd hend (hinv.not_completed_of_lost hsize (hstranded.1 hrun).1 script more _ _)

/-- The first of three calls takes a worker with it, and the other worker gets the answers of the
rest. -/
def breakdownFirst : List Event :=
  [.poll 0, .poll 0, .poll 0, .poll 0, .poll 1, .poll 2, .poll 0, .poll 0, .poll 0,
    .reply 1 .breakdown, .poll 1, .reply 2 (.response 200), .poll 2, .poll 2, .poll 2,
    .reply 3 (.response 200), .poll 2, .poll 2]

theorem breakdownFirst_settled :
    let o := Orchestrator.small .goOn
    let e := o.launch.play (fun _ => none) breakdownFirst
    e.ready = [] ∧ (∀ call ∈ e.log.since o.log, call.state ≠ .waiting) ∧
      Orchestrator.runEnd? e = none := by
  decide +kernel

/-- Two items are done, and the driver waits for the third. -/
theorem stranded_run_breakdown :
    let o := Orchestrator.small .goOn
    let e := o.launch.play (fun _ => none) breakdownFirst
    o.Valid ∧ e.ready = [] ∧ (∀ call ∈ e.log.since o.log, call.state ≠ .waiting) ∧
      e.queue.outstanding = 1 ∧ e.log.countSince o.log CallState.isAnswered = 2 ∧
      Stranding o (fun _ => none) breakdownFirst := by
  intro o e
  have hvalid : o.Valid := Orchestrator.valid_small .goOn
  obtain ⟨hready, hcalls, -⟩ := breakdownFirst_settled
  have houtstanding : e.queue.outstanding = 1 := by decide +kernel
  have hanswered : e.log.countSince o.log CallState.isAnswered = 2 := by decide +kernel
  exact ⟨hvalid, hready, hcalls, houtstanding, hanswered, stranded_run hvalid hready hcalls⟩

/-- A run may not have returned although no call can be replied to any more. -/
theorem not_forall_settled_run_returned :
    ¬ ∀ (o : Orchestrator) (script : Script) (events : List Event), o.Valid →
      (o.launch.play script events).ready = [] →
      (∀ call ∈ (o.launch.play script events).log.since o.log, call.state ≠ .waiting) →
      ∃ how, Orchestrator.runEnd? (o.launch.play script events) = some how := by
  intro h
  obtain ⟨hready, hcalls, hrun⟩ := breakdownFirst_settled
  obtain ⟨how, hhow⟩ := h _ _ _ (Orchestrator.valid_small .goOn) hready hcalls
  rw [hrun] at hhow
  cases hhow

end LoadGenerator
