import LoadGenerator.Proofs.Run.Readiness
import LoadGenerator.Proofs.Run.Replies

/-!
# A run does not stall

When nobody is in line a run is `Settled`: no task can get further (`Settled.step_eq`). Then either
the run has returned, or as many calls are in flight as there can be: all workers are in a call, or
there are no more items than calls (`settled_run`). The reason is that a worker waits at the queue
only while the buffer is empty, and the driver only while it is full.
-/

namespace LoadGenerator

/-- Nobody could get further, and everybody who waits at the queue has a ticket there. -/
structure Settled (e : Engine) : Prop where
  callable : e.callable = []
  parked : ∀ (t : TaskId) task, e.tasks[t]? = some task → Parked e.queue t task

theorem Attended.settled {e : Engine} (h : Attended e) (hready : e.ready = []) : Settled e := by
  refine ⟨List.eq_nil_iff_forall_not_mem.2 fun t ht => ?_, fun t task ht => ?_⟩
  · have := h.called t ht
    rw [hready] at this
    cases this
  · rcases h.parked t task ht with hmem | hp
    · rw [hready] at hmem
      cases hmem
    · exact hp

theorem Crew.countWorkers_eq_size {o : Orchestrator} {d : RunDriver} {tasks : List Task}
    {p : Worker → Bool} (h : Crew o d tasks) (hs : d.stage ≠ .starting)
    (hall : ∀ (t : TaskId) (w : Worker), tasks[t]? = some (.worker w) → p w = true) :
    countWorkers p tasks = o.size := by
  obtain ⟨-, hlen, -⟩ := h.length.resolve_left fun hl => hs hl.1
  cases tasks with
  | nil => cases hlen
  | cons task rest =>
    obtain rfl : task = .driver d := by simpa using h.driver
    have hrest : rest.length = o.size := Nat.succ.inj hlen
    have hcount : rest.countP (Task.counts p) = rest.length := by
      rw [List.countP_eq_length]
      intro task htask
      obtain ⟨i, hi⟩ := List.getElem?_of_mem htask
      have hi' : (Task.driver d :: rest)[i + 1]? = some task := hi
      obtain ⟨w, rfl, -⟩ := h.worker (i + 1) task (Nat.succ_pos i) hi'
      exact hall (i + 1) w hi'
    have hcons : countWorkers p (.driver d :: rest) = rest.countP (Task.counts p) := by
      simp [countWorkers, Task.counts]
    rw [hcons, hcount, hrest]

namespace Settled

variable {o : Orchestrator} {d : RunDriver} {e : Engine} {t : TaskId} {w : Worker} {task : Task}

theorem isEnabled_eq_false (h : Settled e) (ht : e.tasks[t]? = some task) :
    e.isEnabled task = false := by
  rw [Bool.eq_false_iff]
  intro henabled
  have hmem : t ∈ e.callable := by
    unfold Engine.callable
    refine List.mem_append_right _ (List.mem_filterMap.2 ⟨(task, t), ?_, ?_⟩)
    · exact List.mem_zipIdx_iff_getElem?.2 ht
    · simp only [henabled, if_true]
  rw [h.callable] at hmem
  cases hmem

theorem queue_callable (h : Settled e) : e.queue.callable = [] :=
  (List.append_eq_nil_iff.1 h.callable).1

/-- A worker waits for an item only while the buffer is empty and the queue open. -/
theorem of_seeking (h : Settled e) (hsound : e.queue.Sound) (ht : e.tasks[t]? = some (.worker w))
    (hw : w.phase = .seeking) : w.aborted = false ∧ e.context.isCancelled = false ∧
      e.queue.buffer = [] ∧ e.queue.closed = false ∧ e.queue.get t = (e.queue, .waiting) := by
  have henabled := h.isEnabled_eq_false ht
  simp only [Engine.isEnabled, hw, Bool.or_eq_false_iff] at henabled
  refine ⟨henabled.1, henabled.2, ?_⟩
  have hgetting : e.queue.Getting t := h.parked t _ ht hw
  obtain ⟨-, hturn | ⟨u, hturn, hbuffer, hopen⟩⟩ :=
    WorkQueue.granted_of_callable_nil h.queue_callable
  · -- a turn that is free would have been taken
    rcases hgetting with hown | hline
    · rw [hturn] at hown
      cases hown
    · rw [hsound.turn hturn] at hline
      cases hline
  · refine ⟨hbuffer, hopen, ?_⟩
    by_cases hut : t = u
    · subst hut
      exact WorkQueue.get_of_held hturn hbuffer hopen
    · have howner : e.queue.turn.owner = some u := by rw [hturn]; rfl
      refine WorkQueue.get_of_mem_getters howner hut (hgetting.resolve_left fun hown => ?_)
      rw [howner] at hown
      exact hut (Option.some.inj hown).symm

/-- The driver waits for a slot only while the buffer is full. -/
theorem of_submitting (h : Settled e) (hinv : RunInv o d e) (hs : d.stage = .submitting) :
    d.source.remaining ≠ 0 ∧ e.queue.buffer.length = o.capacity ∧
      ∀ item, e.queue.put 0 item = (e.queue, .waiting) := by
  obtain ⟨hn, hputting⟩ := (h.parked 0 _ hinv.crew.driver).2.2 hs
  obtain ⟨hgranted, -⟩ := WorkQueue.granted_of_callable_nil h.queue_callable
  have hline : 0 ∈ e.queue.putters := hputting.resolve_left fun hg => by
    rw [hgranted] at hg
    cases hg
  have hfree := hinv.accounts.sound.full (List.ne_nil_of_mem hline)
  have hslots := hinv.accounts.sound.slots
  rw [WorkQueue.slots, hfree, hgranted, hinv.accounts.capacity, List.length_nil] at hslots
  refine ⟨hn, by omega, fun item => WorkQueue.put_of_mem_putters ?_ hline⟩
  rw [hgranted]
  exact List.not_mem_nil

theorem stepDriver_eq (h : Settled e) (hinv : RunInv o d e) : e.stepDriver 0 d = (e, false) := by
  have henabled := h.isEnabled_eq_false hinv.crew.driver
  obtain ⟨hstart, hclosing, -⟩ := h.parked 0 _ hinv.crew.driver
  have hreason : e.context.isCancelled = false → e.context.reason = none := by
    intro hc
    exact Option.isNone_iff_eq_none.1 (Option.isSome_eq_false_iff.1 hc)
  unfold Engine.stepDriver
  cases hs : d.stage with
  | starting => exact absurd hs hstart
  | closing => exact absurd hs hclosing
  | submitting =>
    obtain ⟨hn, -, hput⟩ := h.of_submitting hinv hs
    simp only [Engine.isEnabled, hs] at henabled
    obtain ⟨n, hn⟩ := Nat.exists_eq_succ_of_ne_zero hn
    simp only [hreason henabled, Engine.submit, WorkSource.next, hn, hput]
  | draining =>
    simp only [Engine.isEnabled, hs, Bool.or_eq_false_iff] at henabled
    simp only [hreason henabled.1, henabled.2, Bool.false_eq_true, if_false]
  | stopping =>
    simp only [Engine.isEnabled, hs] at henabled
    simp only [henabled, Bool.false_eq_true, if_false]
  | _ => rfl

theorem step_eq (h : Settled e) (hinv : RunInv o d e) (script : Script) (t : TaskId) :
    e.step script t = (e, false) := by
  unfold Engine.step
  rcases hinv.crew.cases t with ht | ⟨rfl, ht⟩ | ⟨w, ht⟩ <;> rw [ht]
  · exact h.stepDriver_eq hinv
  · show e.stepWorker script t w = (e, false)
    have henabled := h.isEnabled_eq_false ht
    unfold Engine.stepWorker
    cases hw : w.phase with
    | seeking =>
      obtain ⟨ha, hc, -, -, hget⟩ := h.of_seeking hinv.accounts.sound ht hw
      simp only [Worker.hasEnded, hw, ha, Engine.seek, hc, hget, Bool.false_eq_true, if_false]
    | calling call =>
      simp only [Engine.isEnabled, hw, Bool.or_eq_false_iff] at henabled
      have hreply : e.log.reply? call = none :=
        Option.isNone_iff_eq_none.1 (Option.isSome_eq_false_iff.1 henabled.2)
      simp only [Worker.hasEnded, hw, henabled.1, hreply, Bool.false_eq_true, if_false]
    | ended how => simp only [Worker.hasEnded, hw, if_true]

/-- Before the queue is closed, and while no worker is lost, every worker looks for an item or is in
a call. -/
theorem seeking_or_calling (hinv : RunInv o d e) (hfailed : d.stage.hasFailed = false)
    (hopen : e.queue.closed = false) (hcancelled : e.context.isCancelled = false)
    (hlost : e.log.countSince o.log CallState.isLost = 0) (ht : e.tasks[t]? = some (.worker w)) :
    w.phase = .seeking ∨ w.isCalling = true := by
  cases hw : w.phase with
  | seeking => exact .inl rfl
  | calling call => exact .inr (Worker.of_calling hw).2.1
  | ended how =>
    exfalso
    rcases hinv.endings.ended t w how ht hw with ⟨-, hc | hc⟩ | rfl | ⟨-, ha⟩
    · rw [hcancelled] at hc
      cases hc
    · rw [hopen] at hc
      cases hc
    · have hzero := hinv.links.lost
      rw [hlost] at hzero
      have hnot := countWorkers_eq_zero.1 hzero t w ht
      rw [Worker.isLost, hw] at hnot
      cases hnot
    · rw [hinv.endings.aborted t w ht ha] at hfailed
      cases hfailed

theorem not_stopping (h : Settled e) (hinv : RunInv o d e) : d.stage ≠ .stopping := by
  intro hs
  have henabled := h.isEnabled_eq_false hinv.crew.driver
  simp only [Engine.isEnabled, hs] at henabled
  have hclosed : e.queue.closed = true := by rw [hinv.stages.closed, hs]; rfl
  have hdone := hinv.stages.done (by rw [hs]; rfl)
  have hplaces := hinv.accounts.outstanding_eq
  have hcalling : countWorkers Worker.isCalling e.tasks = 0 := by
    rw [hinv.links.calling]
    omega
  have hall : e.allEnded d.members = true := by
    refine List.all_eq_true.2 fun t ht => ?_
    obtain ⟨w, hw⟩ := (hinv.crew.mem_members (by simp [hs])).1 ht
    rw [Engine.worker?_eq_some.2 hw]
    show w.hasEnded = true
    cases hp : w.phase with
    | seeking =>
      obtain ⟨-, -, -, hopen, -⟩ := h.of_seeking hinv.accounts.sound hw hp
      rw [hclosed] at hopen
      cases hopen
    | calling call =>
      have hnot := countWorkers_eq_zero.1 hcalling t w hw
      rw [(Worker.of_calling hp).2.1] at hnot
      cases hnot
    | ended how => rw [Worker.hasEnded, hp]
  rw [hall] at henabled
  cases henabled

/-- In a settled run that has not returned the driver is putting items or waits until all are done,
and the run is not cancelled. -/
theorem of_runEnd?_eq_none (h : Settled e) (hinv : RunInv o d e)
    (hrun : Orchestrator.runEnd? e = none) : (d.stage = .submitting ∨ d.stage = .draining) ∧
      e.context.isCancelled = false ∧ e.queue.closed = false := by
  have henabled := h.isEnabled_eq_false hinv.crew.driver
  obtain ⟨hstart, hclosing, -⟩ := h.parked 0 _ hinv.crew.driver
  have hstopping := h.not_stopping hinv
  have hclosed := hinv.stages.closed
  cases hs : d.stage with
  | starting => exact absurd hs hstart
  | closing => exact absurd hs hclosing
  | stopping => exact absurd hs hstopping
  | submitting =>
    simp only [Engine.isEnabled, hs] at henabled
    rw [hs] at hclosed
    exact ⟨.inl rfl, henabled, hclosed⟩
  | draining =>
    simp only [Engine.isEnabled, hs, Bool.or_eq_false_iff] at henabled
    rw [hs] at hclosed
    exact ⟨.inr rfl, henabled.1, hclosed⟩
  | _ =>
    rw [hinv.runEnd?_eq_some.2 hs] at hrun
    cases hrun

/-- In a settled run that has not returned as many calls are in flight as there can be. -/
theorem inFlight_eq (h : Settled e) (hinv : RunInv o d e) (hvalid : o.Valid)
    (hlost : e.log.countSince o.log CallState.isLost = 0)
    (hrun : Orchestrator.runEnd? e = none) :
    0 < e.log.countSince o.log CallState.isInFlight ∧
      e.log.countSince o.log CallState.isInFlight =
        min o.size (o.total - e.log.countSince o.log CallState.isAnswered) := by
  obtain ⟨hsize, -, hmult, -⟩ := Orchestrator.of_validate hvalid.config
  have hcapacity : 0 < o.capacity := Nat.mul_pos hsize hmult
  obtain ⟨hstage, hcancelled, hopen⟩ := h.of_runEnd?_eq_none hinv hrun
  have hfailed := hinv.hasFailed_eq_false hrun
  have habandoned := hinv.stages.abandoned hfailed
  have hplaces := hinv.accounts.outstanding_eq
  have hbooked := hinv.accounts.outstanding
  have hcalling := hinv.links.calling
  have hstart : d.stage ≠ .starting := by rcases hstage with hs | hs <;> simp [hs]
  have hmost := hinv.crew.countWorkers_add_le (p := Worker.isCalling) (q := fun _ => false)
    fun _ _ => rfl
  by_cases hseek : ∃ (t : TaskId) (w : Worker), e.tasks[t]? = some (.worker w) ∧ w.phase = .seeking
  · -- an idle worker has found the buffer empty, so the driver waits for the last answers
    obtain ⟨t, w, ht, hw⟩ := hseek
    obtain ⟨-, -, hbuffer, -⟩ := h.of_seeking hinv.accounts.sound ht hw
    rw [hbuffer, List.length_nil] at hplaces
    rcases hstage with hs | hs
    · obtain ⟨-, hfull, -⟩ := h.of_submitting hinv hs
      rw [hbuffer, List.length_nil] at hfull
      omega
    · have hleft := hinv.stages.put (by rw [hs]; rfl)
      have hnot : e.queue.outstanding ≠ 0 := by
        have henabled := h.isEnabled_eq_false hinv.crew.driver
        simp only [Engine.isEnabled, hs, Bool.or_eq_false_iff] at henabled
        exact beq_eq_false_iff_ne.1 henabled.2
      omega
  · have hall := hinv.crew.countWorkers_eq_size (p := Worker.isCalling) hstart fun t w ht => by
      rcases seeking_or_calling hinv hfailed hopen hcancelled hlost ht with hw | hw
      · exact absurd ⟨t, w, ht, hw⟩ hseek
      · exact hw
    omega

theorem exists_waiting (h : Settled e) (hinv : RunInv o d e)
    (hflight : 0 < e.log.countSince o.log CallState.isInFlight) :
    ∃ call ∈ e.log.since o.log, call.state = .waiting := by
  have hne : countWorkers Worker.isCalling e.tasks ≠ 0 := by
    rw [hinv.links.calling]
    omega
  have hex : ∃ (t : TaskId) (w : Worker), e.tasks[t]? = some (.worker w) ∧ w.isCalling = true := by
    by_contra hnone
    refine hne (countWorkers_eq_zero.2 fun t w ht => Bool.eq_false_iff.2 fun hw => ?_)
    exact hnone ⟨t, w, ht, hw⟩
  obtain ⟨t, w, ht, hw⟩ := hex
  obtain ⟨call, hcall⟩ := Option.isSome_iff_exists.1 hw
  have hphase := Worker.call?_eq_some.1 hcall
  obtain ⟨hn, s, hs, hinflight⟩ := hinv.links.held t call (callOf_eq_some.2 ⟨w, ht, hphase⟩)
  have henabled := h.isEnabled_eq_false ht
  simp only [Engine.isEnabled, hphase, Bool.or_eq_false_iff] at henabled
  have hreply : e.log.reply? call = none :=
    Option.isNone_iff_eq_none.1 (Option.isSome_eq_false_iff.1 henabled.2)
  obtain ⟨c, hc, rfl⟩ := CallLog.getElem?_since hn hs
  refine ⟨c, List.mem_of_getElem? hc, ?_⟩
  cases hstate : c.state with
  | waiting => rfl
  | replied reply => exact absurd (hstate ▸ hs) (CallLog.reply?_eq_none hreply)
  | returned | abandoned =>
    rw [hstate] at hinflight
    cases hinflight

end Settled

/-- A transport that never breaks down takes no worker with it. -/
theorem Obeyed.countSince_isLost {before log : CallLog}
    (h : Obeyed before (fun _ reply => reply ≠ .breakdown) log) :
    log.countSince before CallState.isLost = 0 := by
  refine List.countP_eq_zero.2 fun call hcall hlost => ?_
  obtain ⟨i, hi⟩ := List.getElem?_of_mem hcall
  have hstate := CallLog.state?_of_getElem?_since hi
  rcases hs : call.state with _ | _ | (_ | _ | _) | _
  case returned.breakdown =>
    rw [hs] at hstate
    exact h _ _ .breakdown (by omega) hstate rfl rfl
  all_goals rw [hs] at hlost; cases hlost

/-- When nobody is in line nobody could get further, and a run that has not returned then has as
many calls in flight as workers and items allow; so once every call has been replied to it has
returned. -/
theorem settled_run {o : Orchestrator} (h : o.Valid) {script : Script} {events : List Event}
    (hreplies : Answers o.log (fun _ reply => reply ≠ .breakdown) script events)
    (hready : (o.launch.play script events).ready = []) :
    (∀ t, (o.launch.play script events).step script t = (o.launch.play script events, false)) ∧
    (Orchestrator.runEnd? (o.launch.play script events) = none →
      (o.launch.play script events).context.isCancelled = false ∧
      (o.launch.play script events).log.countSince o.log CallState.isInFlight =
        min o.size (o.total -
          (o.launch.play script events).log.countSince o.log CallState.isAnswered)) ∧
    ((∀ call ∈ (o.launch.play script events).log.since o.log, call.state ≠ .waiting) →
      ∃ how, Orchestrator.runEnd? (o.launch.play script events) = some how) := by
  have hsize := (Orchestrator.of_validate h.config).1
  have hlost := (obeyed_launch hsize hreplies).countSince_isLost
  obtain ⟨d, hinv, hattended⟩ := attended_play hsize script events
  have hsettled := hattended.settled hready
  generalize o.launch.play script events = e at *
  refine ⟨hsettled.step_eq hinv script, fun hrun => ?_, fun hall => ?_⟩
  · obtain ⟨-, hcancelled, -⟩ := hsettled.of_runEnd?_eq_none hinv hrun
    exact ⟨hcancelled, (hsettled.inFlight_eq hinv h hlost hrun).2⟩
  · cases hrun : Orchestrator.runEnd? e with
    | some how => exact ⟨how, rfl⟩
    | none =>
      obtain ⟨hflight, -⟩ := hsettled.inFlight_eq hinv h hlost hrun
      obtain ⟨call, hcall, hwaiting⟩ := hsettled.exists_waiting hinv hflight
      exact absurd hwaiting (hall call hcall)

/-- Two of three requests are in flight, and then, one reply later, the other two. -/
theorem settled_run_midway :
    let start : List Event := [.poll 0, .poll 0, .poll 0, .poll 0, .poll 1, .poll 1, .poll 2,
      .poll 2, .poll 0, .poll 0, .poll 0]
    let events := start ++ [.reply 1 (.response 500), .poll 1, .poll 1, .poll 1]
    let e := (Orchestrator.small .goOn).launch.play (fun _ => none) events
    (Orchestrator.small .goOn).Valid ∧
      Answers {} (fun _ reply => reply ≠ .breakdown) (fun _ => none) events ∧ e.ready = [] ∧
      Orchestrator.runEnd? e = none ∧ e.context.isCancelled = false ∧
      e.log.countSince {} CallState.isInFlight =
        min 2 (3 - e.log.countSince {} CallState.isAnswered) := by
  intro start events e
  have hvalid := Orchestrator.valid_small .goOn
  have hreplies : Answers {} (fun _ reply => reply ≠ .breakdown) (fun _ => none) events := by
    refine ⟨fun n reply _ hr => (by cases hr), fun n reply _ hmem => ?_⟩
    simp only [events, start, List.cons_append, List.nil_append, List.mem_cons, Event.reply.injEq,
      reduceCtorEq, false_or, List.not_mem_nil, or_false] at hmem
    obtain ⟨-, rfl⟩ := hmem
    exact Reply.noConfusion
  have hready : e.ready = [] := by decide +kernel
  have hrun : Orchestrator.runEnd? e = none := by decide +kernel
  obtain ⟨-, hflight, -⟩ := settled_run hvalid hreplies hready
  exact ⟨hvalid, hreplies, hready, hrun, hflight hrun⟩

end LoadGenerator
