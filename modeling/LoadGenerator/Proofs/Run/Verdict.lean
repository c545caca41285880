import LoadGenerator.Proofs.Run.Cancellation
import LoadGenerator.Proofs.Run.Progress

/-!
# Cancellation decides how a run ends

The driver of a run races two things: the run is cancelled, or it finds the queue drained.
`Engine.cancelledFirst` reads off a history which of them comes first, and `cancelled_run` says that
this decides how the run ends, and that the first reason to cancel is its error. A worker that takes
an error under `FailurePolicy.abort` cancels the run before it marks its item as done, so the driver
cannot find the queue drained first, and no more calls are made than the workers are in by then.
-/

namespace LoadGenerator

namespace Engine

/-- The driver of the run waits until all items are done, and they are. -/
def findsDrained (e : Engine) : Bool :=
  match e.tasks.head? with
  | some (.driver d) => d.stage == .draining && e.queue.drained
  | _ => false

/-- Whether a run is cancelled before its driver is polled with the queue drained. -/
def cancelledFirst (script : Script) : Engine → List Event → Bool
  | e, [] => e.context.isCancelled
  | e, event :: rest => e.context.isCancelled ||
      !(event == .poll 0 && e.findsDrained) && cancelledFirst script (e.react script event) rest

variable {script : Script} {e : Engine} {t : TaskId} {d d' : RunDriver} {r : Engine × Bool}

theorem cancelledFirst_of_isCancelled (h : e.context.isCancelled = true) (events : List Event) :
    e.cancelledFirst script events = true := by
  cases events with
  | nil => exact h
  | cons event rest => rw [cancelledFirst, h, Bool.true_or]

theorem DriverMove.allDone (hm : DriverMove e t d r) (ht : e.tasks[t]? = some (.driver d))
    (hd' : r.1.tasks[t]? = some (.driver d')) : d'.stage.allDone = true ↔
      d.stage.allDone = true ∨
        d.stage = .draining ∧ e.queue.drained = true ∧ e.context.isCancelled = false := by
  have hset : ∀ x : RunDriver, (e.tasks.set t (.driver x))[t]? = some (.driver d') → d' = x :=
    fun _ h => Task.driver.inj (eq_of_getElem?_set h)
  cases hm with
  | rest hrest =>
    rw [ht] at hd'
    cases hd'
    rcases hrest with ⟨hs, -, hdrained⟩ | ⟨hs, -⟩ | ⟨how, hs⟩
    · simp [hs, hdrained, Stage.allDone]
    · simp [hs]
    · simp [hs]
  | refuse hs =>
    rw [hset _ hd']
    simp [hs, Stage.allDone]
  | launch hs =>
    have hlt : t < (e.tasks.set t (.driver { d with
        members := e.nextIds d.size, stage := .submitting })).length := by
      rw [List.length_set]
      exact (List.getElem?_eq_some_iff.1 ht).1
    rw [spawnAll_eq] at hd'
    rw [hset _ ((List.getElem?_append_left hlt).symm.trans hd')]
    simp [hs, Stage.allDone]
  | giveUp hs hr =>
    have hgive := hd'.symm.trans (task_giveUp ht)
    cases hgive
    have hc : e.context.isCancelled = true := Cancellation.isCancelled_eq.2 ⟨_, hr⟩
    rcases hs with hs | hs <;> simp [hs, hc, Stage.allDone]
  | await hs =>
    rw [ht] at hd'
    cases hd'
    simp [hs]
  | refused hs hr hn hq =>
    have hgive := hd'.symm.trans (task_giveUp ht)
    cases hgive
    simp [hs, Stage.allDone]
  | submitted hs | put hs =>
    rw [hset _ hd']
    simp [hs, Stage.allDone]
  | drained hs hr hdrained =>
    rw [hset _ hd']
    simp [hs, hdrained, hr, Cancellation.isCancelled, Stage.allDone]
  | close hs | complete hs =>
    rw [hset _ hd']
    simp [hs, Stage.allDone]

end Engine

namespace RunInv

variable {o : Orchestrator} {d d' : RunDriver} {e : Engine} {script : Script}

theorem findsDrained_eq (h : RunInv o d e) : e.findsDrained = true ↔
    d.stage = .draining ∧ e.queue.drained = true := by
  unfold Engine.findsDrained
  rw [List.head?_eq_getElem?, h.crew.driver]
  simp

theorem allDone_step (h : RunInv o d e) (script : Script) (t : TaskId)
    (h' : RunInv o d' (e.step script t).1) : d'.stage.allDone = true ↔ d.stage.allDone = true ∨
      t = 0 ∧ e.findsDrained = true ∧ e.context.isCancelled = false := by
  have hdriver := h'.crew.driver
  rcases h.crew.step_cases script t with ⟨ht, hstep⟩ | ⟨rfl, hm⟩ | ⟨w, ht, hm⟩
  · rw [hstep] at hdriver
    have hd := h.crew.driver.symm.trans hdriver
    cases hd
    have ht0 : t ≠ 0 := fun h0 => by
      rw [h0, hdriver] at ht
      cases ht
    simp [ht0]
  · rw [hm.allDone h.crew.driver hdriver, h.findsDrained_eq, and_assoc]
    simp
  · have hpos := h.crew.pos_of_worker ht
    obtain ⟨-, -, v, -, hothers⟩ := hm.frame ht
    have hd := h.crew.driver.symm.trans ((hothers 0 (Nat.ne_of_lt hpos)).symm.trans hdriver)
    cases hd
    have ht0 : t ≠ 0 := Nat.ne_of_gt hpos
    simp [ht0]

theorem allDone_react (h : RunInv o d e) (script : Script) (event : Event)
    (h' : RunInv o d' (e.react script event)) : d'.stage.allDone = true ↔
      d.stage.allDone = true ∨
        event = .poll 0 ∧ e.findsDrained = true ∧ e.context.isCancelled = false := by
  have hsame : (e.react script event).tasks = e.tasks → (∀ t, event ≠ .poll t) →
      (d'.stage.allDone = true ↔ d.stage.allDone = true ∨
        event = .poll 0 ∧ e.findsDrained = true ∧ e.context.isCancelled = false) := by
    intro htasks hpoll
    have hdriver := h'.crew.driver
    rw [htasks, h.crew.driver] at hdriver
    cases hdriver
    simp [hpoll 0]
  cases event with
  | poll t =>
    have halike := Engine.poll_alike script e t
    have hstep := (h.front t).allDone_step script t (h'.alike ⟨halike.queue.symm, halike.counter.symm,
      halike.context.symm, halike.log.symm, halike.tasks.symm⟩)
    rw [hstep, Event.poll.injEq]
    rfl
  | reply | cancel | pause => exact hsame rfl fun t h => by cases h

theorem driver_eq (h : RunInv o d e) (h' : RunInv o d' e) : d' = d := by
  have hdriver := h'.crew.driver
  rw [h.crew.driver] at hdriver
  cases hdriver
  rfl

/-- What the driver has seen stays seen. -/
theorem allDone_play (hsize : 0 < o.size) (h : RunInv o d e) (hdone : d.stage.allDone = true)
    {events : List Event} (h' : RunInv o d' (e.play script events)) : d'.stage.allDone = true := by
  induction events generalizing d e with
  | nil => rwa [h.driver_eq h']
  | cons event rest ih =>
    obtain ⟨d₁, h₁⟩ := h.react hsize script event
    exact ih h₁ ((h.allDone_react script event h₁).2 (.inl hdone)) h'

/-- A run is cancelled first exactly if it is cancelled and its driver has not seen that everything
is done. -/
theorem cancelledFirst_iff (hsize : 0 < o.size) (h : RunInv o d e) (hopen : d.stage.allDone = false)
    {events : List Event} (h' : RunInv o d' (e.play script events)) :
    e.cancelledFirst script events = true ↔
      (e.play script events).context.isCancelled = true ∧ d'.stage.allDone = false := by
  induction events generalizing d e with
  | nil =>
    rw [h.driver_eq h']
    exact ⟨fun hc => ⟨hc, hopen⟩, fun hc => hc.1⟩
  | cons event rest ih =>
    obtain ⟨d₁, h₁⟩ := h.react hsize script event
    have hone := h.allDone_react script event h₁
    have hopen₁ : (event = .poll 0 → e.findsDrained = true → e.context.isCancelled = true) →
        d₁.stage.allDone = false := by
      intro hnot
      rw [Bool.eq_false_iff]
      intro hdone
      rcases hone.1 hdone with hd | ⟨hevent, hdrained, hc⟩
      · rw [hopen] at hd
        cases hd
      · rw [hnot hevent hdrained] at hc
        cases hc
    have hfirst : e.cancelledFirst script (event :: rest) = (e.context.isCancelled ||
      !(event == .poll 0 && e.findsDrained) &&
        (e.react script event).cancelledFirst script rest) := rfl
    rw [hfirst]
    by_cases hc : e.context.isCancelled = true
    · -- from then on the run is cancelled, whatever happens
      have hrest := ih h₁ (hopen₁ fun _ _ => hc) h'
      have hc₁ := h.isCancelled_react script event hc
      rw [hc, Bool.true_or]
      refine ⟨fun _ => hrest.1 ?_, fun _ => rfl⟩
      exact Engine.cancelledFirst_of_isCancelled hc₁ rest
    · rw [Bool.eq_false_iff.2 hc, Bool.false_or]
      by_cases hdrained : event = .poll 0 ∧ e.findsDrained = true
      · -- the driver has won, and keeps to it
        obtain ⟨rfl, hd⟩ := hdrained
        have hdone₁ := hone.2 (.inr ⟨rfl, hd, Bool.eq_false_iff.2 hc⟩)
        have hdone := h₁.allDone_play hsize hdone₁ h'
        rw [hd, hdone]
        simp
      · have hnot : (event == .poll 0 && e.findsDrained) = false := by
          simpa using hdrained
        rw [hnot]
        refine ih h₁ (hopen₁ fun hevent hd => ?_) h'
        exact absurd ⟨hevent, hd⟩ hdrained

theorem failed_iff (h : RunInv o d e) {how : RunEnd} (hrun : Orchestrator.runEnd? e = some how) :
    (∃ error, how = .failed error) ↔ d.stage.allDone = false := by
  rw [h.runEnd?_eq_some.1 hrun]
  cases how with
  | completed counts shares => simp [Stage.allDone]
  | failed error => simp [Stage.allDone]

theorem transportErrors_eq_zero (h : RunInv o d e) (hpolicy : o.config.failurePolicy = .abort)
    {counts : Snapshot} {shares : List WorkerStats}
    (hrun : Orchestrator.runEnd? e = some (.completed counts shares)) :
    counts.transportErrors = 0 := by
  have hs := h.runEnd?_eq_some.1 hrun
  obtain ⟨rfl, -⟩ := h.report counts shares hs
  have hnone : e.log.countSince o.log CallState.isTransportError = 0 := by
    by_contra herror
    have hopen := (h.stages.failFast hpolicy herror).2
    rw [hs] at hopen
    cases hopen
  exact UInt64.toNat_inj.1 (h.counts.transportErrors.trans hnone)

/-- After a transport error that makes the run abort, the run does not complete. -/
theorem not_completed_play (hsize : 0 < o.size) (h : RunInv o d e)
    (hpolicy : o.config.failurePolicy = .abort)
    (herror : e.log.countSince o.log CallState.isTransportError ≠ 0) (script : Script)
    (events : List Event) (counts : Snapshot) (shares : List WorkerStats) :
    Orchestrator.runEnd? (e.play script events) ≠ some (.completed counts shares) := by
  intro hrun
  obtain ⟨hc, hopen⟩ := h.stages.failFast hpolicy herror
  obtain ⟨d', h'⟩ := h.play hsize script events
  have hfirst := h.cancelledFirst_iff hsize hopen h'
  have hopen' := (hfirst.1 (Engine.cancelledFirst_of_isCancelled hc events)).2
  obtain ⟨error, he⟩ := (h'.failed_iff hrun).2 hopen'
  cases he

/-- The call that ends with the first transport error is the last but those in flight. -/
theorem calls_le_of_error (hsize : 0 < o.size) {before : List Event} {event : Event} {k : Nat}
    (hpolicy : o.config.failurePolicy = .abort)
    (hclean : (o.launch.play script before).log.countSince o.log CallState.isTransportError = 0)
    (herror : (o.launch.play script (before ++ [event])).log.countSince o.log
      CallState.isTransportError ≠ 0)
    (hk : (o.launch.play script (before ++ [event])).log.countSince o.log CallState.isAnswered = k)
    (after : List Event) :
    ((o.launch.play script (before ++ event :: after)).log.since o.log).length ≤ k - 1 + o.size := by
  obtain ⟨d₀, h₀⟩ := exists_runInv hsize script before
  obtain ⟨d₁, h₁⟩ := exists_runInv hsize script (before ++ [event])
  have hbefore := calls_le_play hsize script before
  have hafter := h₁.calls_play hsize script after (h₁.stages.failFast hpolicy herror).1
  rw [← Engine.play_append, List.append_assoc, List.singleton_append] at hafter
  rw [Engine.play_concat] at herror hk hafter
  obtain ⟨hcalls, hanswered⟩ := h₀.error_react script event (by rwa [hclean])
  omega

end RunInv

theorem failed_iff_cancelledFirst {o : Orchestrator} (hsize : 0 < o.size) {script : Script}
    {events : List Event} {how : RunEnd}
    (hrun : Orchestrator.runEnd? (o.launch.play script events) = some how) :
    (∃ error, how = .failed error) ↔ o.launch.cancelledFirst script events = true := by
  obtain ⟨d, hinv⟩ := exists_runInv hsize script events
  rw [hinv.failed_iff hrun, (RunInv.launch o).cancelledFirst_iff hsize rfl hinv]
  refine ⟨fun hopen => ⟨?_, hopen⟩, fun hc => hc.2⟩
  obtain ⟨error, rfl⟩ := (hinv.failed_iff hrun).2 hopen
  obtain ⟨reason, hr, -⟩ := hinv.stages.failed error (hinv.runEnd?_eq_some.1 hrun)
  exact Cancellation.isCancelled_eq.2 ⟨reason, hr⟩

/-- What cancellation says about the end of a run of `o`. -/
structure Verdict (o : Orchestrator) (script : Script) (events : List Event) : Prop where
  failed : ∀ how, Orchestrator.runEnd? (o.launch.play script events) = some how →
    ((∃ error, how = .failed error) ↔ o.launch.cancelledFirst script events = true)
  returns : o.launch.cancelledFirst script events = true →
    (o.launch.play script events).ready = [] →
    ∃ error, Orchestrator.runEnd? (o.launch.play script events) = some (.failed error)
  reason : ∀ error,
    Orchestrator.runEnd? (o.launch.play script events) = some (.failed error) →
    ∃ reason, o.current.reason.or (o.firstReason script o.launch events) = some reason ∧
      error = .ofReason reason
  failFast : o.config.failurePolicy = .abort → ∀ before after, events = before ++ after →
    (o.launch.play script before).log.countSince o.log CallState.isTransportError ≠ 0 →
    ∀ counts shares,
      Orchestrator.runEnd? (o.launch.play script events) ≠ some (.completed counts shares)
  noErrors : o.config.failurePolicy = .abort → ∀ counts shares,
    Orchestrator.runEnd? (o.launch.play script events) = some (.completed counts shares) →
    counts.transportErrors = 0
  calls : o.config.failurePolicy = .abort → ∀ before event after k,
    events = before ++ event :: after →
    (o.launch.play script before).log.countSince o.log CallState.isTransportError = 0 →
    (o.launch.play script (before ++ [event])).log.countSince o.log
      CallState.isTransportError ≠ 0 →
    (o.launch.play script (before ++ [event])).log.countSince o.log CallState.isAnswered = k →
    ((o.launch.play script events).log.since o.log).length ≤ k - 1 + o.size

/-- A run fails exactly if it is cancelled before its driver is polled with the queue drained, and
its error is the first reason to cancel it. Under `FailurePolicy.abort` it does not complete once a
worker has taken an error, and if this is the `k`th answer then hardly more calls are ever made. -/
theorem cancelled_run {o : Orchestrator} (h : o.Valid) (script : Script) (events : List Event) :
    Verdict o script events := by
  have hsize := (Orchestrator.of_validate h.config).1
  have hlaunch := RunInv.launch o
  obtain ⟨d, hinv, hattended⟩ := attended_play hsize script events
  refine ⟨fun how hrun => failed_iff_cancelledFirst hsize hrun, fun hc hready => ?_,
    fun error hrun => ?_, ?_, fun hpolicy _ _ hrun => hinv.transportErrors_eq_zero hpolicy hrun, ?_⟩
  · -- a settled run that is cancelled has returned
    cases hrun : Orchestrator.runEnd? (o.launch.play script events) with
    | none =>
      have hnot := ((hattended.settled hready).of_runEnd?_eq_none hinv hrun).2.1
      rw [((hlaunch.cancelledFirst_iff hsize rfl hinv).1 hc).1] at hnot
      cases hnot
    | some how =>
      obtain ⟨error, rfl⟩ := (failed_iff_cancelledFirst hsize hrun).2 hc
      exact ⟨error, rfl⟩
  · obtain ⟨reason, hr, rfl⟩ := hinv.stages.failed error (hinv.runEnd?_eq_some.1 hrun)
    refine ⟨reason, ?_, rfl⟩
    rw [hlaunch.reason_play hsize script events] at hr
    exact hr
  · rintro hpolicy before after rfl herror
    obtain ⟨d₀, h₀⟩ := exists_runInv hsize script before
    rw [Engine.play_append]
    exact h₀.not_completed_play hsize hpolicy herror script after
  · rintro hpolicy before event after k rfl hclean herror hk
    exact RunInv.calls_le_of_error hsize hpolicy hclean herror hk after

/-- The last of three calls ends with an error, which drains the queue; the user interrupts before
the driver is polled, and too late to change the error of the run. -/
theorem cancelled_run_drained :
    let o := Orchestrator.small .abort
    let script : Script := fun n =>
      if n = 3 then some (.failure ⟨.connect, "refused"⟩) else some (.response 200)
    let before : List Event := [.poll 0, .poll 0, .poll 0, .poll 0, .poll 1, .poll 1, .poll 1,
      .poll 1, .poll 1, .poll 2, .poll 0, .poll 0, .poll 0, .poll 1]
    let events := before ++ .poll 1 :: [.cancel .interrupted, .poll 0]
    let reason : CancelReason := .transportFailure "localhost:80" "connect error: refused"
    o.Valid ∧ (o.launch.play script (before ++ [.poll 1])).queue.drained = true ∧
      Orchestrator.runEnd? (o.launch.play script events) = some (.failed (.ofReason reason)) ∧
      o.current.reason.or (o.firstReason script o.launch events) = some reason ∧
      o.launch.cancelledFirst script events = true ∧
      (∀ counts shares, Orchestrator.runEnd? (o.launch.play script events) ≠
        some (.completed counts shares)) ∧
      ((o.launch.play script events).log.since o.log).length ≤ 3 - 1 + o.size := by
  intro o script before events reason
  have hvalid : o.Valid := Orchestrator.valid_small .abort
  have hdrained : (o.launch.play script (before ++ [.poll 1])).queue.drained = true := by
    decide +kernel
  have hrun : Orchestrator.runEnd? (o.launch.play script events) =
      some (.failed (.ofReason reason)) := by decide +kernel
  have hreason : o.current.reason.or (o.firstReason script o.launch events) = some reason := by
    decide +kernel
  have hclean : (o.launch.play script before).log.countSince o.log
      CallState.isTransportError = 0 := by decide +kernel
  have herror : (o.launch.play script (before ++ [.poll 1])).log.countSince o.log
      CallState.isTransportError ≠ 0 := by decide +kernel
  have hanswered : (o.launch.play script (before ++ [.poll 1])).log.countSince o.log
      CallState.isAnswered = 3 := by decide +kernel
  have hverdict : Verdict o script events := cancelled_run hvalid script events
  have hsplit : events = (before ++ [.poll 1]) ++ [.cancel .interrupted, .poll 0] :=
    (List.append_assoc before [.poll 1] _).symm
  have hfast := hverdict.failFast rfl _ _ hsplit herror
  have hcalls := hverdict.calls rfl before (.poll 1) _ 3 rfl hclean herror hanswered
  exact ⟨hvalid, hdrained, hrun, hreason, (hverdict.failed _ hrun).1 ⟨_, rfl⟩, hfast, hcalls⟩

end LoadGenerator
