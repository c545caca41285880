import LoadGenerator.Bench
import LoadGenerator.Proofs.Engine.WindingDown
import LoadGenerator.Proofs.Run.Progress

/-!
# No work after a cancellation

Once a run is cancelled its workers get nothing more to do, and when the run has returned, or the
pool has been told to drop everything, they do not even finish what they have begun
(`no_work_after_cancellation`). A run that fails tells all of its workers to drop everything, so
that all of its tasks are at rest (`atRest_play`).
-/

namespace LoadGenerator

namespace Engine

variable {script : Script} {e e' : Engine} {t : TaskId} {w : Worker} {r : Engine × Bool}

theorem allAtRest_giveUp {o : Orchestrator} {d : RunDriver} (h : Crew o d e.tasks)
    (hs : d.stage ≠ .starting) (error : Error) : AllAtRest (e.giveUp 0 d error) := by
  refine allAtRest_abortAll fun t task ht => ?_
  have hset : (e.tasks.set 0 (.driver { d with stage := .over (.failed error) }))[t]? = some task :=
    ht
  rw [getElem?_set_task h.driver] at hset
  split at hset
  · cases hset
    exact .inl ⟨_, rfl⟩
  · obtain ⟨w, rfl, -⟩ := h.worker t task (Nat.pos_of_ne_zero ‹_›) hset
    exact .inr ⟨(h.mem_members hs).2 ⟨w, hset⟩, w, rfl⟩

/-- A worker that looks for an item after a cancellation ends with its next step. -/
theorem WorkerMove.exit (hm : WorkerMove script e t w r) (ht : e.tasks[t]? = some (.worker w))
    (hc : e.context.isCancelled = true) (hw : w.phase = .seeking) :
    ∃ v, r.1.tasks[t]? = some (.worker v) ∧ v.hasEnded = true ∧
      ∀ x, v.stats.get x = w.stats.get x := by
  have hcalling : ∀ {call}, w.phase = .calling call → False := by
    intro call hcall
    rw [hw] at hcall
    cases hcall
  cases hm with
  | rest h =>
    rcases h with h | ⟨-, call, hcall, -⟩
    · rw [(Worker.of_seeking hw).1] at h
      cases h
    · exact (hcalling hcall).elim
  | dropPlace => exact ⟨_, getElem?_set_same ht _, rfl, fun x => WorkerStats.get_stop _ 0 x⟩
  | quit =>
    exact ⟨_, getElem?_set_same ht _, rfl, fun x =>
      (WorkerStats.get_stop _ 0 x).trans (WorkerStats.get_start _ 0 x)⟩
  | await _ _ hopen | retire _ _ hopen | start _ _ hopen =>
    rw [hc] at hopen
    cases hopen
  | dropCall hcall | lose hcall | answer hcall | blunder hcall => exact (hcalling hcall).elim

end Engine

namespace RunInv

variable {o : Orchestrator} {d : RunDriver} {e : Engine} {script : Script}

theorem atRest_driver {r : Engine × Bool} (hsize : 0 < o.size) (h : RunInv o d e)
    (hrest : d.stage.hasFailed = true → e.AllAtRest) (hm : Engine.DriverMove e 0 d r)
    {d' : RunDriver} (hd' : r.1.tasks[0]? = some (.driver d'))
    (hfailed : d'.stage.hasFailed = true) : r.1.AllAtRest := by
  have hset : ∀ d'', (e.tasks.set 0 (.driver d''))[0]? = some (.driver d') → d' = d'' :=
    fun _ hd => Task.driver.inj (eq_of_getElem?_set hd)
  cases hm with
  | rest =>
    rw [h.crew.driver] at hd'
    cases hd'
    exact hrest hfailed
  | refuse _ h0 =>
    have := h.crew.size
    omega
  | launch =>
    rw [Engine.spawnAll_eq] at hd'
    have hlt : 0 < (e.tasks.set 0 (.driver { d with
        members := e.nextIds d.size, stage := .submitting })).length := by
      rw [List.length_set]
      exact (List.getElem?_eq_some_iff.1 h.crew.driver).1
    rw [hset _ ((List.getElem?_append_left hlt).symm.trans hd')] at hfailed
    cases hfailed
  | await =>
    rw [h.crew.driver] at hd'
    cases hd'
    exact hrest hfailed
  | put hs =>
    rw [hset _ hd', hs] at hfailed
    cases hfailed
  | submitted | drained | close | complete =>
    rw [hset _ hd'] at hfailed
    cases hfailed
  | giveUp hs =>
    refine Engine.allAtRest_giveUp h.crew ?_ _
    rcases hs with hs | hs <;> simp [hs]
  | @refused queue fault hs =>
    have hcrew : Crew o d ({ e with queue } : Engine).tasks := h.crew
    exact Engine.allAtRest_giveUp hcrew (by simp [hs]) _

theorem atRest_step (hsize : 0 < o.size) (h : RunInv o d e)
    (hrest : d.stage.hasFailed = true → e.AllAtRest) (script : Script) (t : TaskId)
    {d' : RunDriver} (hd' : (e.step script t).1.tasks[0]? = some (.driver d'))
    (hfailed : d'.stage.hasFailed = true) : (e.step script t).1.AllAtRest := by
  rcases h.crew.step_cases script t with ⟨-, hstep⟩ | ⟨rfl, hm⟩ | ⟨w, ht, hm⟩
  · rw [hstep] at hd' ⊢
    rw [h.crew.driver] at hd'
    cases hd'
    exact hrest hfailed
  · exact h.atRest_driver hsize hrest hm hd' hfailed
  · obtain ⟨-, -, -, -, hothers⟩ := hm.frame ht
    rw [hothers 0 (Nat.ne_of_lt (h.crew.pos_of_worker ht)), h.crew.driver] at hd'
    cases hd'
    exact Engine.TaskMove.allAtRest (hrest hfailed) (.worker ht hm)

end RunInv

/-- When a run has failed, all of its tasks are at rest. -/
theorem atRest_play {o : Orchestrator} (hsize : 0 < o.size) (script : Script)
    (events : List Event) : ∃ d, RunInv o d (o.launch.play script events) ∧
      (d.stage.hasFailed = true → (o.launch.play script events).AllAtRest) := by
  refine Engine.play_induction
    (P := fun e => ∃ d, RunInv o d e ∧ (d.stage.hasFailed = true → e.AllAtRest))
    ⟨_, RunInv.launch o, fun hfailed => by cases hfailed⟩ ?_ events
  rintro e event ⟨d, h, hrest⟩
  obtain ⟨d', h'⟩ := h.react hsize script event
  refine ⟨d', h', fun hfailed => ?_⟩
  cases event with
  | poll t =>
    have hd' := h'.crew.driver
    have hrest' : d.stage.hasFailed = true → (e.front t).AllAtRest := hrest
    show (e.poll script t).AllAtRest
    change (e.poll script t).tasks[0]? = _ at hd'
    unfold Engine.AllAtRest
    rw [(Engine.poll_alike script e t).tasks] at hd' ⊢
    exact (h.front t).atRest_step hsize hrest' script t hd' hfailed
  | reply | cancel | pause =>
    have hsame : some (Task.driver d') = some (.driver d) :=
      h'.crew.driver.symm.trans h.crew.driver
    cases hsame
    exact hrest hfailed

/-- In a settled run that is cancelled all workers have ended. -/
theorem Settled.hasEnded {o : Orchestrator} {d : RunDriver} {e : Engine} (h : Settled e)
    (hinv : RunInv o d e) (hrest : d.stage.hasFailed = true → e.AllAtRest)
    (hc : e.context.isCancelled = true) {t : TaskId} {w : Worker}
    (ht : e.tasks[t]? = some (.worker w)) : w.hasEnded = true := by
  cases hrun : Orchestrator.runEnd? e with
  | none =>
    have hopen := (h.of_runEnd?_eq_none hinv hrun).2.1
    rw [hc] at hopen
    cases hopen
  | some how =>
    have hover := hinv.runEnd?_eq_some.1 hrun
    cases how with
    | completed counts shares => exact hinv.endings.completed counts shares t w hover ht
    | failed error =>
      have hfailed : d.stage.hasFailed = true := by rw [hover]; rfl
      refine (hrest hfailed t _ ht).elim id fun ha => ?_
      -- a worker that has been told to drop everything could get further
      have henabled := h.isEnabled_eq_false ht
      unfold Engine.isEnabled at henabled
      cases hp : w.phase with
      | ended how => rw [Worker.hasEnded, hp]
      | seeking | calling =>
        simp only [hp, ha, Bool.true_or] at henabled
        cases henabled

/-- What a run keeps to once it has been cancelled, as compared with how it was at a moment since
then. -/
structure Dismissed (script : Script) (e e' : Engine) : Prop extends e.WindingDown e' where
  exits : ∀ (t : TaskId) w, e'.tasks[t]? = some (.worker w) → w.phase = .seeking →
    ∃ v, (e'.poll script t).tasks[t]? = some (.worker v) ∧ v.hasEnded = true ∧
      ∀ x, v.stats.get x = w.stats.get x
  gone : e'.ready = [] → ∀ (t : TaskId) w, e'.tasks[t]? = some (.worker w) → w.hasEnded = true

/-- Nothing is counted, started or marked as done any more, and no worker does anything but drop
what it has. -/
structure Stopped (e e' : Engine) : Prop where
  counter : e'.counter = e.counter
  calls : e'.log.size = e.log.size
  outstanding : e'.queue.outstanding = e.queue.outstanding
  workers : ∀ (t : TaskId) w, e.tasks[t]? = some (.worker w) →
    ∃ v, e'.tasks[t]? = some (.worker v) ∧ w.Dropped v

theorem Crew.putsMade_eq_zero {o : Orchestrator} {d : RunDriver} {tasks : List Task}
    (h : Crew o d tasks) : putsMade tasks = 0 := by
  refine List.sum_eq_zero fun n hn => ?_
  obtain ⟨task, htask, rfl⟩ := List.mem_map.1 hn
  obtain ⟨t, ht⟩ := List.getElem?_of_mem htask
  rcases h.cases t with hnone | ⟨-, hdriver⟩ | ⟨w, hw⟩
  · rw [ht] at hnone
    cases hnone
  · rw [ht] at hdriver
    cases hdriver
    rfl
  · rw [ht] at hw
    cases hw
    rfl

section Runs

variable {o : Orchestrator} {script : Script} {before : List Event}

theorem dismissed_play (hsize : 0 < o.size)
    (hc : (o.launch.play script before).context.isCancelled = true) (more : List Event) :
    Dismissed script (o.launch.play script before)
      ((o.launch.play script before).play script more) := by
  obtain ⟨d, hinv⟩ := exists_runInv hsize script before
  have hwinding : Engine.WindingDown _ ((o.launch.play script before).play script more) :=
    Engine.windingDown_play hc hinv.links.apart more
  refine ⟨hwinding, fun t w ht hw => ?_, fun hready t w ht => ?_⟩
  · rw [(Engine.poll_alike script _ t).tasks]
    have hmove := (Engine.step_move script (Engine.front _ t) t).worker_at ht
    rcases hmove with ⟨-, hm⟩ | ⟨hne, -⟩
    · exact hm.exit ht hwinding.cancelled hw
    · exact absurd rfl hne
  · have hcancelled := hwinding.cancelled
    rw [← Engine.play_append] at hready ht hcancelled
    obtain ⟨d', hinv', hattended⟩ := attended_play hsize script (before ++ more)
    obtain ⟨d'', hinv'', hrest⟩ := atRest_play hsize script (before ++ more)
    exact (hattended.settled hready).hasEnded hinv'' hrest hcancelled ht

theorem stopped_play (hsize : 0 < o.size) {error : Error}
    (hrun : Orchestrator.runEnd? (o.launch.play script before) = some (.failed error))
    (more : List Event) :
    Stopped (o.launch.play script before) ((o.launch.play script before).play script more) := by
  obtain ⟨d, hinv, hrest⟩ := atRest_play hsize script before
  have hfailed : d.stage.hasFailed = true := by
    rw [hinv.runEnd?_eq_some.1 hrun]
    rfl
  obtain ⟨d', hinv'⟩ := exists_runInv hsize script (before ++ more)
  rw [Engine.play_append] at hinv'
  obtain ⟨hcounter, hcalls, hout⟩ := Engine.standstill_play (hrest hfailed) script more
  rw [hinv.crew.putsMade_eq_zero, hinv'.crew.putsMade_eq_zero] at hout
  exact ⟨hcounter, hcalls, hout, fun t w ht => Engine.dropped_play ht (hrest hfailed t _ ht) more⟩

end Runs

/-- The workers of a pool are told to drop everything: what they do not do from then on, and what
nobody does if they are the only ones who work. -/
structure Disbanded (b : Bench) (members : List TaskId) (e' : Engine) : Prop where
  workers : ∀ t ∈ members, ∀ w, b.engine.tasks[t]? = some (.worker w) →
    ∃ v, e'.tasks[t]? = some (.worker v) ∧ w.Dropped v
  standstill : (∀ (t : TaskId) task, b.engine.tasks[t]? = some task →
    task.AtRest ∨ t ∈ members ∧ ∃ w, task = .worker w) → b.engine.Standstill e'

theorem Bench.disbanded {b : Bench} {members : List TaskId} (hpool : b.pool = some members)
    (script : Script) (more : List Event) :
    Disbanded b members (b.dropPool.engine.play script more) := by
  have hdrop : b.dropPool.engine = (b.engine.abortAll members).callBack := by
    unfold Bench.dropPool
    rw [hpool]
    rfl
  have halike := Engine.callBack_alike (b.engine.abortAll members)
  rw [← hdrop] at halike
  refine ⟨fun t ht w hw => ?_, fun hothers => ?_⟩
  · obtain ⟨v, hv, hdropped⟩ := Engine.dropped_abortAll ht hw
    rw [← halike.tasks] at hv
    have hplay : ∃ v', (b.dropPool.engine.play script more).tasks[t]? = some (.worker v') ∧
        v.Dropped v' := Engine.dropped_play hv hdropped.rests more
    obtain ⟨v', hv', hdropped'⟩ := hplay
    exact ⟨v', hv', hdropped.trans hdropped'⟩
  · have hrest : b.dropPool.engine.AllAtRest := by
      unfold Engine.AllAtRest
      rw [halike.tasks]
      exact Engine.allAtRest_abortAll hothers
    have hstill := (Engine.standstill_abortAll b.engine members).trans halike.standstill
    exact hstill.trans (Engine.standstill_play hrest script more)

/-- After a run has been cancelled no item is taken, no call is started, and every worker records at
most the outcome of the call that it is in, and ends. After a pool has been told to drop everything,
or a run has returned with an error, not even this happens. -/
theorem no_work_after_cancellation {o : Orchestrator} {start : Engine}
    (hstart : o.engine = .ok start) (script : Script) (before more : List Event) :
    ((start.play script before).context.isCancelled = true →
      Dismissed script (start.play script before)
        ((start.play script before).play script more)) ∧
    (∀ error, Orchestrator.runEnd? (start.play script before) = some (.failed error) →
      Stopped (start.play script before) ((start.play script before).play script more)) ∧
    ∀ (b : Bench) members, b.pool = some members → ∀ action ∈ [Bench.Action.abort, .dropPool],
      Disbanded b members ((b.act action).1.engine.play script more) := by
  obtain ⟨hsize, rfl⟩ := Orchestrator.of_engine_eq_ok hstart
  refine ⟨fun hc => dismissed_play hsize hc more, fun error hrun => stopped_play hsize hrun more,
    fun b members hpool action haction => ?_⟩
  have hact : (b.act action).1 = b.dropPool := by
    simp only [List.mem_cons, List.not_mem_nil, or_false] at haction
    rcases haction with rfl | rfl <;> rfl
  rw [hact]
  exact b.disbanded hpool script more

/-- The first worker has its reply when the run is cancelled, and records it before the driver gives
up; the second one gets its reply too late. -/
theorem no_work_after_cancellation_late_reply :
    let o := Orchestrator.small .goOn
    let script : Script := fun _ => none
    let before : List Event := [.poll 0, .poll 0, .poll 0, .poll 1, .poll 2,
      .reply 1 (.response 200), .cancel .interrupted]
    let more : List Event := [.poll 1, .poll 1, .poll 0]
    let late : List Event := [.reply 2 (.response 200), .poll 2, .poll 1, .poll 0]
    let b := ((⟨{ queue := .ofCapacity 1 }, none, []⟩ : Bench).start 2 .goOn
      [.transport, .counter, .context]).1
    o.engine = .ok o.launch ∧ (o.launch.play script before).context.isCancelled = true ∧
      Dismissed script (o.launch.play script before)
        ((o.launch.play script before).play script more) ∧
      (o.launch.play script (before ++ more)).counter.successes = 1 ∧
      Orchestrator.runEnd? (o.launch.play script (before ++ more)) =
        some (.failed (.ofReason .interrupted)) ∧
      Stopped (o.launch.play script (before ++ more))
        ((o.launch.play script (before ++ more)).play script late) ∧
      b.pool = some [0, 1] ∧ Disbanded b [0, 1] ((b.act .abort).1.engine.play script late) := by
  intro o script before more late b
  have hstart : o.engine = .ok o.launch :=
    Orchestrator.engine_eq_launch (Orchestrator.valid_small .goOn).config
  have hcancelled : (o.launch.play script before).context.isCancelled = true := by decide +kernel
  have hrun : Orchestrator.runEnd? (o.launch.play script (before ++ more)) =
      some (.failed (.ofReason .interrupted)) := by decide +kernel
  have hdismissed := (no_work_after_cancellation hstart script before more).1 hcancelled
  have hstopped := (no_work_after_cancellation hstart script (before ++ more) late).2.1 _ hrun
  have hdisbanded := (no_work_after_cancellation hstart script [] late).2.2 b [0, 1] rfl .abort
    List.mem_cons_self
  exact ⟨hstart, hcancelled, hdismissed, by decide +kernel, hrun, hstopped, rfl, hdisbanded⟩

end LoadGenerator
