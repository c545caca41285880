import LoadGenerator.Proofs.Run.Effort
import LoadGenerator.Proofs.Run.Progress
import Mathlib.Data.List.Perm.Subperm

/-!
# Tasks come to rest

When a task that has been called makes a step, either the moves left are fewer, or the line is
shorter by that task and nobody has been called back. The line never holds more than the tasks of the
run, so moves left and line together are an `effort` that every such step lowers, in whatever order
the tasks take their turns (`AtWork.poll_lt`). Hence no history goes on for ever without something
from outside, and `settle` makes steps enough to reach its end (`run_comes_to_rest`).
-/

namespace LoadGenerator

/-! ### The line -/

/-- Nobody is in line twice, and only tasks are. -/
structure InLine (line : List TaskId) (tasks : List Task) : Prop where
  once : line.Nodup
  known : ∀ t ∈ line, t < tasks.length

namespace InLine

variable {line line' : List TaskId} {tasks tasks' : List Task} {t : TaskId}

theorem sublist (h : InLine line tasks) (hsub : line'.Sublist line) : InLine line' tasks :=
  ⟨h.once.sublist hsub, fun t ht => h.known t (hsub.subset ht)⟩

theorem congr (h : InLine line tasks) (hlen : tasks'.length = tasks.length) : InLine line tasks' :=
  ⟨h.once, fun t ht => hlen ▸ h.known t ht⟩

theorem length_le (h : InLine line tasks) : line.length ≤ tasks.length := by
  have hsub : line.Subperm (List.range tasks.length) :=
    h.once.subperm fun t ht => List.mem_range.2 (h.known t ht)
  simpa using hsub.length_le

theorem enqueue (h : InLine line tasks) (ht : t < tasks.length) :
    InLine (Engine.enqueue line t) tasks := by
  refine ⟨?_, fun u hu => ?_⟩
  · unfold Engine.enqueue
    split
    · exact h.once
    · rename_i hnot
      refine List.nodup_append.2 ⟨h.once, by simp, ?_⟩
      rintro u hu v hv rfl
      exact hnot (List.mem_singleton.1 hv ▸ hu)
  · rcases Engine.mem_enqueue.1 hu with hu | rfl
    · exact h.known u hu
    · exact ht

theorem enqueueAll (h : InLine line tasks) {calls : List TaskId}
    (hcalls : ∀ t ∈ calls, t < tasks.length) : InLine (calls.foldl Engine.enqueue line) tasks := by
  induction calls generalizing line with
  | nil => exact h
  | cons t rest ih =>
    exact ih (h.enqueue (hcalls t List.mem_cons_self)) fun u hu =>
      hcalls u (List.mem_cons_of_mem _ hu)

end InLine

namespace Engine

variable {script : Script} {e : Engine} {t u : TaskId} {w : Worker} {d : RunDriver}
  {r : Engine × Bool}

theorem foldl_enqueue_of_subset {line calls : List TaskId} (h : ∀ t ∈ calls, t ∈ line) :
    calls.foldl enqueue line = line := by
  induction calls with
  | nil => rfl
  | cons t rest ih =>
    rw [List.foldl_cons, enqueue, if_pos (h t List.mem_cons_self)]
    exact ih fun u hu => h u (List.mem_cons_of_mem _ hu)

theorem lt_of_callable (h : Placed e.queue e.tasks) (hu : u ∈ e.callable) : u < e.tasks.length := by
  have hsome : ∃ task, e.tasks[u]? = some task := by
    rcases mem_callable.1 hu with hu | ⟨task, hu, -⟩
    · rcases WorkQueue.mem_line_of_callable hu with hu | hu
      · obtain ⟨d, hd, -⟩ := h.puts u hu
        exact ⟨_, hd⟩
      · obtain ⟨w, hw, -⟩ := h.gets u hu
        exact ⟨_, hw⟩
    · exact ⟨task, hu⟩
  obtain ⟨task, hu⟩ := hsome
  exact (List.getElem?_eq_some_iff.1 hu).1

theorem inLine_callBack (hp : Placed e.queue e.tasks) (h : InLine e.ready e.tasks) :
    InLine e.callBack.ready e.callBack.tasks :=
  h.enqueueAll fun _ ht => lt_of_callable hp (List.mem_filter.1 ht).1

/-- Nobody is late in a run, so at the end of a turn those in line are the others and those who are
called back. -/
theorem ready_endTurn (hlate : e.late = []) :
    e.endTurn.ready = { e with ready := e.ready.drop 1 }.callBack.ready := by
  unfold endTurn callLate
  split
  · simp only [callBack, callable, isEnabled, hlate, List.foldl_nil]
    rfl
  · rfl

theorem inLine_endTurn (hp : Placed e.queue e.tasks) (hlate : e.late = [])
    (h : InLine (e.ready.drop 1) e.tasks) : InLine e.endTurn.ready e.endTurn.tasks := by
  rw [ready_endTurn hlate, (endTurn_alike e).tasks]
  exact inLine_callBack (e := { e with ready := e.ready.drop 1 }) hp h

theorem WorkerMove.inLine (hm : WorkerMove script e t w r) (h : InLine e.ready e.tasks) :
    InLine r.1.ready r.1.tasks := by
  cases hm with
  | rest | await => exact h
  | _ => exact h.congr List.length_set

theorem DriverMove.inLine (hm : DriverMove e t d r) (h : InLine e.ready e.tasks) :
    InLine r.1.ready r.1.tasks := by
  have hgive : ∀ (q : WorkQueue WorkItem) error,
      InLine (({ e with queue := q }).giveUp t d error).ready
        (({ e with queue := q }).giveUp t d error).tasks := by
    intro q error
    rw [giveUp_eq]
    have hmap : (({ e with queue := q }).giveUp t d error).tasks.map Task.movesLeft = _ :=
      movesLeft_abortAll _ _
    have hlen := congrArg List.length hmap
    rw [List.length_map, List.length_map] at hlen
    exact h.congr (hlen.trans List.length_set)
  cases hm with
  | rest | await => exact h
  | refuse | submitted | put | drained | close | complete => exact h.congr List.length_set
  | giveUp => exact hgive e.queue _
  | refused => exact hgive _ _
  | launch =>
    rw [spawnAll_eq]
    have hlen : ∀ d', (e.setTask t (.driver d')).tasks.length = e.tasks.length :=
      fun _ => List.length_set
    refine ⟨List.nodup_append.2 ⟨h.once, List.nodup_range', ?_⟩, fun u hu => ?_⟩
    · rintro u hu v hv rfl
      rw [hlen, List.mem_range'_1] at hv
      exact absurd (h.known u hu) (Nat.not_lt.2 hv.1)
    · rw [List.length_append, hlen]
      rcases List.mem_append.1 hu with hu | hu
      · exact Nat.lt_add_right _ (h.known u hu)
      · rw [hlen, List.mem_range'_1] at hu
        exact hu.2

end Engine

/-! ### A run at work -/

/-- The engine is in a run of `o`, and all who wait or could get further are where they belong. -/
structure AtWork (o : Orchestrator) (e : Engine) : Prop where
  inv : ∃ d, RunInv o d e
  attended : Attended e
  placed : Placed e.queue e.tasks
  line : InLine e.ready e.tasks

/-- What is left to do without anything from outside: the line may fill once for every move. -/
def Engine.effort (size : Nat) (e : Engine) : Nat :=
  e.movesLeft * (size + 2) + e.ready.length

namespace AtWork

variable {o : Orchestrator} {e : Engine} {t : TaskId} {script : Script}

theorem launch (hsize : 0 < o.size) (script : Script) : AtWork o o.launch := by
  obtain ⟨d, hinv, hattended⟩ := attended_play hsize script []
  refine ⟨⟨d, hinv⟩, hattended, .ofCapacity _ _, by simp [Orchestrator.launch, Engine.spawn], ?_⟩
  simp [Orchestrator.launch, Engine.spawn]

theorem length_le (h : AtWork o e) : e.ready.length ≤ o.size + 1 := by
  obtain ⟨d, hinv⟩ := h.inv
  have hline := h.line.length_le
  rcases hinv.crew.length with hl | hl <;> omega

/-- What a step does to the places at the queue, and to the line if there is such a task. -/
theorem step (h : AtWork o e) (script : Script) (t : TaskId) :
    Placed ((e.front t).step script t).1.queue ((e.front t).step script t).1.tasks ∧
      (e.tasks[t]? = none ∧ (e.front t).step script t = (e.front t, false) ∨
        InLine ((e.front t).step script t).1.ready ((e.front t).step script t).1.tasks ∧
          (Engine.Vain (e.front t) t ((e.front t).step script t) ∨
            ((e.front t).step script t).1.movesLeft < e.movesLeft)) := by
  obtain ⟨d, hinv⟩ := h.inv
  have hsound := hinv.accounts.sound
  have hfront : ∀ task, e.tasks[t]? = some task → InLine (e.front t).ready (e.front t).tasks := by
    intro task ht
    have herase := h.line.sublist (List.erase_sublist (a := t))
    refine ⟨List.nodup_cons.2 ⟨h.line.once.not_mem_erase, herase.once⟩, fun u hu => ?_⟩
    rcases List.mem_cons.1 hu with rfl | hu
    · exact (List.getElem?_eq_some_iff.1 ht).1
    · exact herase.known u hu
  rcases (hinv.front t).crew.step_cases script t with ⟨ht, hstep⟩ | ⟨rfl, hm⟩ | ⟨w, ht, hm⟩
  · rw [hstep]
    exact ⟨h.placed, .inl ⟨ht, rfl⟩⟩
  · have hdriver := hinv.crew.driver
    exact ⟨hm.placed hsound h.placed hdriver,
      .inr ⟨hm.inLine (hfront _ hdriver), hm.vain_or_lt h.placed hdriver⟩⟩
  · exact ⟨hm.placed hsound h.placed ht, .inr ⟨hm.inLine (hfront _ ht), hm.vain_or_lt h.placed ht⟩⟩

theorem late_step (h : AtWork o e) (script : Script) (t : TaskId) :
    ((e.front t).step script t).1.late = [] := by
  obtain ⟨d, hinv⟩ := h.inv
  refine ((hinv.front t).stepped h.attended.late rfl fun u task hu => ?_).late
  refine (h.attended.parked u task hu).imp_left fun hu' => ?_
  by_cases hut : u = t
  · exact hut ▸ List.mem_cons_self
  · exact List.mem_cons_of_mem _ ((List.mem_erase_of_ne hut).2 hu')

theorem line_poll (h : AtWork o e) (script : Script) (t : TaskId) :
    InLine (e.poll script t).ready (e.poll script t).tasks := by
  obtain ⟨hplaced, ⟨-, hstep⟩ | ⟨hline, -⟩⟩ := h.step script t
  · rw [Engine.poll_eq, hstep]
    exact Engine.inLine_endTurn h.placed h.attended.late (h.line.sublist List.erase_sublist)
  · rw [Engine.poll_eq]
    split
    · exact Engine.inLine_callBack hplaced hline
    · exact Engine.inLine_endTurn hplaced (h.late_step script t)
        (hline.sublist (List.drop_sublist 1 _))

theorem react (hsize : 0 < o.size) (h : AtWork o e) (script : Script) (event : Event) :
    AtWork o (e.react script event) := by
  obtain ⟨d, hinv⟩ := h.inv
  have hinv' := hinv.react hsize script event
  have hattended : Attended (e.react script event) := hinv.attended_react h.attended event
  cases event with
  | poll t =>
    obtain ⟨hqueue, -, -, -, htasks⟩ := Engine.poll_alike script e t
    refine ⟨hinv', hattended, ?_, h.line_poll script t⟩
    show Placed (e.poll script t).queue (e.poll script t).tasks
    rw [hqueue, htasks]
    exact (h.step script t).1
  | reply call reply =>
    exact ⟨hinv', hattended, h.placed,
      Engine.inLine_callBack (e := { e with log := e.log.reply call reply }) h.placed h.line⟩
  | cancel reason =>
    exact ⟨hinv', hattended, h.placed,
      Engine.inLine_callBack (e := e.cancel reason) h.placed h.line⟩
  | pause => exact ⟨hinv', hattended, h.placed, h.line⟩

theorem play (hsize : 0 < o.size) (h : AtWork o e) (script : Script) (events : List Event) :
    AtWork o (e.play script events) :=
  Engine.play_induction h (fun _ event h => h.react hsize script event) events

/-- A step in vain takes the task out of the line, and nobody is called back. -/
theorem ready_poll_of_vain (h : AtWork o e)
    (hvain : Engine.Vain (e.front t) t ((e.front t).step script t)) :
    (e.poll script t).ready = e.ready.erase t := by
  have hlate := h.late_step script t
  obtain ⟨hstuck, hsame, -, hcallable⟩ := hvain
  have hready : ((e.front t).step script t).1.ready = t :: e.ready.erase t := by rw [hsame]; rfl
  rw [Engine.poll_eq, hstuck, if_neg Bool.false_ne_true, Engine.ready_endTurn hlate, hready]
  refine Engine.foldl_enqueue_of_subset fun u hu => ?_
  obtain ⟨hcall, hne⟩ := hcallable u (List.mem_filter.1 hu).1
  exact (List.mem_erase_of_ne hne).2 (h.attended.called u hcall)

/-- A step of a task that has been called lowers the effort. -/
theorem poll_lt (hsize : 0 < o.size) (h : AtWork o e) (script : Script) (ht : t ∈ e.ready) :
    (e.poll script t).effort o.size < e.effort o.size := by
  have hlen := (h.react hsize script (.poll t)).length_le
  obtain ⟨hqueue, -, -, -, htasks⟩ := Engine.poll_alike script e t
  have hmoves : (e.poll script t).movesLeft = ((e.front t).step script t).1.movesLeft := by
    rw [Engine.movesLeft, hqueue, htasks]
    rfl
  have hlen : (e.poll script t).ready.length ≤ o.size + 1 := hlen
  unfold Engine.effort
  rw [hmoves]
  rcases (h.step script t).2 with ⟨hnone, -⟩ | ⟨-, hvain | hlt⟩
  · have hlt := h.line.known t ht
    rw [List.getElem?_eq_getElem hlt] at hnone
    cases hnone
  · rw [h.ready_poll_of_vain hvain, hvain.same]
    have herase := List.length_erase_of_mem ht
    have hpos := List.length_pos_of_mem ht
    have hsame : ({ e.front t with queue := ((e.front t).step script t).1.queue } : Engine).movesLeft =
        e.movesLeft := by
      rw [Engine.movesLeft, hvain.buffer]
      rfl
    rw [hsame]
    omega
  · have hfull : (((e.front t).step script t).1.movesLeft + 1) * (o.size + 2) ≤
        e.movesLeft * (o.size + 2) := Nat.mul_le_mul_right _ hlt
    rw [Nat.succ_mul] at hfull
    omega

end AtWork

/-! ### Enough steps -/

namespace Engine

variable {e : Engine} {script : Script}

theorem total_eq_sum (e : Engine) (measure : Task → Nat) :
    e.total measure = (e.tasks.map measure).sum := by
  unfold total
  induction e.tasks with
  | nil => rfl
  | cons task rest ih => rw [List.foldr_cons, ih, List.map_cons, List.sum_cons]

theorem movesLeft_le_steps (task : Task) :
    task.movesLeft ≤ 4 * itemsToPut task + ownSteps task := by
  cases task with
  | worker w =>
    have hw : w.movesLeft ≤ 2 := by
      unfold Worker.movesLeft
      split <;> omega
    exact Nat.le_trans hw (by simp [ownSteps])
  | driver d =>
    have hd : d.stage.movesLeft d.size ≤ d.size + 5 := by
      unfold Stage.movesLeft
      split <;> omega
    simp only [Task.movesLeft, itemsToPut, ownSteps]
    omega
  | producer | joiner | shutdown => exact Nat.zero_le _

theorem movesLeft_le (e : Engine) :
    e.movesLeft ≤ 4 * (e.total itemsToPut + e.queue.buffer.length) + e.total ownSteps := by
  have htasks : (e.tasks.map Task.movesLeft).sum ≤ 4 * e.total itemsToPut + e.total ownSteps := by
    rw [total_eq_sum, total_eq_sum]
    induction e.tasks with
    | nil => exact Nat.le_refl 0
    | cons task rest ih =>
      have := movesLeft_le_steps task
      simp only [List.map_cons, List.sum_cons]
      omega
  unfold movesLeft
  omega

/-- `settle` allows for all steps that are left. -/
theorem effort_le_stepsLeft {d : RunDriver} {size : Nat} (ht : e.tasks[0]? = some (.driver d))
    (hsize : d.size = size) : e.effort size ≤ e.stepsLeft := by
  have hmoves := e.movesLeft_le
  have hcome : size + 1 ≤ e.total tasksToCome := by
    rw [total_eq_sum]
    have hmem := List.mem_map_of_mem (f := tasksToCome) (List.mem_of_getElem? ht)
    have hle := List.single_le_sum (fun _ _ => Nat.zero_le _) _ hmem
    rw [← hsize]
    exact hle
  unfold effort stepsLeft
  have hle : e.movesLeft * (size + 2) ≤
      (4 * (e.total itemsToPut + e.queue.buffer.length) + e.total ownSteps + 1) *
        (e.total tasksToCome + 2) := Nat.mul_le_mul (by omega) (by omega)
  simp only
  omega

theorem movesLeft_lt_stepsLeft (e : Engine) : e.movesLeft < e.stepsLeft := by
  have hmoves := e.movesLeft_le
  unfold stepsLeft
  have hle : (4 * (e.total itemsToPut + e.queue.buffer.length) + e.total ownSteps + 1) * 1 ≤
      (4 * (e.total itemsToPut + e.queue.buffer.length) + e.total ownSteps + 1) *
        (e.total tasksToCome + 2) := Nat.mul_le_mul_left _ (by omega)
  simp only
  omega

/-- Each of some tasks has been called when it makes its step. -/
def Woken (script : Script) (e : Engine) : List TaskId → Prop
  | [] => True
  | t :: ts => t ∈ e.ready ∧ (e.poll script t).Woken script ts

/-- Some tasks make steps, one after the other. -/
def pollAll (script : Script) (e : Engine) (ts : List TaskId) : Engine :=
  ts.foldl (poll script) e

theorem pollAll_eq_play (script : Script) (e : Engine) (ts : List TaskId) :
    e.pollAll script ts = e.play script (ts.map .poll) := by
  unfold pollAll play
  rw [List.foldl_map]
  rfl

/-- Whatever their order, the steps of tasks that have been called come to an end, at the latest after
`stepsLeft`; then nobody could get further, and it is where `settle` gets to. -/
structure ComesToRest (script : Script) (e : Engine) : Prop where
  bounded : ∀ ts, e.Woken script ts → ts.length ≤ e.stepsLeft
  still : ∀ ts, (e.pollAll script ts).ready = [] →
    ∀ t, (e.pollAll script ts).step script t = (e.pollAll script ts, false)
  settles : (e.settle script).ready = []
  settled : ∀ t, (e.settle script).step script t = (e.settle script, false)

end Engine

namespace AtWork

variable {o : Orchestrator} {e : Engine} {script : Script}

theorem effort_le (h : AtWork o e) : e.effort o.size ≤ e.stepsLeft := by
  obtain ⟨d, hinv⟩ := h.inv
  exact Engine.effort_le_stepsLeft hinv.crew.driver hinv.crew.size

theorem length_le_effort (hsize : 0 < o.size) (h : AtWork o e) (ts : List TaskId)
    (hts : e.Woken script ts) : ts.length ≤ e.effort o.size := by
  induction ts generalizing e with
  | nil => exact Nat.zero_le _
  | cons t ts ih =>
    have hlt := h.poll_lt hsize script hts.1
    have hle : ts.length ≤ (e.poll script t).effort o.size :=
      ih (h.react hsize script (.poll t)) hts.2
    rw [List.length_cons]
    omega

theorem ready_run (hsize : 0 < o.size) (h : AtWork o e) (fuel : Nat)
    (hfuel : e.effort o.size ≤ fuel) :
    (e.run script fuel).ready = [] := by
  induction fuel generalizing e with
  | zero =>
    unfold Engine.effort at hfuel
    exact List.length_eq_zero_iff.1 (Nat.eq_zero_of_add_eq_zero_left (Nat.le_zero.1 hfuel))
  | succ fuel ih =>
    unfold Engine.run
    cases hready : e.ready with
    | nil => exact hready
    | cons t rest =>
      have ht : t ∈ e.ready := by
        rw [hready]
        exact List.mem_cons_self
      have hlt := h.poll_lt hsize script ht
      have hrun := ih (h.react hsize script (.poll t)) (Nat.le_of_lt_succ (hlt.trans_le hfuel))
      rwa [Engine.react, ← Engine.tick_eq_poll hready] at hrun

theorem step_eq (h : AtWork o e) (hready : e.ready = []) (script : Script) (t : TaskId) :
    e.step script t = (e, false) := by
  obtain ⟨d, hinv⟩ := h.inv
  exact (h.attended.settled hready).step_eq hinv script t

theorem comesToRest (hsize : 0 < o.size) (h : AtWork o e) (script : Script) :
    e.ComesToRest script := by
  have hsettle : AtWork o (e.settle script) ∧ (e.settle script).ready = [] := by
    have hpause := h.react hsize script .pause
    obtain ⟨events, -, hplay⟩ := Engine.calmly_run script e.stepsLeft { e with turns := 0 }
    have hrun : (({ e with turns := 0 } : Engine).run script e.stepsLeft).ready = [] :=
      hpause.ready_run hsize _ h.effort_le
    refine ⟨?_, hrun⟩
    show AtWork o (({ e with turns := 0 } : Engine).run script e.stepsLeft)
    rw [hplay]
    exact hpause.play hsize script events
  refine ⟨fun ts hts => ?_, fun ts hready => ?_, hsettle.2, hsettle.1.step_eq hsettle.2 script⟩
  · exact (h.length_le_effort hsize ts hts).trans h.effort_le
  · refine step_eq (o := o) ?_ hready script
    rw [Engine.pollAll_eq_play]
    exact h.play hsize script _

end AtWork

/-- From whatever a run has come to, whether the transport answers at once or not, its tasks come to
rest. -/
theorem run_comes_to_rest {o : Orchestrator} {e : Engine} (hstart : o.engine = .ok e)
    (script : Script) (events : List Event) : (e.play script events).ComesToRest script := by
  obtain ⟨hsize, rfl⟩ := Orchestrator.of_engine_eq_ok hstart
  exact ((AtWork.launch hsize script).play hsize script events).comesToRest hsize script

/-- The first worker has been answered at once, the second one has not begun, and the driver has been
granted the slot of the first item. -/
theorem run_comes_to_rest_answered :
    let o := Orchestrator.small .goOn
    let script : Script := fun _ => some (.response 200)
    let events : List Event := [.poll 0, .poll 0, .poll 0, .poll 0, .poll 1]
    o.engine = .ok o.launch ∧ (o.launch.play script events).ready = [1, 2, 0] ∧
      (o.launch.play script events).log.inFlight = [1] ∧
      (o.launch.play script events).ComesToRest script := by
  intro o script events
  have hstart : o.engine = .ok o.launch :=
    Orchestrator.engine_eq_launch (Orchestrator.valid_small .goOn).config
  exact ⟨hstart, by decide +kernel, by decide +kernel, run_comes_to_rest hstart script events⟩

end LoadGenerator
