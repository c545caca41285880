import LoadGenerator.Proofs.Run.Invariant

/-!
# Nobody is forgotten

A task that is not in line must not be able to get further. `Attended` says why none is: whoever
could get further stands in line, and every other task is `Parked`, which for a worker or a driver
that waits at the queue means that the queue has its ticket. A step puts its task aside only when it
is parked (`Stepped`), and a dealing of one participant leaves the tickets of the others where they
are; so every history of a run keeps `Attended` (`attended_play`).
-/

namespace LoadGenerator

/-- A task that may stand aside: if it waits at the queue, then under its ticket. -/
def Parked (q : WorkQueue WorkItem) (t : TaskId) : Task → Prop
  | .worker w => w.phase = .seeking → q.Getting t
  | .driver d => d.stage ≠ .starting ∧ d.stage ≠ .closing ∧
      (d.stage = .submitting → d.source.remaining ≠ 0 ∧ q.Putting t)
  | _ => True

/-- Whoever could get further is in line, and so is everybody else who is not parked. -/
structure Attended (e : Engine) : Prop where
  late : e.late = []
  called : ∀ t ∈ e.callable, t ∈ e.ready
  parked : ∀ (t : TaskId) task, e.tasks[t]? = some task → t ∈ e.ready ∨ Parked e.queue t task

/-- What the step of the first task in line leaves: the others are in line or parked, and so is the
task itself if it cannot get further. -/
structure Stepped (t : TaskId) (r : Engine × Bool) : Prop where
  late : r.1.late = []
  others : ∃ rest, r.1.ready = t :: rest ∧
    ∀ (u : TaskId) task, u ≠ t → r.1.tasks[u]? = some task → u ∈ rest ∨ Parked r.1.queue u task
  stuck : r.2 = false → ∀ task, r.1.tasks[t]? = some task → Parked r.1.queue t task

namespace Engine

variable {script : Script} {e : Engine} {t u : TaskId} {w : Worker} {d : RunDriver}
  {r : Engine × Bool}

theorem mem_enqueue {line : List TaskId} : u ∈ enqueue line t ↔ u ∈ line ∨ u = t := by
  unfold enqueue
  split
  · constructor
    · exact .inl
    · rintro (h | rfl)
      · exact h
      · assumption
  · rw [List.mem_append, List.mem_singleton]

theorem mem_foldl_enqueue {line calls : List TaskId} :
    u ∈ calls.foldl enqueue line ↔ u ∈ line ∨ u ∈ calls := by
  induction calls generalizing line with
  | nil => simp
  | cons t rest ih =>
    rw [List.foldl_cons, ih, mem_enqueue, List.mem_cons, or_assoc]

/-! ### Calling back -/

theorem attended_callBack (hlate : e.late = [])
    (hparked : ∀ (t : TaskId) task, e.tasks[t]? = some task → t ∈ e.ready ∨ Parked e.queue t task) :
    Attended e.callBack := by
  have hmem : ∀ u, u ∈ e.callBack.ready ↔ u ∈ e.ready ∨ u ∈ e.callable := by
    intro u
    unfold callBack
    simp [mem_foldl_enqueue, hlate]
  refine ⟨hlate, fun u hu => (hmem u).2 (.inr hu), fun u task hu => ?_⟩
  rcases hparked u task hu with h | h
  · exact .inl ((hmem u).2 (.inl h))
  · exact .inr h

theorem attended_callLate (h : Attended e) : Attended e.callLate := by
  unfold callLate
  split
  · rw [h.late]
    exact ⟨rfl, h.called, h.parked⟩
  · exact h

theorem attended_endTurn {rest : List TaskId} (hlate : e.late = []) (hready : e.ready = t :: rest)
    (hparked : ∀ (u : TaskId) task, e.tasks[u]? = some task → u ∈ rest ∨ Parked e.queue u task) :
    Attended e.endTurn := by
  unfold endTurn
  rw [hready]
  exact attended_callLate (attended_callBack hlate hparked)

end Engine

/-- After its step a task stays first in line, or it leaves the line. -/
theorem Stepped.attended {t : TaskId} {r : Engine × Bool} (h : Stepped t r) :
    Attended (if r.2 then r.1.callBack else r.1.endTurn) := by
  obtain ⟨rest, hready, hothers⟩ := h.others
  cases hr : r.2 with
  | true =>
    rw [if_pos rfl]
    refine Engine.attended_callBack h.late fun u task hu => ?_
    rw [hready]
    by_cases hut : u = t
    · exact .inl (hut ▸ List.mem_cons_self)
    · exact (hothers u task hut hu).imp_left (List.mem_cons_of_mem _)
  | false =>
    refine Engine.attended_endTurn h.late hready fun u task hu => ?_
    by_cases hut : u = t
    · subst hut
      exact .inr (h.stuck hr task hu)
    · exact hothers u task hut hu

/-! ### Steps -/

namespace Engine

variable {script : Script} {e : Engine} {t u : TaskId} {w : Worker} {d : RunDriver}
  {r : Engine × Bool} {rest : List TaskId}

theorem WorkerMove.dealing (hm : WorkerMove script e t w r) : e.queue.Dealing t r.1.queue := by
  cases hm with
  | rest | dropCall | lose | blunder => exact .refl e.queue t
  | dropPlace | quit => exact (WorkQueue.leave_dealing e.queue t).1
  | await _ _ _ hq => exact (WorkQueue.get_waiting hq).1
  | retire _ _ _ hq => exact (WorkQueue.get_none hq).1
  | start _ _ _ hq => exact (WorkQueue.get_some hq).1
  | answer _ _ _ _ hq => exact .markDone hq t

/-- A worker changes no task but itself, and not the line. -/
theorem WorkerMove.frame (hm : WorkerMove script e t w r) (ht : e.tasks[t]? = some (.worker w)) :
    r.1.ready = e.ready ∧ r.1.late = e.late ∧
      ∃ v, r.1.tasks[t]? = some (.worker v) ∧ ∀ u, u ≠ t → r.1.tasks[u]? = e.tasks[u]? := by
  have hset : ∀ v, (e.tasks.set t (.worker v))[t]? = some (.worker v) ∧
      ∀ u, u ≠ t → (e.tasks.set t (.worker v))[u]? = e.tasks[u]? := by
    intro v
    exact ⟨getElem?_set_same ht _, fun u hu => getElem?_set_of_ne hu⟩
  cases hm with
  | rest | await => exact ⟨rfl, rfl, w, ht, fun _ _ => rfl⟩
  | _ => exact ⟨rfl, rfl, _, hset _⟩

/-- A worker that cannot get further waits at the queue under its ticket, or not at all. -/
theorem WorkerMove.stuck (hm : WorkerMove script e t w r) (ht : e.tasks[t]? = some (.worker w))
    (hr : r.2 = false) {v : Worker} (hv : r.1.tasks[t]? = some (.worker v))
    (hp : v.phase = .seeking) : r.1.queue.Getting t := by
  have hset : ∀ v', (e.tasks.set t (.worker v'))[t]? = some (.worker v) → v = v' :=
    fun _ hv => Task.worker.inj (eq_of_getElem?_set hv)
  cases hm with
  | rest h =>
    rw [ht] at hv
    cases hv
    rcases h with h | ⟨-, call, hw, -⟩
    · rw [(Worker.of_seeking hp).1] at h
      cases h
    · rw [hw] at hp
      cases hp
  | await _ _ _ hq => exact (WorkQueue.get_waiting hq).2.2.2
  | start => cases hr
  | dropPlace | dropCall | quit | retire | lose | blunder =>
    rw [hset _ hv] at hp
    cases hp
  | @answer call reply =>
    rw [hset _ hv] at hp
    cases hverdict : e.verdict? w call reply with
    | none =>
      rw [hverdict] at hr
      cases hr
    | some reason =>
      rw [hverdict] at hp
      cases hp

theorem WorkerMove.stepped (hm : WorkerMove script e t w r) (ht : e.tasks[t]? = some (.worker w))
    (hlate : e.late = []) (hready : e.ready = t :: rest)
    (hparked : ∀ (u : TaskId) task, e.tasks[u]? = some task → u ∈ e.ready ∨ Parked e.queue u task) :
    Stepped t r := by
  obtain ⟨hline, hlate', v, hv, hothers⟩ := hm.frame ht
  have hd := hm.dealing
  refine ⟨hlate'.trans hlate, ⟨rest, hline.trans hready, fun u task hu htask => ?_⟩,
    fun hr task htask => ?_⟩
  · rw [hothers u hu] at htask
    rcases hparked u task htask with h | h
    · rw [hready] at h
      exact .inl ((List.mem_cons.1 h).resolve_left hu)
    · right
      cases task with
      | worker x => exact fun hp => hd.getting u hu (h hp)
      | driver x => exact ⟨h.1, h.2.1, fun hs => ⟨(h.2.2 hs).1, hd.putting u hu (h.2.2 hs).2⟩⟩
      | producer | joiner | shutdown => trivial
  · rw [hv] at htask
    cases htask
    exact hm.stuck ht hr hv

theorem task_giveUp {error : Error} (ht : e.tasks[t]? = some (.driver d)) :
    (e.giveUp t d error).tasks[t]? = some (.driver { d with stage := .over (.failed error) }) := by
  unfold giveUp
  rw [getElem?_abortAll]
  show (if t ∈ d.members then ((e.tasks.set t _)[t]?).map Task.abort else (e.tasks.set t _)[t]?) = _
  rw [getElem?_set_same ht]
  split <;> rfl

theorem DriverMove.stuck (hm : DriverMove e t d r) (ht : e.tasks[t]? = some (.driver d))
    (hr : r.2 = false) {task : Task} (htask : r.1.tasks[t]? = some task) :
    Parked r.1.queue t task := by
  have hset : ∀ d', (e.tasks.set t (.driver d'))[t]? = some task → task = .driver d' :=
    fun _ => eq_of_getElem?_set
  have hover : ∀ (q : WorkQueue WorkItem) (d' : RunDriver) how,
      Parked q t (.driver { d' with stage := .over how }) :=
    fun _ _ _ => ⟨by simp, by simp, fun h => by cases h⟩
  cases hm with
  | rest h =>
    rw [ht] at htask
    cases htask
    rcases h with ⟨hs, -⟩ | ⟨hs, -⟩ | ⟨how, hs⟩
    all_goals
      refine ⟨?_, ?_, fun h => ?_⟩
      all_goals rw [hs] at *
      · simp
      · simp
      · cases h
  | refuse | complete =>
    rw [hset _ htask]
    exact hover _ _ _
  | giveUp | refused =>
    have hgive := htask.symm.trans (task_giveUp ht)
    cases hgive
    exact hover _ _ _
  | await hs hreason hn hq =>
    rw [ht] at htask
    cases htask
    refine ⟨by simp [hs], by simp [hs], fun _ => ⟨hn, (WorkQueue.put_waiting hq).2.2.2⟩⟩
  | launch | submitted | put | drained | close => cases hr

theorem DriverMove.getting (hm : DriverMove e t d r) (hu : u ≠ t) (h : e.queue.Getting u) :
    r.1.queue.Getting u := by
  have hleave := (WorkQueue.leave_dealing e.queue t).1.getting u hu h
  cases hm with
  | rest | refuse | submitted | drained | close | complete => exact h
  | launch => rw [spawnAll_eq]; exact h
  | giveUp => rw [giveUp_eq]; exact hleave
  | refused _ _ _ hq => rw [giveUp_eq, (WorkQueue.put_error hq).1]; exact hleave
  | await _ _ _ hq => exact (WorkQueue.put_waiting hq).1.getting u hu h
  | put _ _ _ hq => exact (WorkQueue.put_ok hq).1.getting u hu h

/-- The driver moves, spawns workers at the end of the line, or tells workers to drop everything. -/
theorem DriverMove.frame (hm : DriverMove e t d r) :
    r.1.late = e.late ∧ ∃ more, r.1.ready = e.ready ++ more ∧
      ∀ (u : TaskId) task, u ≠ t → r.1.tasks[u]? = some task → u ∈ more ∨
        e.tasks[u]? = some task ∨ (e.tasks[u]?).map Task.abort = some task := by
  have hset : ∀ {d' : RunDriver} (u : TaskId) task, u ≠ t →
      (e.tasks.set t (.driver d'))[u]? = some task → u ∈ ([] : List TaskId) ∨
        e.tasks[u]? = some task ∨ (e.tasks[u]?).map Task.abort = some task := by
    intro d' u task hu h
    exact .inr (.inl ((getElem?_set_of_ne hu).symm.trans h))
  have habort : ∀ {q : WorkQueue WorkItem} {error : Error} (u : TaskId) task, u ≠ t →
      (({ e with queue := q }).giveUp t d error).tasks[u]? = some task → u ∈ ([] : List TaskId) ∨
        e.tasks[u]? = some task ∨ (e.tasks[u]?).map Task.abort = some task := by
    intro q error u task hu h
    unfold Engine.giveUp at h
    rw [getElem?_abortAll] at h
    have hsame : ∀ d', (e.tasks.set t (.driver d'))[u]? = e.tasks[u]? :=
      fun _ => getElem?_set_of_ne hu
    split at h
    · exact .inr (.inr ((congrArg (Option.map Task.abort) (hsame _)).symm.trans h))
    · exact .inr (.inl ((hsame _).symm.trans h))
  have hready : e.ready = e.ready ++ [] := (List.append_nil _).symm
  cases hm with
  | rest | await => exact ⟨rfl, [], hready, fun _ _ _ h => .inr (.inl h)⟩
  | refuse | submitted | put | drained | close | complete => exact ⟨rfl, [], hready, hset⟩
  | giveUp | refused =>
    refine ⟨?_, [], ?_, habort⟩
    · rw [giveUp_eq]
    · rw [giveUp_eq]
      exact hready
  | launch =>
    rw [spawnAll_eq]
    refine ⟨rfl, _, rfl, fun u task hu h => ?_⟩
    rcases Nat.lt_or_ge u e.tasks.length with hlt | hge
    · have hlt' : u < (e.tasks.set t (.driver { d with
          members := e.nextIds d.size, stage := .submitting })).length := by
        rw [List.length_set]
        exact hlt
      have h' := (List.getElem?_append_left hlt').symm.trans h
      exact .inr (.inl ((getElem?_set_of_ne hu).symm.trans h'))
    · left
      have hlt := (List.getElem?_eq_some_iff.1 h).1
      simp only [setTask, List.length_append, List.length_set] at hlt ⊢
      rw [List.mem_range'_1]
      exact ⟨hge, hlt⟩

end Engine

namespace RunInv

variable {o : Orchestrator} {d : RunDriver} {e : Engine} {script : Script} {rest : List TaskId}

theorem stepped_driver {r : Engine × Bool} (h : RunInv o d e) (hm : Engine.DriverMove e 0 d r)
    (hlate : e.late = []) (hready : e.ready = 0 :: rest)
    (hparked : ∀ (u : TaskId) task, e.tasks[u]? = some task → u ∈ e.ready ∨ Parked e.queue u task) :
    Stepped 0 r := by
  obtain ⟨hlate', more, hline, hothers⟩ := hm.frame
  refine ⟨hlate'.trans hlate, ⟨rest ++ more, ?_, fun u task hu htask => ?_⟩,
    fun hr task htask => hm.stuck h.crew.driver hr htask⟩
  · rw [hline, hready, List.cons_append]
  -- the others are workers, which are told at most to drop everything
  have hworker : ∀ w, e.tasks[u]? = some (.worker w) → u ∈ rest ∨
      (w.phase = .seeking → r.1.queue.Getting u) := by
    intro w hw
    rcases hparked u _ hw with hu' | hp
    · rw [hready] at hu'
      exact .inl ((List.mem_cons.1 hu').resolve_left hu)
    · exact .inr fun hs => hm.getting hu (hp hs)
  have hpos : 0 < u := Nat.pos_of_ne_zero hu
  rcases hothers u task hu htask with hmore | hold | habort
  · exact .inl (List.mem_append_right _ hmore)
  · obtain ⟨w, rfl, -⟩ := h.crew.worker u task hpos hold
    exact (hworker w hold).imp_left (List.mem_append_left _)
  · obtain ⟨task', hold, rfl⟩ := Option.map_eq_some_iff.1 habort
    obtain ⟨w, rfl, -⟩ := h.crew.worker u task' hpos hold
    refine (hworker w hold).imp (List.mem_append_left _) fun hp => ?_
    show Parked r.1.queue u (if w.hasEnded then .worker w else .worker { w with aborted := true })
    split <;> exact hp

theorem stepped {t : TaskId} (h : RunInv o d e) (hlate : e.late = []) (hready : e.ready = t :: rest)
    (hparked : ∀ (u : TaskId) task, e.tasks[u]? = some task → u ∈ e.ready ∨ Parked e.queue u task) :
    Stepped t (e.step script t) := by
  rcases h.crew.step_cases script t with ⟨ht, hstep⟩ | ⟨rfl, hm⟩ | ⟨w, ht, hm⟩
  · rw [hstep]
    refine ⟨hlate, ⟨rest, hready, fun u task hu htask => ?_⟩, fun _ task htask => ?_⟩
    · refine (hparked u task htask).imp_left fun hu' => ?_
      rw [hready] at hu'
      exact (List.mem_cons.1 hu').resolve_left hu
    · rw [ht] at htask
      cases htask
  · exact h.stepped_driver hm hlate hready hparked
  · exact hm.stepped ht hlate hready hparked

theorem attended_react (h : RunInv o d e) (ha : Attended e) (event : Event) :
    Attended (e.react script event) := by
  cases event with
  | poll t =>
    show Attended (e.poll script t)
    rw [Engine.poll_eq]
    refine ((h.front t).stepped ha.late rfl fun u task hu => ?_).attended
    refine (ha.parked u task hu).imp_left fun hu' => ?_
    by_cases hut : u = t
    · exact hut ▸ List.mem_cons_self
    · exact List.mem_cons_of_mem _ ((List.mem_erase_of_ne hut).2 hu')
  | reply call reply => exact Engine.attended_callBack ha.late ha.parked
  | cancel reason => exact Engine.attended_callBack ha.late ha.parked
  | pause => exact ⟨ha.late, ha.called, ha.parked⟩

end RunInv

/-- Whatever happens in a run, nobody who could get further is forgotten. -/
theorem attended_play {o : Orchestrator} (hsize : 0 < o.size) (script : Script)
    (events : List Event) :
    ∃ d, RunInv o d (o.launch.play script events) ∧ Attended (o.launch.play script events) := by
  refine Engine.play_induction (P := fun e => ∃ d, RunInv o d e ∧ Attended e)
    ⟨_, RunInv.launch o, rfl, fun t ht => ?_, fun t task htask => ?_⟩ ?_ events
  · cases ht
  · cases t with
    | zero => exact .inl List.mem_cons_self
    | succ t => cases htask
  · rintro e event ⟨d, h, ha⟩
    obtain ⟨d', h'⟩ := h.react hsize script event
    exact ⟨d', h', h.attended_react ha event⟩

end LoadGenerator
