import LoadGenerator.Proofs.Run.History

/-!
# Who works in a run

`Crew`: the first task of a run is its driver, all others are its workers, as many as the
configuration says and numbered from one on. The tasks of a run change in few ways: one worker
moves on (`Crew.setWorker`), the driver moves on (`Crew.setDriver`), the workers are spawned
(`Crew.launch`) or told to drop everything (`Crew.abortAll`).
-/

namespace LoadGenerator

def Task.call? : Task → Option Nat
  | .worker w => w.call?
  | _ => none

/-- The call that the task with a number waits for. -/
def callOf (tasks : List Task) (t : TaskId) : Option Nat :=
  (tasks[t]?).bind Task.call?

section Tasks

variable {tasks : List Task} {t u : TaskId} {w v : Worker} {d d' : RunDriver} {call : Nat}

theorem callOf_eq_some : callOf tasks t = some call ↔
    ∃ w, tasks[t]? = some (.worker w) ∧ w.phase = .calling call := by
  unfold callOf
  rw [Option.bind_eq_some_iff]
  constructor
  · rintro ⟨task, ht, hcall⟩
    cases task with
    | worker w => exact ⟨w, ht, Worker.call?_eq_some.1 hcall⟩
    | producer | joiner | shutdown | driver => cases hcall
  · rintro ⟨w, ht, hw⟩
    exact ⟨_, ht, Worker.call?_eq_some.2 hw⟩

theorem getElem?_set_task {task task' : Task} (h : tasks[t]? = some task) (u : TaskId) :
    (tasks.set t task')[u]? = if u = t then some task' else tasks[u]? := by
  by_cases hu : u = t
  · subst hu
    rw [if_pos rfl, List.getElem?_set_self (List.getElem?_eq_some_iff.1 h).1]
  · rw [if_neg hu, List.getElem?_set_ne (fun he => hu he.symm)]

theorem getElem?_set_same {task : Task} (h : tasks[t]? = some task) (task' : Task) :
    (tasks.set t task')[t]? = some task' :=
  List.getElem?_set_self (List.getElem?_eq_some_iff.1 h).1

theorem getElem?_set_of_ne {task : Task} (hu : u ≠ t) : (tasks.set t task)[u]? = tasks[u]? :=
  List.getElem?_set_ne fun h => hu h.symm

theorem eq_of_getElem?_set {task task' : Task} (h : (tasks.set t task)[t]? = some task') :
    task' = task := by
  have hlt := (List.getElem?_eq_some_iff.1 h).1
  rw [List.length_set] at hlt
  rw [List.getElem?_set_self hlt] at h
  cases h
  rfl

theorem callOf_set_worker (h : tasks[t]? = some (.worker w)) (u : TaskId) :
    callOf (tasks.set t (.worker v)) u = if u = t then v.call? else callOf tasks u := by
  unfold callOf
  rw [getElem?_set_task h]
  by_cases hu : u = t
  · rw [if_pos hu, if_pos hu]
    rfl
  · rw [if_neg hu, if_neg hu]

theorem callOf_set_driver (h : tasks[t]? = some (.driver d)) (u : TaskId) :
    callOf (tasks.set t (.driver d')) u = callOf tasks u := by
  unfold callOf
  rw [getElem?_set_task h]
  by_cases hu : u = t
  · subst hu
    rw [if_pos rfl, h]
    rfl
  · rw [if_neg hu]

theorem callOf_append_poolWorkers {size : Nat} {policy : FailurePolicy} (tasks : List Task)
    (u : TaskId) : callOf (tasks ++ Engine.poolWorkers size policy) u = callOf tasks u := by
  unfold callOf
  rcases Nat.lt_or_ge u tasks.length with hu | hu
  · rw [List.getElem?_append_left hu]
  · rw [List.getElem?_append_right hu, List.getElem?_eq_none hu]
    cases hpool : (Engine.poolWorkers size policy)[u - tasks.length]? with
    | none => rfl
    | some task =>
      obtain ⟨i, rfl⟩ := Engine.mem_poolWorkers (List.mem_of_getElem? hpool)
      rfl

theorem callOf_abortAll (e : Engine) (members : List TaskId) (u : TaskId) :
    callOf (e.abortAll members).tasks u = callOf e.tasks u := by
  unfold callOf
  rw [Engine.getElem?_abortAll]
  split
  · cases e.tasks[u]? with
    | none => rfl
    | some task =>
      cases task with
      | worker w =>
        change (if w.hasEnded then Task.worker w else .worker { w with aborted := true }).call? = _
        split <;> rfl
      | producer | joiner | shutdown | driver => rfl
  · rfl

/-- Only a worker is a worker after all have been told to drop everything. -/
theorem worker_of_abortAll {e : Engine} {members : List TaskId}
    (h : (e.abortAll members).tasks[u]? = some (.worker v)) :
    ∃ w, e.tasks[u]? = some (.worker w) ∧
      (v = w ∨ w.hasEnded = false ∧ v = { w with aborted := true }) := by
  rw [Engine.getElem?_abortAll] at h
  split at h
  · obtain ⟨task, htask, habort⟩ := Option.map_eq_some_iff.1 h
    cases task with
    | worker w =>
      refine ⟨w, htask, ?_⟩
      change (if w.hasEnded then Task.worker w else .worker { w with aborted := true }) = _ at habort
      split at habort
      · cases habort
        exact .inl rfl
      · cases habort
        exact .inr ⟨Bool.eq_false_iff.2 ‹_›, rfl⟩
    | producer | joiner | shutdown | driver => cases habort
  · exact ⟨v, h, .inl rfl⟩

end Tasks

/-- The tasks of a run of `o` whose driver is `d`. -/
structure Crew (o : Orchestrator) (d : RunDriver) (tasks : List Task) : Prop where
  driver : tasks[0]? = some (.driver d)
  worker : ∀ t task, 0 < t → tasks[t]? = some task →
    ∃ w, task = .worker w ∧ w.policy = o.config.failurePolicy
  size : d.size = o.size
  policy : d.policy = o.config.failurePolicy
  target : d.source.target = o.target
  length : d.stage = .starting ∧ tasks.length = 1 ∨
    d.stage ≠ .starting ∧ tasks.length = o.size + 1 ∧ d.members = (List.range o.size).map (1 + ·)

namespace Crew

variable {o : Orchestrator} {d d' : RunDriver} {tasks : List Task} {t : TaskId} {w v : Worker}

theorem pos_of_worker (h : Crew o d tasks) (ht : tasks[t]? = some (.worker w)) :
    (0 : Nat) < t := by
  refine Nat.pos_of_ne_zero fun h0 => ?_
  rw [h0, h.driver] at ht
  cases ht

theorem policy_eq (h : Crew o d tasks) (ht : tasks[t]? = some (.worker w)) :
    w.policy = o.config.failurePolicy := by
  obtain ⟨w', hw, hp⟩ := h.worker t _ (h.pos_of_worker ht) ht
  cases hw
  exact hp

/-- A task of a run is its driver or one of its workers. -/
theorem cases (h : Crew o d tasks) (t : TaskId) : tasks[t]? = none ∨
    t = 0 ∧ tasks[t]? = some (.driver d) ∨ ∃ w, tasks[t]? = some (.worker w) := by
  rcases Nat.eq_zero_or_pos t with rfl | hpos
  · exact .inr (.inl ⟨rfl, h.driver⟩)
  cases ht : tasks[t]? with
  | none => exact .inl rfl
  | some task =>
    obtain ⟨w, rfl, -⟩ := h.worker t task hpos ht
    exact .inr (.inr ⟨w, rfl⟩)

/-- A step of a run is a move of its driver or of one of its workers. -/
theorem step_cases {e : Engine} (h : Crew o d e.tasks) (script : Script) (t : TaskId) :
    e.tasks[t]? = none ∧ e.step script t = (e, false) ∨
      t = 0 ∧ Engine.DriverMove e 0 d (e.step script 0) ∨
      ∃ w, e.tasks[t]? = some (.worker w) ∧ Engine.WorkerMove script e t w (e.step script t) := by
  rcases h.cases t with ht | ⟨rfl, ht⟩ | ⟨w, ht⟩
  · refine .inl ⟨ht, ?_⟩
    rw [Engine.step, ht]
  · refine .inr (.inl ⟨rfl, ?_⟩)
    rw [Engine.step, ht]
    exact Engine.stepDriver_move e 0 d
  · refine .inr (.inr ⟨w, ht, ?_⟩)
    rw [Engine.step, ht]
    exact Engine.stepWorker_move script e t w

theorem setWorker (h : Crew o d tasks) (ht : tasks[t]? = some (.worker w))
    (hp : v.policy = w.policy) : Crew o d (tasks.set t (.worker v)) := by
  have hpos := h.pos_of_worker ht
  refine ⟨?_, fun u task hu htask => ?_, h.size, h.policy, h.target, ?_⟩
  · exact (getElem?_set_of_ne (Nat.ne_of_lt hpos)).trans h.driver
  · rw [getElem?_set_task ht] at htask
    split at htask
    · cases htask
      exact ⟨v, rfl, hp.trans (h.policy_eq ht)⟩
    · exact h.worker u task hu htask
  · rw [List.length_set]
    exact h.length

theorem setDriver (h : Crew o d tasks) (hsize : d'.size = d.size) (hpolicy : d'.policy = d.policy)
    (htarget : d'.source.target = d.source.target) (hmembers : d'.members = d.members)
    (hs : d.stage ≠ .starting) (hs' : d'.stage ≠ .starting) :
    Crew o d' (tasks.set 0 (.driver d')) := by
  have hlen := h.length.resolve_left fun hl => hs hl.1
  refine ⟨?_, fun u task hu htask => ?_, hsize.trans h.size, hpolicy.trans h.policy,
    htarget.trans h.target, .inr ⟨hs', ?_, hmembers.trans hlen.2.2⟩⟩
  · exact getElem?_set_same h.driver _
  · rw [getElem?_set_of_ne (Nat.ne_of_gt hu)] at htask
    exact h.worker u task hu htask
  · rw [List.length_set]
    exact hlen.2.1

theorem launch (h : Crew o d tasks) (hs : d.stage = .starting)
    (hd : d' = { d with members := (List.range d.size).map (tasks.length + ·), stage := .submitting }) :
    Crew o d' (tasks.set 0 (.driver d') ++ Engine.poolWorkers d.size d.policy) := by
  have hlen : tasks.length = 1 := by
    rcases h.length with hl | hl
    · exact hl.2
    · exact absurd hs hl.1
  have hset : (tasks.set 0 (.driver d')).length = 1 := by rw [List.length_set, hlen]
  subst hd
  refine ⟨?_, fun u task hu htask => ?_, h.size, h.policy, h.target, .inr ⟨by simp, ?_, ?_⟩⟩
  · rw [List.getElem?_append_left (by omega), getElem?_set_same h.driver]
  · rw [List.getElem?_append_right (by omega)] at htask
    obtain ⟨i, hi, rfl⟩ := List.mem_map.1 (List.mem_of_getElem? htask)
    exact ⟨_, rfl, h.policy⟩
  · rw [List.length_append, hset, Engine.length_poolWorkers, h.size]
    omega
  · rw [hlen, h.size]

theorem abortAll {e : Engine} {members : List TaskId} (h : Crew o d e.tasks) :
    Crew o d (e.abortAll members).tasks := by
  refine ⟨?_, fun u task hu htask => ?_, h.size, h.policy, h.target, ?_⟩
  · rw [Engine.getElem?_abortAll, h.driver]
    split <;> rfl
  · rw [Engine.getElem?_abortAll] at htask
    split at htask
    · obtain ⟨task', htask', rfl⟩ := Option.map_eq_some_iff.1 htask
      obtain ⟨w, rfl, hp⟩ := h.worker u task' hu htask'
      change ∃ v, (if w.hasEnded then Task.worker w else .worker { w with aborted := true }) = _ ∧ _
      split
      · exact ⟨w, rfl, hp⟩
      · exact ⟨_, rfl, hp⟩
    · exact h.worker u task hu htask
  · have hlen : (e.abortAll members).tasks.length = e.tasks.length := by
      unfold Engine.abortAll
      change _ = ({ e with queue := e.queue.close } : Engine).tasks.length
      generalize ({ e with queue := e.queue.close } : Engine) = e₁
      induction members generalizing e₁ with
      | nil => rfl
      | cons t rest ih =>
        rw [List.foldl_cons, ih]
        unfold Engine.abortWorker
        split
        · split
          · rfl
          · exact List.length_set
        · rfl
    rw [hlen]
    exact h.length

/-- The members are the workers. -/
theorem mem_members (h : Crew o d tasks) (hs : d.stage ≠ .starting) :
    t ∈ d.members ↔ ∃ w, tasks[t]? = some (.worker w) := by
  obtain ⟨-, hlen, hmem⟩ := h.length.resolve_left fun hl => hs hl.1
  rw [hmem, List.mem_map]
  constructor
  · rintro ⟨i, hi, rfl⟩
    have hi := List.mem_range.1 hi
    obtain ⟨w, hw, -⟩ := h.worker (1 + i) _ (by omega)
      (List.getElem?_eq_getElem (by omega : 1 + i < tasks.length))
    exact ⟨w, by rw [List.getElem?_eq_getElem (by omega : 1 + i < tasks.length), hw]⟩
  · rintro ⟨w, hw⟩
    have hpos := h.pos_of_worker hw
    have hlt := (List.getElem?_eq_some_iff.1 hw).1
    exact ⟨t - 1, List.mem_range.2 (by omega), Nat.add_sub_cancel' hpos⟩

/-- Workers with different properties are no more than all of them. -/
theorem countWorkers_add_le {p q : Worker → Bool} (h : Crew o d tasks)
    (hpq : ∀ w, p w = true → q w = false) :
    countWorkers p tasks + countWorkers q tasks ≤ o.size := by
  have hlen : tasks.length ≤ o.size + 1 := by
    rcases h.length with hl | hl <;> omega
  have hadd : ∀ rest : List Task, countWorkers p rest + countWorkers q rest ≤ rest.length := by
    intro rest
    induction rest with
    | nil => exact Nat.le_refl _
    | cons task rest ih =>
      unfold countWorkers at ih ⊢
      simp only [List.countP_cons, List.length_cons]
      have : (if task.counts p then 1 else 0) + (if task.counts q then 1 else 0) ≤ 1 := by
        cases task with
        | worker w =>
          by_cases hp : Task.counts p (.worker w) = true
          · have hq : Task.counts q (.worker w) = false := hpq w hp
            rw [if_pos hp, if_neg (Bool.eq_false_iff.1 hq)]
          · rw [if_neg hp]
            split <;> omega
        | producer | joiner | shutdown | driver => simp [Task.counts]
      omega
  cases tasks with
  | nil => exact Nat.zero_le _
  | cons task rest =>
    obtain rfl : task = .driver d := by simpa using h.driver
    have := hadd rest
    simp only [List.length_cons] at hlen
    have hcons : ∀ r : Worker → Bool,
        countWorkers r (.driver d :: rest) = countWorkers r rest := by
      intro r
      simp [countWorkers, Task.counts]
    rw [hcons, hcons]
    omega

end Crew

end LoadGenerator
