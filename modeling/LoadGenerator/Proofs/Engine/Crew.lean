import LoadGenerator.Engine
import LoadGenerator.Proofs.Counting
import Mathlib.Algebra.Order.BigOperators.Group.List
import Mathlib.Algebra.Order.Group.Nat

/-!
# Counting the workers among the tasks

`countWorkers` and `sumWorkers` read off the list of tasks how many workers have a property and what
a number of theirs comes to. Replacing one task moves them by the difference of its old and its new
share (`countWorkers_set`, `sumWorkers_set`); aborting and spawning workers is described task by
task.
-/

namespace LoadGenerator

namespace Worker

def call? (w : Worker) : Option Nat :=
  match w.phase with
  | .calling call => some call
  | _ => none

def isCalling (w : Worker) : Bool :=
  w.call?.isSome

/-- The transport has broken down under the worker. -/
def isLost (w : Worker) : Bool :=
  w.phase == .ended .panicked

theorem call?_eq_some {w : Worker} {call : Nat} : w.call? = some call ↔ w.phase = .calling call := by
  unfold call?
  split <;> simp_all

theorem of_seeking {w : Worker} (h : w.phase = .seeking) :
    w.hasEnded = false ∧ w.call? = none ∧ w.isLost = false := by
  rw [hasEnded, call?, isLost, h]
  exact ⟨rfl, rfl, rfl⟩

theorem of_calling {w : Worker} {call : Nat} (h : w.phase = .calling call) :
    w.hasEnded = false ∧ w.isCalling = true ∧ w.isLost = false := by
  rw [hasEnded, isCalling, call?, isLost, h]
  exact ⟨rfl, rfl, rfl⟩

theorem isCalling_eq_false {w : Worker} (h : w.isLost = true) : w.isCalling = false := by
  unfold isLost at h
  unfold isCalling call?
  rw [eq_of_beq h]
  rfl

end Worker

namespace Task

def worker? : Task → Option Worker
  | .worker w => some w
  | _ => none

/-- Whether a task is a worker with a property. -/
def counts (p : Worker → Bool) : Task → Bool
  | .worker w => p w
  | _ => false

def amount (f : Worker → Nat) : Task → Nat
  | .worker w => f w
  | _ => 0

/-- The task once it has been told to drop everything, if it is a worker that has not ended. -/
def abort : Task → Task
  | .worker w => if w.hasEnded then .worker w else .worker { w with aborted := true }
  | task => task

theorem abort_abort (task : Task) : task.abort.abort = task.abort := by
  cases task with
  | worker w =>
    by_cases h : w.hasEnded = true
    · simp only [abort, h, if_true]
    · have h' : Worker.hasEnded { w with aborted := true } = false := Bool.eq_false_iff.2 h
      simp only [abort, if_neg h, h', Bool.false_eq_true, if_false]
  | producer | joiner | shutdown | driver => rfl

theorem worker?_abort {task : Task} (h : task.worker? = none) : task.abort.worker? = none := by
  cases task with
  | worker => cases h
  | producer | joiner | shutdown | driver => rfl

end Task

def countWorkers (p : Worker → Bool) (tasks : List Task) : Nat :=
  tasks.countP (Task.counts p)

/-- What a number of the workers comes to. -/
def sumWorkers (f : Worker → Nat) (tasks : List Task) : Nat :=
  (tasks.map (Task.amount f)).sum

section Replacing

variable {p : Worker → Bool} {f : Worker → Nat} {tasks : List Task} {t : TaskId} {w v : Worker}
  {d d' : RunDriver}

theorem countWorkers_set (h : tasks[t]? = some (.worker w)) :
    countWorkers p (tasks.set t (.worker v)) + (if p w then 1 else 0) =
      countWorkers p tasks + (if p v then 1 else 0) :=
  countP_set_of_getElem? h

theorem sumWorkers_set (h : tasks[t]? = some (.worker w)) :
    sumWorkers f (tasks.set t (.worker v)) + f w = sumWorkers f tasks + f v :=
  sum_map_set_of_getElem? h

theorem countWorkers_set_of_eq (h : tasks[t]? = some (.worker w)) (hp : p v = p w) :
    countWorkers p (tasks.set t (.worker v)) = countWorkers p tasks := by
  have := countWorkers_set (p := p) (v := v) h
  rw [hp] at this
  omega

theorem sumWorkers_set_of_eq (h : tasks[t]? = some (.worker w)) (hf : f v = f w) :
    sumWorkers f (tasks.set t (.worker v)) = sumWorkers f tasks := by
  have := sumWorkers_set (f := f) (v := v) h
  omega

theorem countWorkers_set_driver (h : tasks[t]? = some (.driver d)) :
    countWorkers p (tasks.set t (.driver d')) = countWorkers p tasks := by
  have := countP_set_of_getElem? (q := Task.counts p) (b := .driver d') h
  simpa [countWorkers, Task.counts] using this

theorem sumWorkers_set_driver (h : tasks[t]? = some (.driver d)) :
    sumWorkers f (tasks.set t (.driver d')) = sumWorkers f tasks := by
  have := sum_map_set_of_getElem? (g := Task.amount f) (b := .driver d') h
  simpa [sumWorkers, Task.amount] using this

theorem le_sumWorkers (h : tasks[t]? = some (.worker w)) : f w ≤ sumWorkers f tasks := by
  have hmem := List.mem_map_of_mem (f := Task.amount f) (List.mem_of_getElem? h)
  exact List.single_le_sum (fun _ _ => Nat.zero_le _) _ hmem

theorem countWorkers_eq_zero : countWorkers p tasks = 0 ↔
    ∀ (t : TaskId) (w : Worker), tasks[t]? = some (.worker w) → p w = false := by
  unfold countWorkers
  rw [List.countP_eq_zero]
  constructor
  · intro h t w ht
    exact Bool.eq_false_iff.2 (h _ (List.mem_of_getElem? ht))
  · intro h task htask
    obtain ⟨t, ht⟩ := List.getElem?_of_mem htask
    cases task with
    | worker w => simp [Task.counts, h t w ht]
    | producer | joiner | shutdown | driver => simp [Task.counts]

end Replacing

namespace Engine

variable {e : Engine} {t u : TaskId} {w : Worker} {members : List TaskId} {p : Worker → Bool}
  {f : Worker → Nat}

theorem worker?_eq_some : e.worker? t = some w ↔ e.tasks[t]? = some (.worker w) := by
  unfold worker?
  split <;> simp_all

theorem worker?_eq_bind (e : Engine) (t : TaskId) : e.worker? t = (e.tasks[t]?).bind Task.worker? := by
  unfold worker?
  rcases e.tasks[t]? with _ | task
  · rfl
  · cases task <;> rfl

theorem sum_finished_le (f : WorkerStats → Nat) (tasks : List Task) :
    (((tasks.filterMap Task.worker?).filterMap fun w =>
      if w.phase = .ended .finished then some w.stats else none).map f).sum ≤
        sumWorkers (fun w => f w.stats) tasks := by
  unfold sumWorkers
  induction tasks with
  | nil => exact Nat.le_refl 0
  | cons task rest ih =>
    rw [List.map_cons, List.sum_cons]
    cases task with
    | worker w =>
      have hw : Task.worker? (.worker w) = some w := rfl
      rw [List.filterMap_cons, hw, List.filterMap_cons, Task.amount]
      by_cases hp : w.phase = .ended .finished
      · simp only [if_pos hp, List.map_cons, List.sum_cons]
        exact Nat.add_le_add_left ih _
      · simp only [if_neg hp]
        exact Nat.le_trans ih (Nat.le_add_left _ _)
    | producer | joiner | shutdown | driver => exact Nat.le_trans ih (Nat.le_add_left _ _)

/-! ### Telling workers to drop everything -/

theorem abortWorker_eq (e : Engine) (t : TaskId) :
    e.abortWorker t = { e with tasks := (e.abortWorker t).tasks } := by
  unfold abortWorker
  split
  · split <;> rfl
  · rfl

theorem getElem?_abortWorker (e : Engine) (t u : TaskId) :
    (e.abortWorker t).tasks[u]? = if u = t then (e.tasks[u]?).map Task.abort else e.tasks[u]? := by
  unfold abortWorker
  split
  · rename_i w hw
    have ht := worker?_eq_some.1 hw
    split
    · split
      · subst u
        simp [Task.abort, *]
      · rfl
    · simp only [setTask]
      split
      · subst u
        rw [List.getElem?_set_self (List.getElem?_eq_some_iff.1 ht).1]
        simp [Task.abort, *]
      · rw [List.getElem?_set_ne (fun h => ‹¬u = t› h.symm)]
  · rename_i hnone
    split
    · subst u
      cases htask : e.tasks[t]? with
      | none => rfl
      | some task =>
        cases task with
        | worker w => exact absurd (worker?_eq_some.2 htask) (by simp [hnone])
        | producer | joiner | shutdown | driver => rfl
    · rfl

theorem countWorkers_abortWorker (hp : ∀ w : Worker, p { w with aborted := true } = p w)
    (e : Engine) (t : TaskId) : countWorkers p (e.abortWorker t).tasks = countWorkers p e.tasks := by
  unfold abortWorker
  split
  · split
    · rfl
    · exact countWorkers_set_of_eq (worker?_eq_some.1 ‹_›) (hp _)
  · rfl

theorem sumWorkers_abortWorker (hf : ∀ w : Worker, f { w with aborted := true } = f w)
    (e : Engine) (t : TaskId) : sumWorkers f (e.abortWorker t).tasks = sumWorkers f e.tasks := by
  unfold abortWorker
  split
  · split
    · rfl
    · exact sumWorkers_set_of_eq (worker?_eq_some.1 ‹_›) (hf _)
  · rfl

theorem getElem?_foldl_abortWorker (members : List TaskId) (e : Engine) (u : TaskId) :
    (members.foldl abortWorker e).tasks[u]? =
      if u ∈ members then (e.tasks[u]?).map Task.abort else e.tasks[u]? := by
  induction members generalizing e with
  | nil => simp
  | cons t rest ih =>
    rw [List.foldl_cons, ih, getElem?_abortWorker]
    by_cases hu : u = t
    · subst u
      cases e.tasks[t]? <;> simp [Task.abort_abort]
    · simp [hu]

theorem abortAll_eq (e : Engine) (members : List TaskId) : e.abortAll members =
    { e with queue := e.queue.close, tasks := (e.abortAll members).tasks } := by
  unfold abortAll
  generalize he : ({ e with queue := e.queue.close } : Engine) = e₁
  have hframe : ∀ e₁ : Engine, members.foldl abortWorker e₁ =
      { e₁ with tasks := (members.foldl abortWorker e₁).tasks } := by
    induction members with
    | nil => exact fun _ => rfl
    | cons t rest ih =>
      intro e₁
      rw [List.foldl_cons, ih, abortWorker_eq]
  rw [hframe e₁, ← he]

theorem getElem?_abortAll (e : Engine) (members : List TaskId) (u : TaskId) :
    (e.abortAll members).tasks[u]? =
      if u ∈ members then (e.tasks[u]?).map Task.abort else e.tasks[u]? :=
  getElem?_foldl_abortWorker members { e with queue := e.queue.close } u

theorem countWorkers_abortAll (hp : ∀ w : Worker, p { w with aborted := true } = p w)
    (e : Engine) (members : List TaskId) :
    countWorkers p (e.abortAll members).tasks = countWorkers p e.tasks := by
  unfold abortAll
  change _ = countWorkers p ({ e with queue := e.queue.close } : Engine).tasks
  generalize ({ e with queue := e.queue.close } : Engine) = e₁
  induction members generalizing e₁ with
  | nil => rfl
  | cons t rest ih => rw [List.foldl_cons, ih, countWorkers_abortWorker hp]

theorem sumWorkers_abortAll (hf : ∀ w : Worker, f { w with aborted := true } = f w)
    (e : Engine) (members : List TaskId) :
    sumWorkers f (e.abortAll members).tasks = sumWorkers f e.tasks := by
  unfold abortAll
  change _ = sumWorkers f ({ e with queue := e.queue.close } : Engine).tasks
  generalize ({ e with queue := e.queue.close } : Engine) = e₁
  induction members generalizing e₁ with
  | nil => rfl
  | cons t rest ih => rw [List.foldl_cons, ih, sumWorkers_abortWorker hf]

/-! ### Spawning workers -/

theorem spawnAll_eq (e : Engine) (tasks : List Task) : e.spawnAll tasks =
    { e with
      tasks := e.tasks ++ tasks
      ready := e.ready ++ List.range' e.tasks.length tasks.length } := by
  unfold spawnAll
  induction tasks generalizing e with
  | nil => simp
  | cons task rest ih =>
    rw [List.foldl_cons, ih]
    simp [spawn, List.range'_succ]

theorem mem_poolWorkers {size : Nat} {policy : FailurePolicy} {task : Task}
    (h : task ∈ poolWorkers size policy) : ∃ i, task = .worker { id := i, policy } := by
  obtain ⟨i, -, rfl⟩ := List.mem_map.1 h
  exact ⟨_, rfl⟩

theorem length_poolWorkers (size : Nat) (policy : FailurePolicy) :
    (poolWorkers size policy).length = size := by
  simp [poolWorkers]

theorem countWorkers_append_poolWorkers {size : Nat} {policy : FailurePolicy}
    (hp : ∀ i, p { id := i, policy } = false) (tasks : List Task) :
    countWorkers p (tasks ++ poolWorkers size policy) = countWorkers p tasks := by
  unfold countWorkers
  rw [List.countP_append, Nat.add_eq_left, List.countP_eq_zero]
  intro task htask
  obtain ⟨i, rfl⟩ := mem_poolWorkers htask
  simp [Task.counts, hp i]

theorem sumWorkers_append_poolWorkers {size : Nat} {policy : FailurePolicy}
    (hf : ∀ i, f { id := i, policy } = 0) (tasks : List Task) :
    sumWorkers f (tasks ++ poolWorkers size policy) = sumWorkers f tasks := by
  unfold sumWorkers
  rw [List.map_append, List.sum_append, Nat.add_eq_left, List.sum_eq_zero]
  intro n hn
  obtain ⟨task, htask, rfl⟩ := List.mem_map.1 hn
  obtain ⟨i, rfl⟩ := mem_poolWorkers htask
  exact hf i

end Engine

end LoadGenerator
