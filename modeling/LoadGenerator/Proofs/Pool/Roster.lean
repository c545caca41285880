import LoadGenerator.Bench
import LoadGenerator.Proofs.Engine.Tasks

/-!
# The workers among other tasks

At a bench producers, joiners and shutdowns come and go beside the workers. `workersOf` lists the
workers among some tasks in order, `posts` says which tasks they are. Neither changes with the
other tasks (`SameWorkers`), nor does anything that is counted over the workers; and when the only
worker to move on keeps its number, the posts and the numbers stay (`posts_setWorker`,
`ids_setWorker`).
-/

namespace LoadGenerator

def workersOf (tasks : List Task) : List Worker :=
  tasks.filterMap Task.worker?

/-- The tasks that are workers. -/
def posts (tasks : List Task) : List TaskId :=
  (List.range tasks.length).filterMap fun t => ((tasks[t]?).bind Task.worker?).map fun _ => t

/-- The same workers are the same tasks. -/
def SameWorkers (tasks tasks' : List Task) : Prop :=
  ∀ t : TaskId, (tasks'[t]?).bind Task.worker? = (tasks[t]?).bind Task.worker?

section Workers

variable {tasks tasks' : List Task} {task task' : Task} {t u : TaskId} {w v : Worker}

theorem bind_worker?_eq_some {task? : Option Task} :
    task?.bind Task.worker? = some w ↔ task? = some (.worker w) := by
  rw [Option.bind_eq_some_iff]
  constructor
  · rintro ⟨task, rfl, htask⟩
    cases task with
    | worker w' =>
      cases htask
      rfl
    | producer | joiner | shutdown | driver => cases htask
  · rintro rfl
    exact ⟨_, rfl, rfl⟩

theorem mem_workersOf : w ∈ workersOf tasks ↔ ∃ t : TaskId, tasks[t]? = some (.worker w) := by
  rw [workersOf, List.mem_filterMap]
  constructor
  · rintro ⟨task, hmem, htask⟩
    obtain ⟨t, ht⟩ := List.getElem?_of_mem hmem
    refine ⟨t, bind_worker?_eq_some.1 ?_⟩
    rw [ht]
    exact htask
  · rintro ⟨t, ht⟩
    exact ⟨_, List.mem_of_getElem? ht, rfl⟩

theorem workersOf_append (tasks more : List Task) :
    workersOf (tasks ++ more) = workersOf tasks ++ workersOf more :=
  List.filterMap_append

theorem workersOf_poolWorkers (size : Nat) (policy : FailurePolicy) :
    workersOf (Engine.poolWorkers size policy) =
      (List.range size).map fun i => { id := UInt64.ofNat i, policy } := by
  rw [workersOf, Engine.poolWorkers, List.filterMap_map]
  show (List.range size).filterMap (fun i => some ({ id := UInt64.ofNat i, policy } : Worker)) = _
  rw [List.filterMap_eq_map']

theorem workersOf_eq_of_le {n : Nat} (h : tasks.length ≤ n) : workersOf tasks =
    (List.range n).filterMap fun t => (tasks[t]?).bind Task.worker? := by
  rw [filterMap_range_of_le h, filterMap_range_getElem?]
  · rfl
  · intro t ht
    rw [List.getElem?_eq_none ht]
    rfl

theorem posts_eq_of_le {n : Nat} (h : tasks.length ≤ n) : posts tasks =
    (List.range n).filterMap fun t => ((tasks[t]?).bind Task.worker?).map fun _ => t := by
  rw [filterMap_range_of_le h]
  · rfl
  · intro t ht
    rw [List.getElem?_eq_none ht]
    rfl

theorem mem_posts : t ∈ posts tasks ↔ ∃ w, tasks[t]? = some (.worker w) := by
  rw [posts, List.mem_filterMap]
  constructor
  · rintro ⟨u, -, hu⟩
    obtain ⟨w, hw, rfl⟩ := Option.map_eq_some_iff.1 hu
    exact ⟨w, bind_worker?_eq_some.1 hw⟩
  · rintro ⟨w, hw⟩
    refine ⟨t, List.mem_range.2 (List.getElem?_eq_some_iff.1 hw).1, ?_⟩
    rw [hw]
    rfl

/-- Going to the posts one by one finds the workers in order. -/
theorem filterMap_posts (tasks : List Task) :
    (posts tasks).filterMap (fun t => (tasks[t]?).bind Task.worker?) = workersOf tasks := by
  rw [workersOf_eq_of_le (Nat.le_refl _), posts, List.filterMap_filterMap]
  congr 1
  funext t
  cases h : (tasks[t]?).bind Task.worker? with
  | none => rfl
  | some w => exact h

/-- A pool that starts takes the next posts. -/
theorem posts_append_poolWorkers (tasks : List Task) (size : Nat) (policy : FailurePolicy) :
    posts (tasks ++ Engine.poolWorkers size policy) =
      posts tasks ++ (List.range size).map (tasks.length + ·) := by
  have hnew : ∀ i ∈ List.range size,
      ((tasks ++ Engine.poolWorkers size policy)[tasks.length + i]?).bind Task.worker? =
        some { id := UInt64.ofNat i, policy } := by
    intro i hi
    rw [List.getElem?_append_right (Nat.le_add_right _ _), Nat.add_sub_cancel_left, Engine.poolWorkers,
      List.getElem?_map, List.getElem?_range (List.mem_range.1 hi)]
    rfl
  rw [posts, List.length_append, Engine.length_poolWorkers, List.range_add, List.filterMap_append]
  congr 1
  · refine List.filterMap_congr fun t ht => ?_
    rw [List.getElem?_append_left (List.mem_range.1 ht)]
  · rw [List.filterMap_map, ← List.filterMap_eq_map']
    refine List.filterMap_congr fun i hi => ?_
    rw [Function.comp_apply, hnew i hi]
    rfl

/-! ### Counting over the workers -/

theorem countWorkers_eq (p : Worker → Bool) (tasks : List Task) :
    countWorkers p tasks = (workersOf tasks).countP p := by
  unfold countWorkers workersOf
  induction tasks with
  | nil => rfl
  | cons task rest ih =>
    rw [List.countP_cons, ih]
    cases task with
    | worker w => exact List.countP_cons.symm
    | producer | joiner | shutdown | driver => rfl

theorem sumWorkers_eq (f : Worker → Nat) (tasks : List Task) :
    sumWorkers f tasks = ((workersOf tasks).map f).sum := by
  unfold sumWorkers workersOf
  induction tasks with
  | nil => rfl
  | cons task rest ih =>
    rw [List.map_cons, List.sum_cons, ih]
    cases task with
    | worker w => rfl
    | producer | joiner | shutdown | driver => exact Nat.zero_add _

theorem callOf_eq_bind (tasks : List Task) (t : TaskId) :
    callOf tasks t = ((tasks[t]?).bind Task.worker?).bind Worker.call? := by
  unfold callOf
  rcases tasks[t]? with _ | task
  · rfl
  · cases task <;> rfl

/-! ### Other tasks -/

theorem sameWorkers_set (ht : tasks[t]? = some task) (h : task.worker? = none)
    (h' : task'.worker? = none) : SameWorkers tasks (tasks.set t task') := by
  intro u
  rw [getElem?_set_task ht]
  split
  · subst u
    rw [ht]
    exact h'.trans h.symm
  · rfl

theorem sameWorkers_append (h : task.worker? = none) : SameWorkers tasks (tasks ++ [task]) := by
  intro u
  rcases Nat.lt_trichotomy u tasks.length with hu | rfl | hu
  · rw [List.getElem?_append_left hu]
  · rw [List.getElem?_concat_length, List.getElem?_eq_none (Nat.le_refl _)]
    exact h
  · rw [List.getElem?_eq_none (Nat.le_of_lt hu), List.getElem?_eq_none]
    rw [List.length_append]
    exact hu

theorem mem_of_mem_setOther {x : Worker} (h : x ∈ workersOf (tasks.set t task))
    (hnew : task.worker? = none) : x ∈ workersOf tasks := by
  obtain ⟨u, hu⟩ := mem_workersOf.1 h
  by_cases hut : u = t
  · subst hut
    rw [← eq_of_getElem?_set hu] at hnew
    cases hnew
  · exact mem_workersOf.2 ⟨u, (getElem?_set_of_ne hut).symm.trans hu⟩

namespace SameWorkers

theorem workersOf_eq (h : SameWorkers tasks tasks') : workersOf tasks' = workersOf tasks := by
  rw [workersOf_eq_of_le (Nat.le_max_left tasks.length tasks'.length),
    workersOf_eq_of_le (Nat.le_max_right tasks.length tasks'.length)]
  exact List.filterMap_congr fun t _ => h t

theorem posts_eq (h : SameWorkers tasks tasks') : posts tasks' = posts tasks := by
  rw [posts_eq_of_le (Nat.le_max_left tasks.length tasks'.length),
    posts_eq_of_le (Nat.le_max_right tasks.length tasks'.length)]
  exact List.filterMap_congr fun t _ => by rw [h t]

theorem callOf_eq (h : SameWorkers tasks tasks') (t : TaskId) : callOf tasks' t = callOf tasks t := by
  rw [callOf_eq_bind, h t, callOf_eq_bind]

theorem countWorkers_eq (h : SameWorkers tasks tasks') (p : Worker → Bool) :
    countWorkers p tasks' = countWorkers p tasks := by
  rw [LoadGenerator.countWorkers_eq, h.workersOf_eq, LoadGenerator.countWorkers_eq]

theorem sumWorkers_eq (h : SameWorkers tasks tasks') (f : Worker → Nat) :
    sumWorkers f tasks' = sumWorkers f tasks := by
  rw [LoadGenerator.sumWorkers_eq, h.workersOf_eq, LoadGenerator.sumWorkers_eq]

theorem links {before log : CallLog} (h : SameWorkers tasks tasks')
    (hlinks : Links before log tasks) : Links before log tasks' :=
  hlinks.of_callOf h.callOf_eq (h.countWorkers_eq _) (h.countWorkers_eq _)

end SameWorkers

/-! ### A worker that moves on -/

theorem mem_setWorker (ht : tasks[t]? = some (.worker w)) :
    v ∈ workersOf (tasks.set t (.worker v)) :=
  mem_workersOf.2 ⟨t, getElem?_set_same ht _⟩

theorem mem_of_mem_setWorker {x : Worker} (h : x ∈ workersOf (tasks.set t (.worker v)))
    (ht : tasks[t]? = some (.worker w)) : x = v ∨ x ∈ workersOf tasks := by
  obtain ⟨u, hu⟩ := mem_workersOf.1 h
  rw [getElem?_set_task ht] at hu
  split at hu
  · cases hu
    exact .inl rfl
  · exact .inr (mem_workersOf.2 ⟨u, hu⟩)

theorem mem_setWorker_of_mem {x : Worker} (h : x ∈ workersOf tasks)
    (ht : tasks[t]? = some (.worker w)) : x = w ∨ x ∈ workersOf (tasks.set t (.worker v)) := by
  obtain ⟨u, hu⟩ := mem_workersOf.1 h
  by_cases hut : u = t
  · subst hut
    rw [ht] at hu
    cases hu
    exact .inl rfl
  · exact .inr (mem_workersOf.2 ⟨u, (getElem?_set_of_ne hut).trans hu⟩)

theorem posts_setWorker (ht : tasks[t]? = some (.worker w)) :
    posts (tasks.set t (.worker v)) = posts tasks := by
  unfold posts
  rw [List.length_set]
  refine List.filterMap_congr fun u _ => ?_
  rw [getElem?_set_task ht]
  split
  · subst u
    rw [ht]
    rfl
  · rfl

theorem ids_setWorker (ht : tasks[t]? = some (.worker w)) (hid : v.id = w.id) :
    (workersOf (tasks.set t (.worker v))).map Worker.id = (workersOf tasks).map Worker.id := by
  have hmap : ∀ tasks : List Task, (workersOf tasks).map Worker.id =
      (tasks.map fun task => task.worker?.map Worker.id).filterMap id := by
    intro tasks
    rw [workersOf, List.map_filterMap, List.filterMap_map]
    rfl
  rw [hmap, hmap, map_set_of_getElem? ht]
  exact congrArg some hid

end Workers

end LoadGenerator
