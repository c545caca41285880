import LoadGenerator.Proofs.Run.Readiness
import LoadGenerator.Proofs.WorkQueue.Lines

/-!
# Who stands in line at the queue of a run

A task that waits at the queue has a ticket there (`Parked`). The queue has no other tickets
(`Placed`): whoever gets is a worker that looks for an item, whoever puts is the driver with an item
left, and nobody stands in a line twice. A task that leaves the queue, or is served, is out of its
line at once, so what the queue calls back can get further.
-/

namespace LoadGenerator

/-- The tickets of a queue are those of tasks that wait there. -/
structure Placed (q : WorkQueue WorkItem) (tasks : List Task) : Prop where
  gets : ∀ t ∈ q.getLine, ∃ w, tasks[t]? = some (.worker w) ∧ w.phase = .seeking
  puts : ∀ t ∈ q.putLine, ∃ d, tasks[t]? = some (.driver d) ∧ d.stage = .submitting ∧
    d.source.remaining ≠ 0
  getsOnce : q.getLine.Nodup
  putsOnce : q.putLine.Nodup

namespace Placed

variable {q q' : WorkQueue WorkItem} {tasks : List Task} {t : TaskId} {w v : Worker}
  {d d' : RunDriver}

theorem ofCapacity (capacity : Nat) (tasks : List Task) : Placed (.ofCapacity capacity) tasks :=
  ⟨nofun, nofun, .nil, .nil⟩

theorem worker_not_putting (h : Placed q tasks) (ht : tasks[t]? = some (.worker w)) :
    t ∉ q.putLine := by
  intro hmem
  obtain ⟨d, hd, -⟩ := h.puts t hmem
  rw [ht] at hd
  cases hd

theorem driver_not_getting (h : Placed q tasks) (ht : tasks[t]? = some (.driver d)) :
    t ∉ q.getLine := by
  intro hmem
  obtain ⟨w, hw, -⟩ := h.gets t hmem
  rw [ht] at hw
  cases hw

/-- Who does not look for an item does not stand in line for one. -/
theorem not_getting (h : Placed q tasks) (ht : tasks[t]? = some (.worker w))
    (hw : w.phase ≠ .seeking) : t ∉ q.getLine := by
  intro hmem
  obtain ⟨v, hv, hphase⟩ := h.gets t hmem
  rw [ht] at hv
  cases hv
  exact hw hphase

theorem not_putting (h : Placed q tasks) (ht : tasks[t]? = some (.driver d))
    (hd : d.stage = .submitting → d.source.remaining = 0) : t ∉ q.putLine := by
  intro hmem
  obtain ⟨d', hd', hs, hn⟩ := h.puts t hmem
  rw [ht] at hd'
  cases hd'
  exact hn (hd hs)

/-- A worker that is out of line goes on. -/
theorem setWorker (h : Placed q tasks) (ht : tasks[t]? = some (.worker w))
    (hputs : q'.putLine = q.putLine) (hgets : q'.getLine.Sublist q.getLine) (hout : t ∉ q'.getLine) :
    Placed q' (tasks.set t (.worker v)) := by
  refine ⟨fun u hu => ?_, fun u hu => ?_, h.getsOnce.sublist hgets, hputs ▸ h.putsOnce⟩
  · have hne : u ≠ t := fun he => hout (he ▸ hu)
    rw [getElem?_set_of_ne hne]
    exact h.gets u (hgets.subset hu)
  · rw [hputs] at hu
    have hne : u ≠ t := fun he => h.worker_not_putting ht (he ▸ hu)
    rw [getElem?_set_of_ne hne]
    exact h.puts u hu

/-- The driver goes on once it is out of line. -/
theorem setDriver (h : Placed q tasks) (ht : tasks[t]? = some (.driver d))
    (hgets : q'.getLine = q.getLine) (hputs : q'.putLine.Sublist q.putLine) (hout : t ∉ q'.putLine) :
    Placed q' (tasks.set t (.driver d')) := by
  refine ⟨fun u hu => ?_, fun u hu => ?_, hgets ▸ h.getsOnce, h.putsOnce.sublist hputs⟩
  · rw [hgets] at hu
    have hne : u ≠ t := fun he => h.driver_not_getting ht (he ▸ hu)
    rw [getElem?_set_of_ne hne]
    exact h.gets u hu
  · have hne : u ≠ t := fun he => hout (he ▸ hu)
    rw [getElem?_set_of_ne hne]
    exact h.puts u (hputs.subset hu)

theorem append (h : Placed q tasks) (more : List Task) : Placed q (tasks ++ more) := by
  have hold : ∀ {u : TaskId} {task}, tasks[u]? = some task → (tasks ++ more)[u]? = some task := by
    intro u task hu
    rw [List.getElem?_append_left (List.getElem?_eq_some_iff.1 hu).1, hu]
  refine ⟨fun u hu => ?_, fun u hu => ?_, h.getsOnce, h.putsOnce⟩
  · obtain ⟨w, hw, hphase⟩ := h.gets u hu
    exact ⟨w, hold hw, hphase⟩
  · obtain ⟨d, hd, hs⟩ := h.puts u hu
    exact ⟨d, hold hd, hs⟩

/-- Whoever is told to drop everything keeps its place until it makes its next step. -/
theorem abortAll {e : Engine} (h : Placed e.queue e.tasks) (members : List TaskId) :
    Placed (e.abortAll members).queue (e.abortAll members).tasks := by
  have hqueue : (e.abortAll members).queue = e.queue.close := by rw [Engine.abortAll_eq]
  rw [hqueue]
  refine ⟨fun u hu => ?_, fun u hu => ?_, h.getsOnce, h.putsOnce⟩
  · obtain ⟨w, hw, hphase⟩ := h.gets u hu
    rw [Engine.getElem?_abortAll, hw]
    have hlive := (Worker.of_seeking hphase).1
    split
    · refine ⟨{ w with aborted := true }, ?_, hphase⟩
      simp [Task.abort, hlive]
    · exact ⟨w, rfl, hphase⟩
  · obtain ⟨d, hd, hs⟩ := h.puts u hu
    rw [Engine.getElem?_abortAll, hd]
    refine ⟨d, ?_, hs⟩
    split <;> rfl

end Placed

namespace Engine

variable {script : Script} {e : Engine} {t : TaskId} {w : Worker} {d : RunDriver}
  {r : Engine × Bool}

theorem WorkerMove.placed (hm : WorkerMove script e t w r) (hs : e.queue.Sound)
    (h : Placed e.queue e.tasks) (ht : e.tasks[t]? = some (.worker w)) :
    Placed r.1.queue r.1.tasks := by
  have hput := h.worker_not_putting ht
  -- a worker in a call is in no line, one that is served or leaves is out of it
  have hcall : ∀ {q' : WorkQueue WorkItem} {v : Worker}, w.phase ≠ .seeking →
      q'.putLine = e.queue.putLine → q'.getLine = e.queue.getLine →
      Placed q' (e.tasks.set t (.worker v)) := by
    intro q' v hw hputs hgets
    refine h.setWorker ht hputs (hgets ▸ .refl _) ?_
    rw [hgets]
    exact h.not_getting ht hw
  have hout : ∀ {q' : WorkQueue WorkItem} {v : Worker}, q'.putLine = e.queue.putLine →
      q'.getLine = e.queue.getLine.erase t → Placed q' (e.tasks.set t (.worker v)) := by
    intro q' v hputs hgets
    refine h.setWorker ht hputs (hgets ▸ List.erase_sublist) ?_
    rw [hgets]
    exact h.getsOnce.not_mem_erase
  have hleave : (e.queue.leave t).putLine = e.queue.putLine ∧
      (e.queue.leave t).getLine = e.queue.getLine.erase t := by
    rw [WorkQueue.putLine_leave, List.erase_of_not_mem hput]
    exact ⟨rfl, WorkQueue.getLine_leave hs fun hmem => absurd hmem hput⟩
  cases hm with
  | rest => exact h
  | await hw _ _ hq =>
    obtain ⟨hputs, hgets⟩ := WorkQueue.putLine_get_waiting hs hq
    refine ⟨fun u hu => ?_, hputs ▸ h.puts, ?_, hputs ▸ h.putsOnce⟩
    · rw [hgets, WorkQueue.mem_standIn] at hu
      rcases hu with hu | rfl
      · exact h.gets u hu
      · exact ⟨w, ht, hw⟩
    · rw [hgets]
      exact WorkQueue.nodup_standIn h.getsOnce t
  | dropPlace | quit => exact hout hleave.1 hleave.2
  | retire _ _ _ hq | start _ _ _ hq =>
    obtain ⟨hputs, hgets⟩ := WorkQueue.putLine_get_done hs hq
    exact hout hputs hgets
  | dropCall hw | lose hw | blunder hw => exact hcall (by simp [hw]) rfl rfl
  | answer hw _ _ _ hq =>
    have hq' := (WorkQueue.markDone_ok hq).1
    exact hcall (by simp [hw]) (by rw [hq']; rfl) (by rw [hq']; rfl)

theorem DriverMove.placed (hm : DriverMove e t d r) (hs : e.queue.Sound)
    (h : Placed e.queue e.tasks) (ht : e.tasks[t]? = some (.driver d)) :
    Placed r.1.queue r.1.tasks := by
  have hget := h.driver_not_getting ht
  have hstay : ∀ {q' : WorkQueue WorkItem} {d' : RunDriver},
      (d.stage = .submitting → d.source.remaining = 0) → q'.putLine = e.queue.putLine →
      q'.getLine = e.queue.getLine → Placed q' (e.tasks.set t (.driver d')) := by
    intro q' d' hd hputs hgets
    refine h.setDriver ht hgets (hputs ▸ .refl _) ?_
    rw [hputs]
    exact h.not_putting ht hd
  have hgive : ∀ error, Placed (e.giveUp t d error).queue (e.giveUp t d error).tasks := by
    intro error
    refine Placed.abortAll (e := ({ e with queue := e.queue.leave t }).setTask t
      (.driver { d with stage := .over (.failed error) })) ?_ d.members
    refine h.setDriver ht ?_ ?_ ?_
    · have hleave := WorkQueue.getLine_leave (t := t) hs fun _ => hget
      rwa [List.erase_of_not_mem hget] at hleave
    · exact WorkQueue.putLine_leave e.queue t ▸ List.erase_sublist
    · show t ∉ (e.queue.leave t).putLine
      rw [WorkQueue.putLine_leave]
      exact h.putsOnce.not_mem_erase
  cases hm with
  | rest => exact h
  | refuse hs' | close hs' => exact hstay (fun hd => by rw [hs'] at hd; cases hd) rfl rfl
  | drained hs' | complete hs' => exact hstay (fun hd => by rw [hs'] at hd; cases hd) rfl rfl
  | submitted _ _ hn => exact hstay (fun _ => hn) rfl rfl
  | launch hs' =>
    rw [spawnAll_eq]
    exact (hstay (fun hd => by rw [hs'] at hd; cases hd) rfl rfl).append _
  | giveUp => exact hgive _
  | refused _ _ _ hq =>
    obtain ⟨rfl, -⟩ := WorkQueue.put_error hq
    exact hgive _
  | await hs' _ hn hq =>
    obtain ⟨hputs, hgets⟩ := WorkQueue.putLine_put_waiting hq
    refine ⟨hgets ▸ h.gets, fun u hu => ?_, hgets ▸ h.getsOnce, ?_⟩
    · rw [hputs, WorkQueue.mem_standIn] at hu
      rcases hu with hu | rfl
      · exact h.puts u hu
      · exact ⟨d, ht, hs', hn⟩
    · rw [hputs]
      exact WorkQueue.nodup_standIn h.putsOnce t
  | @put queue _ _ _ _ hq =>
    obtain ⟨hputs, hgets⟩ := WorkQueue.putLine_put_ok hq
    refine h.setDriver ht hgets (hputs ▸ List.erase_sublist) ?_
    show t ∉ queue.putLine
    rw [hputs]
    exact h.putsOnce.not_mem_erase

end Engine

end LoadGenerator
