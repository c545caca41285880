import LoadGenerator.Proofs.Pool.Roster
import LoadGenerator.Proofs.Engine.Rest

/-!
# Where the items put at a bench are

Whoever puts at a bench are its producers, and `acceptedTargets` lists what the queue has accepted
from them. `Holdings` says where all of this is: every item is buffered, or there is a call for it,
and it is outstanding until its call is answered. This is kept as long as only those who make the
calls take items and mark them as done.
-/

namespace LoadGenerator

/-- The targets of the items that the queue has accepted from a task. -/
def Task.accepted : Task → List Target
  | .producer p => List.replicate p.put p.item.target
  | _ => []

def acceptedTargets (tasks : List Task) : List Target :=
  tasks.flatMap Task.accepted

section Accepted

variable {tasks : List Task} {task task' : Task} {t : TaskId} {p : Producer}

theorem acceptedTargets_set (ht : tasks[t]? = some task) (h : task'.accepted = task.accepted) :
    acceptedTargets (tasks.set t task') = acceptedTargets tasks := by
  rw [acceptedTargets, acceptedTargets, List.flatMap_def, List.flatMap_def,
    map_set_of_getElem? ht h]

theorem acceptedTargets_setWorker {w v : Worker} (ht : tasks[t]? = some (.worker w)) :
    acceptedTargets (tasks.set t (.worker v)) = acceptedTargets tasks :=
  acceptedTargets_set ht rfl

theorem acceptedTargets_append (h : task.accepted = []) :
    acceptedTargets (tasks ++ [task]) = acceptedTargets tasks := by
  rw [acceptedTargets, List.flatMap_append, List.flatMap_singleton, h, List.append_nil]
  rfl

theorem acceptedTargets_append_poolWorkers (tasks : List Task) (size : Nat)
    (policy : FailurePolicy) :
    acceptedTargets (tasks ++ Engine.poolWorkers size policy) = acceptedTargets tasks := by
  have hnone : (Engine.poolWorkers size policy).flatMap Task.accepted = [] := by
    rw [List.flatMap_eq_nil_iff]
    intro task htask
    obtain ⟨i, rfl⟩ := Engine.mem_poolWorkers htask
    rfl
  rw [acceptedTargets, List.flatMap_append, hnone, List.append_nil]
  rfl

/-- One more item is accepted from a producer. -/
theorem acceptedTargets_put (ht : tasks[t]? = some (.producer p)) :
    (acceptedTargets (tasks.set t (.producer { p with put := p.put + 1 }))).Perm
      (acceptedTargets tasks ++ [p.item.target]) := by
  obtain ⟨hlt, hget⟩ := List.getElem?_eq_some_iff.1 ht
  obtain ⟨front, back, htasks, -, hset⟩ := List.exists_of_set (l := tasks) hlt
  rw [hget] at htasks
  have hmore : Task.accepted (.producer { p with put := p.put + 1 }) =
      p.item.target :: Task.accepted (.producer p) := List.replicate_succ
  rw [hset, htasks, acceptedTargets, acceptedTargets, List.flatMap_append, List.flatMap_cons,
    List.flatMap_append, List.flatMap_cons, hmore, List.cons_append]
  exact List.perm_middle.trans (List.perm_append_singleton _ _).symm

end Accepted

namespace WorkQueue

/-- A granted slot is one that was free. -/
theorem reserve?_dealing {α : Type} {q q' : WorkQueue α} {t : Ticket}
    (h : q.reserve? t = some q') : q.Dealing t q' ∧ q.closed = false := by
  unfold reserve? at h
  split at h
  · cases h
  rename_i hopen
  obtain ⟨hclosed, hfree⟩ := not_or.1 hopen
  cases h
  refine ⟨⟨rfl, rfl, fun hs => ⟨?_, fun hp => absurd (hs.full hp) hfree, hs.turn⟩,
    fun u _ hu => hu.imp_left (List.mem_append_left _), fun _ _ => id⟩, Bool.eq_false_iff.2 hclosed⟩
  have := hs.slots
  simp only [WorkQueue.slots, List.length_append, List.length_singleton] at this ⊢
  omega

end WorkQueue

/-- Where the items of some targets are, once they have been accepted. -/
structure Holdings (accepted : List Target) (q : WorkQueue WorkItem) (log : CallLog) : Prop where
  sound : q.Sound
  items : ((log.since {}).map Call.target ++ q.buffer.map WorkItem.target).Perm accepted
  outstanding : q.outstanding + log.countSince {} CallState.isAnswered = accepted.length

namespace Holdings

variable {accepted accepted' : List Target} {q q' : WorkQueue WorkItem} {log : CallLog} {t : TaskId}
  {item : WorkItem} {call : Nat} {s u : CallState}

theorem start (capacity : Nat) : Holdings [] (.ofCapacity capacity) {} :=
  ⟨WorkQueue.sound_ofCapacity capacity, List.Perm.refl _, rfl⟩

theorem deal (h : Holdings accepted q log) (hq : q.Dealing t q') (hb : q'.buffer = q.buffer)
    (hout : q'.outstanding = q.outstanding) : Holdings accepted q' log :=
  ⟨hq.sound h.sound, hb ▸ h.items, hout ▸ h.outstanding⟩

theorem close (h : Holdings accepted q log) : Holdings accepted q.close log :=
  ⟨h.sound.close, h.items, h.outstanding⟩

theorem put (h : Holdings accepted q log) (hq : q.put t item = (q', .done (.ok ())))
    (haccepted : accepted'.Perm (accepted ++ [item.target])) : Holdings accepted' q' log := by
  obtain ⟨hd, hb, hout⟩ := WorkQueue.put_ok hq
  refine ⟨hd.sound h.sound, ?_, ?_⟩
  · rw [hb, List.map_append, ← List.append_assoc]
    exact (h.items.append_right _).trans haccepted.symm
  · have := h.outstanding
    rw [haccepted.length_eq, List.length_append, List.length_singleton]
    omega

theorem take (h : Holdings accepted q log) (hq : q.get t = (q', .done (some item)))
    (r : Option Reply) : Holdings accepted q' (log.startWith item.target r) := by
  obtain ⟨hd, hb, hout⟩ := WorkQueue.get_some hq
  refine ⟨hd.sound h.sound, ?_, ?_⟩
  · have hitems := h.items
    rw [hb] at hitems
    rw [CallLog.targets_startWith item.target r (Nat.zero_le _), List.append_assoc]
    exact hitems
  · have hnot : CallState.isAnswered (.ofReply? r) = false :=
      (CallState.of_isInFlight (CallState.isInFlight_ofReply? r)).1
    rw [CallLog.countSince_startWith _ _ (Nat.zero_le _), if_neg (Bool.eq_false_iff.1 hnot), hout]
    exact h.outstanding

theorem reply (h : Holdings accepted q log) (n : Nat) (r : Reply) :
    Holdings accepted q (log.reply n r) := by
  refine ⟨h.sound, ?_, ?_⟩
  · rw [CallLog.targets_reply]
    exact h.items
  · rw [CallLog.countSince_reply n r rfl]
    exact h.outstanding

/-- A call comes to an end without an answer, and its item stays outstanding. -/
theorem drop (h : Holdings accepted q log) (hn : 0 < call) (hs : log.state? call = some s)
    (hflight : s.isInFlight = true) (hu : u.isAnswered = false) :
    Holdings accepted q (log.set call u) := by
  refine ⟨h.sound, ?_, ?_⟩
  · rw [CallLog.targets_set]
    exact h.items
  · rw [CallLog.countSince_set_of_not hn hs (CallState.of_isInFlight hflight).1, hu]
    exact h.outstanding

theorem answer (h : Holdings accepted q log) (hn : 0 < call) (hs : log.state? call = some s)
    (hflight : s.isInFlight = true) (hu : u.isAnswered = true) (hq : q.markDone = .ok q') :
    Holdings accepted q' (log.set call u) := by
  obtain ⟨hq', hout⟩ := WorkQueue.markDone_ok hq
  have hb : q'.buffer = q.buffer := by rw [hq']
  refine ⟨(WorkQueue.Dealing.markDone hq 0).sound h.sound, ?_, ?_⟩
  · rw [CallLog.targets_set, hb]
    exact h.items
  · have := h.outstanding
    rw [CallLog.countSince_set_of_not hn hs (CallState.of_isInFlight hflight).1, if_pos hu]
    omega

/-- What is accepted and not answered is buffered, or its call is in flight, lost or abandoned. -/
theorem outstanding_eq (h : Holdings accepted q log) : q.outstanding = q.buffer.length +
    log.countSince {} CallState.isInFlight + log.countSince {} CallState.isLost +
      log.countSince {} CallState.isAbandoned := by
  have hitems := h.items.length_eq
  have hout := h.outstanding
  have hcalls := CallLog.length_since_eq log {}
  simp only [List.length_append, List.length_map] at hitems
  omega

theorem markDone_ok (h : Holdings accepted q log) (hn : 0 < call) (hs : log.state? call = some s)
    (hflight : s.isInFlight = true) : ∃ q', q.markDone = .ok q' := by
  have hpos : 0 < log.countSince {} CallState.isInFlight := CallLog.countSince_pos hn hs hflight
  have hout := h.outstanding_eq
  have hne : q.outstanding ≠ 0 := by omega
  exact ⟨_, if_neg hne⟩

end Holdings

end LoadGenerator
