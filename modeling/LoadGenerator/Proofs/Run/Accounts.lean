import LoadGenerator.Proofs.CallLog
import LoadGenerator.Proofs.Run.Crew

/-!
# Where the items of a run are

`Accounts` is about the queue and the log: an item is still with the driver, or buffered, or there
is a call for it, and an item that has been put is outstanding until its call is answered. `Links`
is about the log and the tasks: every call in flight belongs to one worker that waits for it, and
every call that broke down has taken one worker with it. Each is proved for the few ways in which
its parts change; together they say where every item put is.
-/

namespace LoadGenerator

/-! ### Items and calls -/

/-- The items of a run of `o` when `left` of them have not been put yet. -/
structure Accounts (o : Orchestrator) (left : Nat) (q : WorkQueue WorkItem) (log : CallLog) :
    Prop where
  before : o.log.size ≤ log.size
  sound : q.Sound
  capacity : q.capacity = o.capacity
  items : left + q.buffer.length + (log.since o.log).length = o.total
  outstanding : left + q.outstanding + log.countSince o.log CallState.isAnswered = o.total
  buffered : ∀ item ∈ q.buffer, item.target = o.target
  called : ∀ target ∈ (log.since o.log).map Call.target, target = o.target

namespace Accounts

variable {o : Orchestrator} {left : Nat} {q q' : WorkQueue WorkItem} {log : CallLog} {t : TaskId}
  {item : WorkItem} {call : Nat} {s u : CallState}

theorem start (o : Orchestrator) : Accounts o o.total (.ofCapacity o.capacity) o.log := by
  refine ⟨Nat.le_refl _, WorkQueue.sound_ofCapacity _, rfl, ?_, ?_, ?_, ?_⟩
  · rw [CallLog.since_self]
    rfl
  · rw [CallLog.countSince_self]
    rfl
  · intro item hitem
    cases hitem
  · rw [CallLog.since_self]
    intro target htarget
    cases htarget

theorem deal (h : Accounts o left q log) (hq : q.Dealing t q') (hb : q'.buffer = q.buffer)
    (ho : q'.outstanding = q.outstanding) : Accounts o left q' log :=
  ⟨h.before, hq.sound h.sound, hq.capacity.trans h.capacity, hb ▸ h.items, ho ▸ h.outstanding,
    hb ▸ h.buffered, h.called⟩

theorem leave (h : Accounts o left q log) (t : TaskId) : Accounts o left (q.leave t) log :=
  have ⟨hq, hb, ho⟩ := WorkQueue.leave_dealing q t
  h.deal hq hb ho

theorem close (h : Accounts o left q log) : Accounts o left q.close log :=
  ⟨h.before, h.sound.close, h.capacity, h.items, h.outstanding, h.buffered, h.called⟩

theorem put (h : Accounts o (left + 1) q log) (hq : q.put t item = (q', .done (.ok ())))
    (hitem : item.target = o.target) : Accounts o left q' log := by
  obtain ⟨hd, hb, ho⟩ := WorkQueue.put_ok hq
  refine ⟨h.before, hd.sound h.sound, hd.capacity.trans h.capacity, ?_, ?_, ?_, h.called⟩
  · have := h.items
    rw [hb, List.length_append, List.length_singleton]
    omega
  · have := h.outstanding
    omega
  · intro item' hmem
    rw [hb] at hmem
    rcases List.mem_append.1 hmem with hmem | hmem
    · exact h.buffered item' hmem
    · rw [List.mem_singleton.1 hmem, hitem]

theorem take (h : Accounts o left q log) (hq : q.get t = (q', .done (some item)))
    (r : Option Reply) : Accounts o left q' (log.startWith item.target r) := by
  obtain ⟨hd, hb, ho⟩ := WorkQueue.get_some hq
  have htargets := CallLog.targets_startWith item.target r h.before
  refine ⟨?_, hd.sound h.sound, hd.capacity.trans h.capacity, ?_, ?_, ?_, ?_⟩
  · have := h.before
    rw [CallLog.size_startWith]
    omega
  · have hlen := congrArg List.length htargets
    simp only [List.length_map, List.length_append, List.length_singleton] at hlen
    have := h.items
    rw [hb, List.length_cons] at this
    omega
  · have hnot : CallState.isAnswered (.ofReply? r) = false :=
      (CallState.of_isInFlight (CallState.isInFlight_ofReply? r)).1
    rw [CallLog.countSince_startWith _ _ h.before, if_neg (Bool.eq_false_iff.1 hnot), ho]
    exact h.outstanding
  · intro item' hmem
    exact h.buffered item' (hb ▸ List.mem_cons_of_mem _ hmem)
  · intro target hmem
    rw [htargets] at hmem
    rcases List.mem_append.1 hmem with hmem | hmem
    · exact h.called target hmem
    · rw [List.mem_singleton.1 hmem]
      exact h.buffered item (hb ▸ List.mem_cons_self)

theorem reply (h : Accounts o left q log) (n : Nat) (r : Reply) :
    Accounts o left q (log.reply n r) := by
  have htargets := CallLog.targets_reply log o.log n r
  refine ⟨?_, h.sound, h.capacity, ?_, ?_, h.buffered, htargets ▸ h.called⟩
  · rw [CallLog.size_reply]
    exact h.before
  · rw [CallLog.length_since, CallLog.size_reply, ← CallLog.length_since]
    exact h.items
  · rw [CallLog.countSince_reply n r rfl]
    exact h.outstanding

/-- A call comes to an end without an answer, and its item stays outstanding. -/
theorem drop (h : Accounts o left q log) (hn : o.log.size < call) (hs : log.state? call = some s)
    (hflight : s.isInFlight = true) (hu : u.isAnswered = false) :
    Accounts o left q (log.set call u) := by
  have htargets := CallLog.targets_set log o.log call u
  refine ⟨?_, h.sound, h.capacity, ?_, ?_, h.buffered, htargets ▸ h.called⟩
  · rw [CallLog.size_set]
    exact h.before
  · rw [CallLog.length_since, CallLog.size_set, ← CallLog.length_since]
    exact h.items
  · rw [CallLog.countSince_set_of_not hn hs (CallState.of_isInFlight hflight).1, hu]
    exact h.outstanding

theorem answer (h : Accounts o left q log) (hn : o.log.size < call) (hs : log.state? call = some s)
    (hflight : s.isInFlight = true) (hu : u.isAnswered = true) (hq : q.markDone = .ok q') :
    Accounts o left q' (log.set call u) := by
  obtain ⟨hq', hout⟩ := WorkQueue.markDone_ok hq
  have hb : q'.buffer = q.buffer := by rw [hq']
  have hd := WorkQueue.Dealing.markDone hq 0
  have htargets := CallLog.targets_set log o.log call u
  refine ⟨?_, hd.sound h.sound, hd.capacity.trans h.capacity, ?_, ?_, hb ▸ h.buffered,
    htargets ▸ h.called⟩
  · rw [CallLog.size_set]
    exact h.before
  · rw [CallLog.length_since, CallLog.size_set, ← CallLog.length_since, hb]
    exact h.items
  · have := h.outstanding
    rw [CallLog.countSince_set_of_not hn hs (CallState.of_isInFlight hflight).1, if_pos hu]
    omega

/-- What is put and not answered is buffered, or its call is in flight, lost or abandoned. -/
theorem outstanding_eq (h : Accounts o left q log) : q.outstanding = q.buffer.length +
    log.countSince o.log CallState.isInFlight + log.countSince o.log CallState.isLost +
      log.countSince o.log CallState.isAbandoned := by
  have hitems := h.items
  have hout := h.outstanding
  have hcalls := CallLog.length_since_eq log o.log
  omega

theorem markDone_ok (h : Accounts o left q log) (hn : o.log.size < call)
    (hs : log.state? call = some s) (hflight : s.isInFlight = true) : ∃ q', q.markDone = .ok q' := by
  have hpos := CallLog.countSince_pos hn hs hflight
  have hout := h.outstanding_eq
  have hne : q.outstanding ≠ 0 := by omega
  exact ⟨_, if_neg hne⟩

end Accounts

/-! ### Calls and workers -/

/-- The calls made since `before` and the workers that wait for them. -/
structure Links (before log : CallLog) (tasks : List Task) : Prop where
  held : ∀ t call, callOf tasks t = some call →
    before.size < call ∧ ∃ s, log.state? call = some s ∧ s.isInFlight = true
  apart : ∀ t u call, callOf tasks t = some call → callOf tasks u = some call → t = u
  calling : countWorkers Worker.isCalling tasks = log.countSince before CallState.isInFlight
  lost : countWorkers Worker.isLost tasks = log.countSince before CallState.isLost

namespace Links

variable {before log : CallLog} {tasks tasks' : List Task} {t : TaskId} {w v : Worker}
  {d d' : RunDriver} {call : Nat} {u : CallState}

theorem start (log : CallLog) (d : RunDriver) : Links log log [.driver d] := by
  have hnone : ∀ t, callOf [.driver d] t = none := by
    intro t
    cases t <;> rfl
  refine ⟨fun t call h => ?_, fun t _ call h => ?_, ?_, ?_⟩
  · rw [hnone] at h
    cases h
  · rw [hnone] at h
    cases h
  · rw [CallLog.countSince_self]
    rfl
  · rw [CallLog.countSince_self]
    rfl

theorem nobody (log : CallLog) : Links log log [] :=
  ⟨fun _ _ h => (by cases h), fun _ _ _ h => (by cases h), (CallLog.countSince_self log _).symm,
    (CallLog.countSince_self log _).symm⟩

theorem of_callOf (h : Links before log tasks) (hcall : ∀ t, callOf tasks' t = callOf tasks t)
    (hcalling : countWorkers Worker.isCalling tasks' = countWorkers Worker.isCalling tasks)
    (hlost : countWorkers Worker.isLost tasks' = countWorkers Worker.isLost tasks) :
    Links before log tasks' :=
  ⟨fun t call ht => h.held t call (hcall t ▸ ht),
    fun t u call ht hu => h.apart t u call (hcall t ▸ ht) (hcall u ▸ hu),
    hcalling.trans h.calling, hlost.trans h.lost⟩

theorem setDriver (h : Links before log tasks) (ht : tasks[0]? = some (.driver d)) :
    Links before log (tasks.set 0 (.driver d')) :=
  h.of_callOf (callOf_set_driver ht) (countWorkers_set_driver ht) (countWorkers_set_driver ht)

theorem spawn (h : Links before log tasks) (size : Nat) (policy : FailurePolicy) :
    Links before log (tasks ++ Engine.poolWorkers size policy) :=
  h.of_callOf (callOf_append_poolWorkers tasks)
    (Engine.countWorkers_append_poolWorkers (fun _ => rfl) tasks)
    (Engine.countWorkers_append_poolWorkers (fun _ => rfl) tasks)

theorem abortAll {e : Engine} (h : Links before log e.tasks) (members : List TaskId) :
    Links before log (e.abortAll members).tasks :=
  h.of_callOf (callOf_abortAll e members) (Engine.countWorkers_abortAll (fun _ => rfl) e members)
    (Engine.countWorkers_abortAll (fun _ => rfl) e members)

theorem rest (h : Links before log tasks) (ht : tasks[t]? = some (.worker w))
    (hcall : v.call? = w.call?) (hlost : v.isLost = w.isLost) :
    Links before log (tasks.set t (.worker v)) := by
  refine h.of_callOf (fun u => ?_) (countWorkers_set_of_eq ht ?_) (countWorkers_set_of_eq ht hlost)
  · rw [callOf_set_worker ht]
    split
    · subst u
      rw [hcall, callOf, ht]
      rfl
    · rfl
  · rw [Worker.isCalling, hcall, Worker.isCalling]

/-- A new call belongs to the worker that makes it. -/
theorem take {target : Target} (h : Links before log tasks) (hbefore : before.size ≤ log.size)
    (ht : tasks[t]? = some (.worker w)) (hw : w.phase = .seeking)
    (hv : v.phase = .calling (log.size + 1)) (r : Option Reply) :
    Links before (log.startWith target r) (tasks.set t (.worker v)) := by
  have hcall : v.call? = some (log.size + 1) := Worker.call?_eq_some.2 hv
  have hflight := CallState.isInFlight_ofReply? r
  have hold : ∀ u call, callOf tasks u = some call → call ≤ log.size := by
    intro u call hu
    obtain ⟨-, s, hs, -⟩ := h.held u call hu
    exact CallLog.le_size_of_state? hs
  refine ⟨fun u call hu => ?_, fun u u' call hu hu' => ?_, ?_, ?_⟩
  · rw [callOf_set_worker ht] at hu
    split at hu
    · rw [hcall] at hu
      cases hu
      exact ⟨by omega, _, CallLog.state?_startWith_new r, hflight⟩
    · obtain ⟨hlt, s, hs, hsf⟩ := h.held u call hu
      refine ⟨hlt, s, ?_, hsf⟩
      rw [CallLog.state?_startWith_of_le r (hold u call hu), hs]
  · rw [callOf_set_worker ht] at hu hu'
    -- an old call has a lower number than the new one
    split at hu <;> split at hu'
    · rename_i h₁ h₂
      exact h₁.trans h₂.symm
    · rw [hcall] at hu
      cases hu
      have := hold u' _ hu'
      omega
    · rw [hcall] at hu'
      cases hu'
      have := hold u _ hu
      omega
    · exact h.apart u u' call hu hu'
  · have hset := countWorkers_set (p := Worker.isCalling) (v := v) ht
    rw [CallLog.countSince_startWith _ _ hbefore, hflight, ← h.calling]
    have hv' : v.isCalling = true := by rw [Worker.isCalling, hcall]; rfl
    have hw' : w.isCalling = false := by rw [Worker.isCalling, (Worker.of_seeking hw).2.1]; rfl
    rw [hv', hw'] at hset
    exact hset
  · rw [CallLog.countSince_startWith _ _ hbefore, (CallState.of_isInFlight hflight).2.2.2.1, ← h.lost]
    refine countWorkers_set_of_eq ht ?_
    rw [(Worker.of_calling hv).2.2, (Worker.of_seeking hw).2.2]

theorem release (h : Links before log tasks) (ht : tasks[t]? = some (.worker w))
    (hw : w.phase = .calling call) (hv : v.call? = none) (hu : u.isInFlight = false)
    (hlost : v.isLost = u.isLost) :
    Links before (log.set call u) (tasks.set t (.worker v)) := by
  have hcall : callOf tasks t = some call := callOf_eq_some.2 ⟨w, ht, hw⟩
  obtain ⟨hlt, s, hs, hflight⟩ := h.held t call hcall
  refine ⟨fun x c hx => ?_, fun x y c hx hy => ?_, ?_, ?_⟩
  · rw [callOf_set_worker ht] at hx
    split at hx
    · rw [hv] at hx
      cases hx
    · rename_i hne
      obtain ⟨hlt', s', hs', hsf⟩ := h.held x c hx
      refine ⟨hlt', s', ?_, hsf⟩
      have hc : c ≠ call := by
        intro hc
        subst hc
        exact hne (h.apart x t c hx hcall)
      rw [CallLog.state?_set_of_ne hc, hs']
  · rw [callOf_set_worker ht] at hx hy
    split at hx
    · rw [hv] at hx
      cases hx
    split at hy
    · rw [hv] at hy
      cases hy
    · exact h.apart x y c hx hy
  · have hset := countWorkers_set (p := Worker.isCalling) (v := v) ht
    have hcount := CallLog.countSince_set (p := CallState.isInFlight) (u := u) hlt hs
    have hv' : v.isCalling = false := by rw [Worker.isCalling, hv]; rfl
    rw [hv', (Worker.of_calling hw).2.1, h.calling] at hset
    rw [hu, hflight] at hcount
    omega
  · have hset := countWorkers_set (p := Worker.isLost) (v := v) ht
    have hcount := CallLog.countSince_set (p := CallState.isLost) (u := u) hlt hs
    rw [(Worker.of_calling hw).2.2, hlost, h.lost] at hset
    rw [(CallState.of_isInFlight hflight).2.2.2.1] at hcount
    omega

theorem reply (h : Links before log tasks) (n : Nat) (r : Reply) :
    Links before (log.reply n r) tasks := by
  refine ⟨fun t call ht => ?_, h.apart, ?_, ?_⟩
  · obtain ⟨hlt, s, hs, hflight⟩ := h.held t call ht
    refine ⟨hlt, ?_⟩
    rcases CallLog.reply_eq log n r with ⟨hw, hreply⟩ | hreply
    · rw [hreply]
      by_cases hn : call = n
      · subst hn
        exact ⟨_, CallLog.state?_set_self hw, rfl⟩
      · exact ⟨s, by rw [CallLog.state?_set_of_ne hn, hs], hflight⟩
    · rw [hreply]
      exact ⟨s, hs, hflight⟩
  · rw [CallLog.countSince_reply n r rfl]
    exact h.calling
  · rw [CallLog.countSince_reply n r rfl]
    exact h.lost

end Links

end LoadGenerator
