import LoadGenerator.Proofs.WorkQueue.Requests

/-!
# No slot is lost

The puts that wait stand in one line, in the order in which they came, and those to whom a slot has
been granted are the first of it. So the slots are counted request by request (`SlotBalance`), and
whoever is dropped with a slot granted leaves it to the first in line that has none.
-/

namespace LoadGenerator.WorkQueue

variable {α : Type} {q : WorkQueue α} {t u : Ticket}

theorem leave_granted_of_nil (ht : t ∈ q.granted) (hp : q.putters = []) :
    (q.leave t).granted = q.granted.erase t ∧ (q.leave t).free = q.free + 1 := by
  rw [leave, if_pos ht]
  unfold releaseSlot
  simp only [hp, and_self]

theorem leave_granted_of_cons {rest : List Ticket} (ht : t ∈ q.granted)
    (hp : q.putters = u :: rest) :
    (q.leave t).granted = q.granted.erase t ++ [u] ∧ (q.leave t).free = q.free := by
  rw [leave, if_pos ht]
  unfold releaseSlot
  simp only [hp, and_self]

theorem leave_of_putter (hg : t ∉ q.granted) (hp : t ∈ q.putters) :
    (q.leave t).granted = q.granted ∧ (q.leave t).free = q.free := by
  rw [leave, if_neg hg, if_pos hp]
  exact ⟨rfl, rfl⟩

namespace Session

variable {s : Session α}

/-- The puts that wait, in the order in which they were made. -/
def putsWaiting (s : Session α) : List Ticket :=
  s.requests.ids Request.isPut

def putsGranted (s : Session α) : List Ticket :=
  s.putsWaiting.filter (· ∈ s.queue.granted)

def putsUngranted (s : Session α) : List Ticket :=
  s.putsWaiting.filter (· ∉ s.queue.granted)

theorem isWaiting_of_mem (ht : t ∈ s.putsWaiting) : s.requests.isWaiting t = true := by
  obtain ⟨what, hm, -⟩ := Waitlist.mem_ids.1 ht
  exact Waitlist.isWaiting_eq_true.2 ⟨what, hm⟩

theorem Lined.puts_eq (h : Lined s) :
    s.putsGranted = s.queue.granted ∧ s.putsUngranted = s.queue.putters := by
  have hline : s.putsWaiting = s.queue.granted ++ s.queue.putters := h.puts
  have hapart : ∀ t ∈ s.queue.putters, t ∉ s.queue.granted :=
    fun t ht hg => (List.nodup_append.1 h.nodup_putLine).2.2 t hg t ht rfl
  constructor
  · have hall : s.queue.granted.filter (· ∈ s.queue.granted) = s.queue.granted :=
      List.filter_eq_self.2 fun t ht => decide_eq_true ht
    have hnone : s.queue.putters.filter (· ∈ s.queue.granted) = [] :=
      List.filter_eq_nil_iff.2 fun t ht => by simpa using hapart t ht
    rw [putsGranted, hline, List.filter_append, hall, hnone, List.append_nil]
  · have hnone : s.queue.granted.filter (· ∉ s.queue.granted) = [] :=
      List.filter_eq_nil_iff.2 fun t ht => by simpa using ht
    have hall : s.queue.putters.filter (· ∉ s.queue.granted) = s.queue.putters :=
      List.filter_eq_self.2 fun t ht => by simpa using hapart t ht
    rw [putsUngranted, hline, List.filter_append, hnone, hall, List.nil_append]

/-- A put that is dropped leaves the queue, and the others stay in line. -/
theorem Lined.drop_put (h : Lined s) (ht : t ∈ s.putsWaiting) :
    (s.drop t).putsGranted = (s.queue.leave t).granted ∧ (s.drop t).queue = s.queue.leave t := by
  have hqueue : (s.drop t).queue = s.queue.leave t := by
    rw [drop, if_pos (isWaiting_of_mem ht)]
  rw [(h.move (drop_move s t)).puts_eq.1, hqueue]
  exact ⟨rfl, rfl⟩

/-- Where the slots of a queue are, and where a slot goes whose owner is dropped. -/
structure SlotBalance (capacity : Nat) (s : Session α) : Prop where
  slots : s.queue.free + s.putsGranted.length + s.queue.buffer.length = capacity
  length : s.queue.len + s.queue.free = capacity
  buffered : s.queue.buffer.length ≤ s.queue.len
  bounded : s.queue.len ≤ capacity
  granted : s.putsGranted = s.queue.granted
  idle : 0 < s.queue.free → s.putsUngranted = []
  ordered : s.putsWaiting.Pairwise (· < ·)
  handed : ∀ t first rest, t ∈ s.putsGranted → s.putsUngranted = first :: rest →
    (s.drop t).putsGranted = s.putsGranted.erase t ++ [first] ∧
      (s.drop t).queue.free = s.queue.free
  freed : ∀ t ∈ s.putsGranted, s.putsUngranted = [] →
    (s.drop t).putsGranted = s.putsGranted.erase t ∧ (s.drop t).queue.free = s.queue.free + 1
  kept : ∀ t ∈ s.putsUngranted,
    (s.drop t).putsGranted = s.putsGranted ∧ (s.drop t).queue.free = s.queue.free

theorem Lined.slotBalance (h : Lined s) : SlotBalance s.queue.capacity s := by
  obtain ⟨hgranted, hputters⟩ := h.puts_eq
  have hslots := h.sound.slots
  unfold WorkQueue.slots at hslots
  have hlen : s.queue.len = s.queue.capacity - s.queue.free := rfl
  refine ⟨?_, ?_, ?_, ?_, hgranted, fun hfree => ?_, ?_, fun t first rest ht hu => ?_,
    fun t ht hu => ?_, fun t ht => ?_⟩
  · rw [hgranted]
    exact hslots
  · omega
  · omega
  · omega
  · rw [hputters]
    by_contra hp
    have := h.sound.full hp
    omega
  · exact h.numbered.sorted.sublist (List.filter_sublist.map Prod.fst)
  · obtain ⟨hputs, hqueue⟩ := h.drop_put (List.mem_filter.1 ht).1
    rw [hputs, hqueue, hgranted]
    exact leave_granted_of_cons (hgranted ▸ ht) (hputters.symm.trans hu)
  · obtain ⟨hputs, hqueue⟩ := h.drop_put (List.mem_filter.1 ht).1
    rw [hputs, hqueue, hgranted]
    exact leave_granted_of_nil (hgranted ▸ ht) (hputters.symm.trans hu)
  · obtain ⟨hw, hnot⟩ := List.mem_filter.1 ht
    obtain ⟨hputs, hqueue⟩ := h.drop_put hw
    rw [hputs, hqueue, hgranted]
    exact leave_of_putter (of_decide_eq_true hnot) (hputters ▸ ht)

/-- Whatever is done with a queue, each of its slots is free, granted to a put that waits or taken by
an item, and a slot that is given up goes to the first put that has none. -/
theorem slots_balance {capacity : UInt64} (hnew : WorkQueue.new capacity = .ok q)
    (actions : List (Action α)) :
    SlotBalance capacity.toNat ((⟨q, {}⟩ : Session α).run actions) := by
  obtain ⟨-, -, rfl⟩ := new_eq_ok_iff.1 hnew
  have hbalance := (lined_run capacity.toNat actions).slotBalance
  rwa [capacity_run (.new _) actions] at hbalance

/-- The slot of the first item has been granted to the second put, and the third one waits. -/
theorem slots_balance_granted :
    let actions : List (Action Nat) := [.start (.put 7), .start (.put 8), .start (.put 9),
      .start .get]
    let s := (⟨ofCapacity 1, {}⟩ : Session Nat).run actions
    s.putsGranted = [2] ∧ s.putsUngranted = [3] ∧
      WorkQueue.new 1 = .ok (ofCapacity 1 : WorkQueue Nat) ∧ SlotBalance 1 s := by
  intro actions s
  have hnew : WorkQueue.new 1 = .ok (ofCapacity 1 : WorkQueue Nat) := rfl
  exact ⟨rfl, rfl, hnew, slots_balance hnew actions⟩

end Session

end LoadGenerator.WorkQueue
