import LoadGenerator.Proofs.WorkQueue.Requests

/-!
# A queue at rest

A request is `Stalled` when to try it again would not even change the queue. Whoever is told to wait
is stalled from then on, and what others do while they are told to wait does not help
(`stalled_of_attempt`), so a session that has settled has stalled requests only. Those who are stalled
at a queue wait for each other in line, and the first of them for something that is not there
(`Lined.atRest`): the buffer is full, or empty and open, or something is outstanding.
-/

namespace LoadGenerator.WorkQueue

variable {α : Type} {q q' : WorkQueue α} {t u : Ticket} {what : Request α} {item : α}

/-- What a request waits for that would not be answered if it was tried again. -/
def Stalled (q : WorkQueue α) (t : Ticket) : Request α → Prop
  | .put _ => t ∉ q.granted ∧ t ∈ q.putters
  | .get => (q.turn = .held t ∧ q.buffer = [] ∧ q.closed = false) ∨
      ∃ o, q.turn.owner = some o ∧ t ≠ o ∧ t ∈ q.getters
  | .join => q.drained = false

theorem attempt_of_stalled (h : q.Stalled t what) : attempt q t what = (q, none) := by
  cases what with
  | put item =>
    have hput : q.put t item = (q, .waiting) := put_of_mem_putters h.1 h.2
    simp only [attempt, hput]
  | get =>
    have hget : q.get t = (q, .waiting) := by
      rcases h with ⟨ht, hb, hc⟩ | ⟨o, ho, hne, hg⟩
      · exact get_of_held ht hb hc
      · exact get_of_mem_getters ho hne hg
    simp only [attempt, hget]
  | join =>
    have hdrained : q.drained = false := h
    simp [attempt, hdrained]

/-! ### Being told to wait -/

/-- Whoever is told to wait is stalled, and nobody who has been stalled gets further by it. -/
theorem stalled_of_attempt (h : attempt q t what = (q', none)) :
    q'.Stalled t what ∧ ∀ u other, q.Stalled u other → q'.Stalled u other := by
  have htried := attempt_tried q t what
  rw [h] at htried
  cases htried with
  | putWaits hput =>
    obtain ⟨hg, rfl⟩ := put_waiting_eq hput
    refine ⟨⟨hg, mem_standIn.2 (.inr rfl)⟩, fun u other hu => ?_⟩
    cases other with
    | put => exact ⟨hu.1, mem_standIn.2 (.inl hu.2)⟩
    | get | join => exact hu
  | getWaits hget =>
    rcases get_waiting_eq hget with ⟨rfl, hb, hc, howner⟩ | ⟨o, ho, hne, rfl⟩
    · refine ⟨.inl ⟨rfl, hb, hc⟩, fun u other hu => ?_⟩
      cases other with
      | put | join => exact hu
      | get =>
        rcases hu with ⟨hheld, -⟩ | ⟨o, ho, hne, hg⟩
        · obtain rfl : u = t := howner u (by rw [hheld]; rfl)
          exact .inl ⟨rfl, hb, hc⟩
        · obtain rfl := howner o ho
          exact .inr ⟨o, rfl, hne, hg⟩
    · refine ⟨.inr ⟨o, ho, hne, mem_standIn.2 (.inr rfl)⟩, fun u other hu => ?_⟩
      cases other with
      | put | join => exact hu
      | get =>
        refine hu.imp_right fun ⟨o, ho, hne, hg⟩ => ?_
        exact ⟨o, ho, hne, mem_standIn.2 (.inl hg)⟩
  | joinWaits hdrained => exact ⟨hdrained, fun _ _ => id⟩

theorem patient_attempt : Waitlist.Patient (attempt : Waitlist.Attempt (WorkQueue α) _ _) where
  again _ _ _ _ h := attempt_of_stalled (stalled_of_attempt h).1
  others _ _ _ _ u other h hu :=
    attempt_of_stalled ((stalled_of_attempt h).2 u other (stalled_of_attempt hu).1)

/-! ### At rest -/

namespace Session

variable {s : Session α} {id : Ticket}

/-- Whoever still waits waits for something that is not there. -/
structure AtRest (capacity : Nat) (s : Session α) : Prop where
  put : ∀ id item, (id, .put item) ∈ s.requests.waiting → s.queue.buffer.length = capacity
  get : ∀ id, (id, .get) ∈ s.requests.waiting → s.queue.buffer = [] ∧ s.queue.closed = false
  join : ∀ id, (id, .join) ∈ s.requests.waiting → 0 < s.queue.outstanding
  apart : ∀ id item, (id, .put item) ∈ s.requests.waiting → ∀ other,
    (other, .get) ∉ s.requests.waiting
  closed : s.queue.closed = true → ∀ id, (id, .get) ∉ s.requests.waiting
  still : ∀ id, s.poll id = s

namespace Lined

theorem full_of_stalled (h : Lined s)
    (hstalled : ∀ id what, (id, what) ∈ s.requests.waiting → s.queue.Stalled id what)
    (hm : (id, .put item) ∈ s.requests.waiting) : s.queue.buffer.length = s.queue.capacity := by
  obtain ⟨-, hp⟩ := hstalled id _ hm
  have hfree := h.sound.full (List.ne_nil_of_mem hp)
  -- whoever had been granted a slot would not be stalled
  have hgranted : s.queue.granted = [] := by
    refine List.eq_nil_iff_forall_not_mem.2 fun t ht => ?_
    obtain ⟨item, hm⟩ := h.mem_putLine.1 (List.mem_append_left _ ht)
    exact (hstalled t _ hm).1 ht
  have hslots := h.sound.slots
  rw [WorkQueue.slots, hfree, hgranted] at hslots
  simpa using hslots

theorem idle_of_stalled (h : Lined s)
    (hstalled : ∀ id what, (id, what) ∈ s.requests.waiting → s.queue.Stalled id what)
    (hm : (id, .get) ∈ s.requests.waiting) : s.queue.buffer = [] ∧ s.queue.closed = false := by
  rcases hstalled id _ hm with ⟨-, hidle⟩ | ⟨o, ho, -, -⟩
  · exact hidle
  -- the owner of the turn is stalled as well, and only an empty buffer can stall it
  have hfirst : o ∈ s.queue.getLine := by
    rw [getLine_of_owner ho]
    exact List.mem_cons_self
  rcases hstalled o _ (h.mem_getLine.1 hfirst) with ⟨-, hidle⟩ | ⟨o', ho', hne, -⟩
  · exact hidle
  · rw [ho] at ho'
    exact absurd (Option.some.inj ho') hne

theorem atRest (h : Lined s) (hpos : 0 < s.queue.capacity)
    (hstalled : ∀ id what, (id, what) ∈ s.requests.waiting → s.queue.Stalled id what) :
    AtRest s.queue.capacity s := by
  refine ⟨fun id item hm => h.full_of_stalled hstalled hm,
    fun id hm => h.idle_of_stalled hstalled hm, fun id hm => ?_, fun id item hm other hg => ?_,
    fun hclosed id hm => ?_, fun id => ?_⟩
  · have hdrained : s.queue.drained = false := hstalled id _ hm
    have hne : s.queue.outstanding ≠ 0 := by simpa [drained] using hdrained
    exact Nat.pos_of_ne_zero hne
  · have hfull := h.full_of_stalled hstalled hm
    rw [(h.idle_of_stalled hstalled hg).1] at hfull
    exact Nat.ne_of_lt hpos hfull
  · rw [(h.idle_of_stalled hstalled hm).2] at hclosed
    cases hclosed
  · unfold Session.poll
    rcases Waitlist.poll_cases attempt s.queue s.requests id with ⟨-, hpoll⟩ | ⟨what, hm, hpoll⟩
    · rw [hpoll]
    · rw [hpoll, attempt_of_stalled (hstalled id what hm)]
      rfl

theorem settle (h : Lined s) (hpos : 0 < s.queue.capacity) :
    Lined s.settle ∧ s.settle.queue.capacity = s.queue.capacity ∧
      AtRest s.queue.capacity s.settle := by
  obtain ⟨ids, hids⟩ := settle_eq_run h.numbered
  have hlined : Lined s.settle := hids ▸ h.run _
  have hcapacity : s.settle.queue.capacity = s.queue.capacity := hids ▸ capacity_run h _
  refine ⟨hlined, hcapacity, ?_⟩
  rw [← hcapacity]
  refine hlined.atRest (hcapacity ▸ hpos) fun id what hm => ?_
  exact (stalled_of_attempt (Waitlist.settle_still patient_attempt h.numbered s.queue hm)).1

theorem closed_settle (h : Lined s) : s.settle.queue.closed = true ↔ s.queue.closed = true := by
  obtain ⟨ids, hids⟩ := settle_eq_run h.numbered
  rw [hids, closed_run h]
  refine or_iff_left fun hm => ?_
  obtain ⟨id, -, hid⟩ := List.mem_map.mp hm
  cases hid

end Lined

/-- Carries out batches of actions, and settles after each of them. -/
def play (s : Session α) : List (List (Action α)) → Session α
  | [] => s
  | batch :: steps => (s.run batch).settle.play steps

theorem Lined.play (h : Lined s) (hpos : 0 < s.queue.capacity) (hrest : AtRest s.queue.capacity s)
    (steps : List (List (Action α))) : AtRest s.queue.capacity (s.play steps) := by
  induction steps generalizing s with
  | nil => exact hrest
  | cons batch steps ih =>
    have hrun := capacity_run h batch
    obtain ⟨hlined, hcapacity, hbatch⟩ := (h.run batch).settle (hrun ▸ hpos)
    have hsame := hcapacity.trans hrun
    rw [← hsame]
    refine ih hlined (hsame ▸ hpos) ?_
    rwa [hcapacity]

/-- A queue is closed from the step on in which it is told to close, and not before. -/
theorem Lined.closed_play (h : Lined s) (hpos : 0 < s.queue.capacity)
    (steps : List (List (Action α))) : (s.play steps).queue.closed = true ↔
      s.queue.closed = true ∨ ∃ batch ∈ steps, .close ∈ batch := by
  induction steps generalizing s with
  | nil => exact ⟨.inl, fun hc => hc.resolve_right fun ⟨_, hm, _⟩ => List.not_mem_nil hm⟩
  | cons batch steps ih =>
    have hrun := capacity_run h batch
    obtain ⟨hlined, hcapacity, -⟩ := (h.run batch).settle (hrun ▸ hpos)
    rw [List.exists_mem_cons_iff, ← or_assoc, ← closed_run h, ← (h.run batch).closed_settle]
    exact ih hlined (hcapacity.trans hrun ▸ hpos)

theorem atRest_new {capacity : Nat} :
    AtRest capacity (⟨ofCapacity capacity, {}⟩ : Session α) := by
  refine ⟨?_, ?_, ?_, ?_, ?_, fun id => rfl⟩ <;> simp

end Session

end LoadGenerator.WorkQueue
