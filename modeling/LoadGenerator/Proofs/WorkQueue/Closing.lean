import LoadGenerator.Proofs.WorkQueue.Outstanding
import LoadGenerator.Proofs.WorkQueue.Slots

/-!
# The end of a closed queue

A closed queue refuses whoever comes to put, but a put that waited when it was closed keeps its
place in line, and is accepted as soon as it is polled with a slot granted. So whoever gets nothing
from a closed queue has seen its end exactly if no put waits at that moment (`end_of_queue`): a slot
granted by the last get is filled after the next one has found the buffer empty. The puts that wait
become fewer once the queue is closed, so there is an end.
-/

namespace LoadGenerator.WorkQueue

variable {α : Type} {q q' : WorkQueue α} {t : Ticket} {what : Request α} {b : Option (Answer α)}
  {item : α}

/-! ### Requests of a closed queue -/

theorem mem_granted_of_put_ok (hc : q.closed = true) (h : q.put t item = (q', .done (.ok ()))) :
    t ∈ q.granted := by
  by_contra hg
  rw [put, if_neg hg, if_pos hc] at h
  split at h <;> cases h

theorem put_of_closed (hc : q.closed = true) (ht : t ∉ q.putLine) :
    q.put t item = (q, .done (.error .closed)) := by
  have hg : t ∉ q.granted := fun hg => ht (List.mem_append_left _ hg)
  have hp : t ∉ q.putters := fun hp => ht (List.mem_append_right _ hp)
  rw [put, if_neg hg, if_neg hp, if_pos hc]

theorem put_of_granted (item : α) (hg : t ∈ q.granted) :
    ∃ q', q.put t item = (q', .done (.ok ())) := by
  rw [put, if_pos hg]
  exact ⟨_, rfl⟩

/-- Whoever owns the turn, or finds it free, gets the first item. -/
theorem get_of_buffer {rest : List α} (ho : ∀ o, q.turn.owner = some o → o = t)
    (hb : q.buffer = item :: rest) : ∃ q', q.get t = (q', .done (some item)) := by
  have hserve : q.get t = q.serve t := by
    unfold get
    cases h : q.turn.owner with
    | none => rfl
    | some o => exact if_pos (ho o h).symm
  rw [hserve, serve, hb]
  exact ⟨_, rfl⟩

theorem Tried.eq_of_get {q₁ : WorkQueue α} {got : Option α} (h : Tried q t .get q' b)
    (hget : q.get t = (q₁, .done got)) : b = some (.got got) := by
  cases h with
  | getWaits h =>
    rw [hget] at h
    cases h
  | getDone h =>
    rw [hget] at h
    cases h
    rfl

theorem Tried.eq_of_put {q₁ : WorkQueue α} {result : Except QueueFault Unit}
    (h : Tried q t (.put item) q' b) (hput : q.put t item = (q₁, .done result)) :
    b = some (.put result) := by
  cases h with
  | putWaits h =>
    rw [hput] at h
    cases h
  | putDone h =>
    rw [hput] at h
    cases h
    rfl

/-- Where there is nothing to get and no slot to fill, no request moves an item. -/
theorem Tried.over (h : Tried q t what q' b) (hc : q.closed = true) (hb : q.buffer = [])
    (hg : t ∉ q.granted) : q'.buffer = [] ∧ b.toList.filterMap Answer.item? = [] ∧
      b.toList.countP Answer.isAccepted = 0 := by
  cases h with
  | putWaits h => exact ⟨(put_waiting h).2.1.trans hb, rfl, rfl⟩
  | getWaits h => exact ⟨(get_waiting h).2.1.trans hb, rfl, rfl⟩
  | joinWaits | joined => exact ⟨hb, rfl, rfl⟩
  | @putDone _ _ result h =>
    cases result with
    | ok => exact absurd (mem_granted_of_put_ok hc h) hg
    | error => exact ⟨(congrArg buffer (put_error h).1).trans hb, rfl, rfl⟩
  | @getDone _ result h =>
    cases result with
    | none => exact ⟨(get_none h).2.1.trans hb, rfl, rfl⟩
    | some =>
      have hsome := (get_some h).2.1
      rw [hb] at hsome
      cases hsome

/-- A closed queue accepts only who has been granted a slot. -/
theorem Tried.granted_of_accepted (h : Tried q t what q' (some (.put (.ok ()))))
    (hc : q.closed = true) : t ∈ q.granted := by
  cases h with
  | putDone hput => exact mem_granted_of_put_ok hc hput

/-- Whoever gets nothing finds the queue closed and its buffer empty. -/
theorem Tried.of_got_none (h : Tried q t what q' (some (.got none))) :
    q'.closed = true ∧ q'.buffer = [] := by
  cases h with
  | getDone hget =>
    obtain ⟨hd, hb, -, hc, hempty⟩ := get_none hget
    exact ⟨hd.closed.trans hc, hb.trans hempty⟩

namespace Session

variable {s s' : Session α} {action : Action α} {id : Ticket}

theorem Lined.mem_putsWaiting (h : Lined s) : t ∈ s.putsWaiting ↔ t ∈ s.queue.putLine := by
  rw [← h.puts]
  rfl

/-! ### Closed sessions -/

theorem Move.closed (h : Move s action s') (hc : s.queue.closed = true) :
    s'.queue.closed = true :=
  h.closed_iff.mpr (.inl hc)

/-- The puts that wait at a closed queue become fewer. -/
theorem Move.mem_putsWaiting (h : Lined s) (hc : s.queue.closed = true) (hm : Move s action s')
    (ht : t ∈ s'.putsWaiting) : t ∈ s.putsWaiting := by
  obtain ⟨what, hw, hp⟩ := Waitlist.mem_ids.1 ht
  have hold : (t, what) ∈ s.requests.waiting → t ∈ s.putsWaiting :=
    fun hw => Waitlist.mem_ids.2 ⟨what, hw, hp⟩
  cases hm with
  | @start _ q' b htried =>
    rcases Waitlist.mem_enter.1 (Waitlist.mem_resolve hw) with hw' | hnew
    · exact hold hw'
    -- a put that has just come is refused
    cases hnew
    cases htried with
    | putWaits hput =>
      rw [put_of_closed hc h.next_not_mem.1] at hput
      cases hput
    | putDone => exact absurd rfl (Waitlist.mem_withdraw.1 hw).2
    | getWaits | getDone | joinWaits | joined => cases hp
  | poll => exact hold (Waitlist.mem_resolve hw)
  | drop => exact hold (Waitlist.mem_withdraw.1 hw).1
  | pollNone | dropNone | mark | markNone | close => exact hold hw

/-- A closed queue accepts only puts that wait. -/
theorem Move.accepted (h : Lined s) (hc : s.queue.closed = true) (hm : Move s action s')
    (ha : (t, .put (.ok ())) ∈ s'.requests.answered) :
    (t, .put (.ok ())) ∈ s.requests.answered ∨ t ∈ s.putsWaiting := by
  refine (hm.effect.mem_answered ha).imp_right ?_
  rintro ⟨what, -, htried⟩
  exact h.mem_putsWaiting.2 (List.mem_append_left _ (htried.granted_of_accepted hc))

theorem Move.got_none (hm : Move s action s') (ha : (id, .got none) ∈ s'.requests.answered) :
    (id, .got none) ∈ s.requests.answered ∨ s'.queue.closed = true ∧ s'.queue.buffer = [] := by
  refine (hm.effect.mem_answered ha).imp_right ?_
  rintro ⟨what, -, htried⟩
  exact htried.of_got_none

namespace Lined

theorem late_run (h : Lined s) (hc : s.queue.closed = true) (actions : List (Action α)) :
    (∀ t ∈ (s.run actions).putsWaiting, t ∈ s.putsWaiting) ∧
      ∀ t, (t, .put (.ok ())) ∈ (s.run actions).requests.answered →
        (t, .put (.ok ())) ∈ s.requests.answered ∨ t ∈ s.putsWaiting := by
  have hrun := h.run_induction (P := fun s' : Session α => s'.queue.closed = true ∧
      (∀ t ∈ s'.putsWaiting, t ∈ s.putsWaiting) ∧
      ∀ t, (t, .put (.ok ())) ∈ s'.requests.answered →
        (t, .put (.ok ())) ∈ s.requests.answered ∨ t ∈ s.putsWaiting)
    ⟨hc, fun _ => id, fun _ => .inl⟩ (fun s₁ s₂ _ h₁ hm hlate => ?_) actions
  · exact hrun.2
  · obtain ⟨hc₁, hwaiting, haccepted⟩ := hlate
    refine ⟨hm.closed hc₁, fun t ht => hwaiting t (hm.mem_putsWaiting h₁ hc₁ ht), fun t ha => ?_⟩
    exact (hm.accepted h₁ hc₁ ha).elim (haccepted t) fun ht => .inr (hwaiting t ht)

end Lined

/-! ### The end -/

/-- Nothing comes out of the queue any more, and nothing goes in. -/
def Final (s : Session α) : Prop :=
  ∀ more, (s.run more).itemsGot = s.itemsGot ∧ (s.run more).putsAccepted = s.putsAccepted

/-- Nothing is in the queue, and nobody waits to put. -/
structure Over (s : Session α) : Prop where
  closed : s.queue.closed = true
  buffer : s.queue.buffer = []
  puts : s.putsWaiting = []

theorem Effect.same {s' : Session α} (he : Effect s action s')
    (hgot : ∀ id what answer, Tried s.queue id what s'.queue (some answer) →
      answer.item? = none ∧ answer.isAccepted = false) :
    s'.itemsGot = s.itemsGot ∧ s'.putsAccepted = s.putsAccepted := by
  unfold itemsGot putsAccepted
  cases he with
  | idle ha | marks _ ha =>
    rw [ha]
    exact ⟨rfl, rfl⟩
  | answers _ htried ha =>
    obtain ⟨hitem, hacc⟩ := hgot _ _ _ htried
    simp [ha, hitem, hacc]

namespace Over

theorem move (h : Over s) (hl : Lined s) (hm : Move s action s') :
    Over s' ∧ s'.itemsGot = s.itemsGot ∧ s'.putsAccepted = s.putsAccepted := by
  have hgranted : ∀ t, t ∉ s.queue.granted := by
    intro t hg
    have hw := hl.mem_putsWaiting.2 (List.mem_append_left _ hg)
    rw [h.puts] at hw
    exact List.not_mem_nil hw
  have hputs : s'.putsWaiting = [] := by
    refine List.eq_nil_iff_forall_not_mem.2 fun t ht => ?_
    have hw := hm.mem_putsWaiting hl h.closed ht
    rw [h.puts] at hw
    exact List.not_mem_nil hw
  have hbuffer : s'.queue.buffer = [] := by
    cases hm with
    | start ht | poll _ ht => exact (ht.over h.closed h.buffer (hgranted _)).1
    | drop => exact (leave_dealing _ _).2.1.trans h.buffer
    | mark hq =>
      rw [(markDone_ok hq).1]
      exact h.buffer
    | pollNone | dropNone | markNone | close => exact h.buffer
  refine ⟨⟨hm.closed h.closed, hbuffer, hputs⟩, hm.effect.same fun id what answer htried => ?_⟩
  obtain ⟨-, hitem, hacc⟩ := htried.over h.closed h.buffer (hgranted id)
  simpa using And.intro hitem hacc

theorem final (h : Over s) (hl : Lined s) : s.Final := by
  intro more
  have hrun := hl.run_induction (P := fun s' : Session α => Over s' ∧ s'.itemsGot = s.itemsGot ∧
    s'.putsAccepted = s.putsAccepted) ⟨h, rfl, rfl⟩ (fun s₁ s₂ _ h₁ hm hold => ?_) more
  · exact hrun.2
  · obtain ⟨hover, hgot, hput⟩ := hold
    obtain ⟨hover', hgot', hput'⟩ := hover.move h₁ hm
    exact ⟨hover', hgot'.trans hgot, hput'.trans hput⟩

end Over

/-- While there is an item, somebody can get it. -/
theorem Lined.buffer_of_final (h : Lined s) (hfinal : s.Final) : s.queue.buffer = [] := by
  by_contra hne
  obtain ⟨item, rest, hb⟩ := List.exists_cons_of_ne_nil hne
  have hgets : ∃ action id, s.Tries action id .get ∧ ∀ o, s.queue.turn.owner = some o → o = id := by
    cases ho : s.queue.turn.owner with
    | none => exact ⟨.start .get, _, .inl ⟨rfl, rfl⟩, fun o h => by cases h⟩
    | some o =>
      have hline : o ∈ s.queue.getLine := by
        rw [getLine_of_owner ho]
        exact List.mem_cons_self
      exact ⟨.poll o, o, .inr ⟨rfl, h.mem_getLine.1 hline⟩, fun o' h => (Option.some.inj h).symm⟩
  obtain ⟨action, id, htries, howner⟩ := hgets
  obtain ⟨q', hget⟩ := get_of_buffer howner hb
  obtain ⟨b, htried, ha⟩ := htries.tried h.numbered
  have hb' := htried.eq_of_get hget
  have hgot : (s.act action).1.itemsGot = s.itemsGot := (hfinal [action]).1
  unfold itemsGot at hgot
  rw [ha, hb'] at hgot
  simp [Answer.item?] at hgot

/-- While a put waits and the buffer is empty, one of those that wait is accepted when it is
polled. -/
theorem Lined.puts_of_final (h : Lined s) (hpos : 0 < s.queue.capacity) (hfinal : s.Final)
    (hb : s.queue.buffer = []) : s.putsWaiting = [] := by
  by_contra hne
  have hgranted : s.queue.granted ≠ [] := by
    intro hg
    obtain ⟨t, ht⟩ := List.exists_mem_of_ne_nil _ hne
    have hline := h.mem_putsWaiting.1 ht
    rw [putLine, hg, List.nil_append] at hline
    have hfree := h.sound.full (List.ne_nil_of_mem hline)
    have hslots := h.sound.slots
    simp only [WorkQueue.slots, hfree, hg, hb, List.length_nil] at hslots
    omega
  obtain ⟨t, ht⟩ := List.exists_mem_of_ne_nil _ hgranted
  obtain ⟨item, hw⟩ := h.mem_putLine.1 (List.mem_append_left _ ht)
  have htries : s.Tries (.poll t) t (.put item) := .inr ⟨rfl, hw⟩
  obtain ⟨q', hput⟩ := put_of_granted item ht
  obtain ⟨b, htried, ha⟩ := htries.tried h.numbered
  have hb' := htried.eq_of_put hput
  have hacc : (s.act (.poll t)).1.putsAccepted = s.putsAccepted := (hfinal [.poll t]).2
  unfold putsAccepted at hacc
  rw [ha, hb'] at hacc
  simp [Answer.isAccepted] at hacc

/-- What is still to come from a closed queue. -/
structure Closing (s : Session α) : Prop where
  closed : s.queue.closed = true
  refused : ∀ item, (s.act (.start (.put item))).2 =
    .started s.requests.next (some (.put (.error .closed)))
  fewer : ∀ more, ∀ t ∈ (s.run more).putsWaiting, t ∈ s.putsWaiting
  accepted : ∀ more t, (t, .put (.ok ())) ∈ (s.run more).requests.answered →
    (t, .put (.ok ())) ∈ s.requests.answered ∨ t ∈ s.putsWaiting
  final : s.Final ↔ s.queue.buffer = [] ∧ s.putsWaiting = []

theorem Lined.closing (h : Lined s) (hpos : 0 < s.queue.capacity)
    (hc : s.queue.closed = true) : Closing s := by
  refine ⟨hc, fun item => ?_, fun more => (h.late_run hc more).1, fun more => (h.late_run hc more).2,
    fun hfinal => ?_, fun ⟨hb, hp⟩ => (Over.mk hc hb hp).final h⟩
  · have hput : s.queue.put s.requests.next item = (s.queue, .done (.error .closed)) :=
      put_of_closed hc h.next_not_mem.1
    simp [act, start, Waitlist.request, attempt, hput]
  · have hb := h.buffer_of_final hfinal
    exact ⟨hb, h.puts_of_final hpos hfinal hb⟩

/-- When a get finds nothing, the queue is closed and its buffer empty, and this is the end of it
exactly if no put waits: puts that wait may still be accepted, and nothing else comes. -/
theorem end_of_queue {capacity : UInt64} (hnew : WorkQueue.new capacity = .ok q)
    {before : List (Action α)} {action : Action α} {id : Ticket}
    (hopen : (id, .got none) ∉ ((⟨q, {}⟩ : Session α).run before).requests.answered)
    (hnone : (id, .got none) ∈
      (((⟨q, {}⟩ : Session α).run before).act action).1.requests.answered) :
    (((⟨q, {}⟩ : Session α).run before).act action).1.queue.buffer = [] ∧
      ∀ more, Closing ((((⟨q, {}⟩ : Session α).run before).act action).1.run more) := by
  obtain ⟨hpos, -, rfl⟩ := new_eq_ok_iff.1 hnew
  have hlined := lined_run capacity.toNat before
  have hmove := act_move hlined.numbered action
  obtain ⟨hc, hb⟩ := (hmove.got_none hnone).resolve_left hopen
  have hcapacity := hmove.capacity.trans (capacity_run (.new capacity.toNat) before)
  refine ⟨hb, fun more => ?_⟩
  have hlined' := hlined.move hmove
  refine (hlined'.run more).closing ?_ ((closed_run hlined' more).mpr (.inl hc))
  rw [capacity_run hlined' more, hcapacity]
  exact hpos

/-- The slot of the first item is granted to the second put, which is accepted after a get has found
nothing. -/
theorem end_of_queue_waiting :
    let before : List (Action Nat) := [.start (.put 7), .start (.put 8), .start .get, .close]
    let s := ((⟨ofCapacity 1, {}⟩ : Session Nat).run before).act (.start .get)
    WorkQueue.new 1 = .ok (ofCapacity 1 : WorkQueue Nat) ∧
      s.1.requests.answered = [(1, .put (.ok ())), (3, .got (some 7)), (4, .got none)] ∧
      s.1.putsWaiting = [2] ∧
      (s.1.run [.poll 2, .start .get]).requests.answered =
        [(1, .put (.ok ())), (3, .got (some 7)), (4, .got none), (2, .put (.ok ())),
          (5, .got (some 8))] ∧
      ∀ more, Closing (s.1.run more) := by
  have hnew : WorkQueue.new 1 = .ok (ofCapacity 1 : WorkQueue Nat) := rfl
  have hopen : (4, .got none) ∉ ((⟨ofCapacity 1, {}⟩ : Session Nat).run
      [.start (.put 7), .start (.put 8), .start .get, .close]).requests.answered := by
    rintro (_ | ⟨_, _ | ⟨_, ⟨⟩⟩⟩)
  have hend := @end_of_queue Nat _ 1 hnew _ (.start .get) 4 hopen (.tail _ (.tail _ (.head _)))
  exact ⟨hnew, rfl, rfl, rfl, hend.2⟩

/-- Not every queue in which a get has found nothing is at its end. -/
theorem not_forall_final : ¬ ∀ (capacity : UInt64) (q : WorkQueue Nat) (actions : List (Action Nat))
    (id : Ticket), WorkQueue.new capacity = .ok q →
      (id, .got none) ∈ ((⟨q, {}⟩ : Session Nat).run actions).requests.answered →
      ((⟨q, {}⟩ : Session Nat).run actions).Final := by
  intro hall
  have hfinal := hall 1 _ [.start (.put 7), .start (.put 8), .start .get, .close, .start .get] 4 rfl
    (.tail _ (.tail _ (.head _)))
  have haccepted := (hfinal [.poll 2]).2
  exact absurd haccepted (by decide)

end Session

end LoadGenerator.WorkQueue
