import LoadGenerator.Proofs.WorkQueue.Rest

/-!
# No notice is missed

A session asks again whenever a request is polled. In a `Notifier` the same queue is used by requests
that look again only when they have been told to: to join is to be told that the last item has been
marked done, and the holder of the turn, while there is no item, is told when the queue closes. They
listen before they look, so whoever has not been told yet would look in vain (`Informed`), and both
kinds of session always come to the same (`play_plain`). What is said about a session at rest
therefore holds although most of those who wait in it are asleep (`queue_at_rest`).
-/

namespace LoadGenerator.WorkQueue

variable {α : Type} {q q' : WorkQueue α} {t u : Ticket}

/-- A queue and who waits for a notice from it. -/
structure Notifier (α : Type) where
  queue : WorkQueue α
  /-- those who wait to be told that everything is done -/
  joiners : List Ticket := []
  /-- those who wait to be told that the queue closes -/
  listeners : List Ticket := []

namespace Notifier

variable {n : Notifier α}

def put (n : Notifier α) (t : Ticket) (item : α) : Notifier α × Option (Answer α) :=
  let (queue, answer) := WorkQueue.attempt n.queue t (.put item)
  ({ n with queue }, answer)

/-- The next item, unless there is none and the queue has not told that it closes. Whoever finds the
buffer empty on its turn listens from then on. -/
def get (n : Notifier α) (t : Ticket) : Notifier α × Option (Answer α) :=
  if t ∈ n.listeners ∧ n.queue.buffer.isEmpty then (n, none)
  else
    match WorkQueue.attempt n.queue t .get with
    | (queue, some answer) =>
      ({ n with queue, listeners := n.listeners.filter (· != t) }, some answer)
    | (queue, none) =>
      ({ n with
          queue
          listeners := if queue.turn = .held t then t :: n.listeners else n.listeners }, none)

def join (n : Notifier α) (t : Ticket) : Notifier α × Option (Answer α) :=
  if t ∈ n.joiners then (n, none)
  else if n.queue.drained then (n, some .joined)
  else ({ n with joiners := t :: n.joiners }, none)

/-- Makes a request, or makes it again; one that waits for a notice goes on waiting. -/
def attempt : Waitlist.Attempt (Notifier α) (Request α) (Answer α)
  | n, t, .put item => n.put t item
  | n, t, .get => n.get t
  | n, t, .join => n.join t

def leave (n : Notifier α) (t : Ticket) : Notifier α :=
  { queue := n.queue.leave t
    joiners := n.joiners.filter (· != t)
    listeners := n.listeners.filter (· != t) }

/-- Marks an item as done. The last one is made known to those who join. -/
def markDone (n : Notifier α) : Notifier α :=
  match n.queue.markDone with
  | .error _ => n
  | .ok queue => { n with queue, joiners := if queue.drained then [] else n.joiners }

def close (n : Notifier α) : Notifier α :=
  { n with queue := n.queue.close, listeners := [] }

/-- Whoever waits for a notice has not missed it. -/
structure Informed (n : Notifier α) : Prop where
  joiners : n.joiners ≠ [] → n.queue.drained = false
  listeners : ∀ t ∈ n.listeners, n.queue.turn = .held t ∧ n.queue.closed = false

end Notifier

/-! ### What a notice is about -/

theorem drained_congr (h : q'.outstanding = q.outstanding) : q'.drained = q.drained := by
  unfold drained
  rw [h]

theorem turn_put (q : WorkQueue α) (t : Ticket) (item : α) : (q.put t item).1.turn = q.turn := by
  unfold put
  repeat' split
  all_goals rfl

/-- Putting an item is no reason for a notice. -/
theorem Tried.put_frame {item : α} {b : Option (Answer α)} (h : Tried q t (.put item) q' b) :
    q'.turn = q.turn ∧ q'.closed = q.closed ∧ (q.drained = false → q'.drained = false) := by
  refine ⟨?_, h.dealing.closed, fun hdrained => ?_⟩
  · have hturn := turn_put q t item
    cases h with
    | putWaits h | putDone h => rwa [h] at hturn
  · cases h with
    | putWaits h => exact (drained_congr (put_waiting h).2.2.1).trans hdrained
    | @putDone _ _ result h =>
      cases result with
      | error => exact (put_error h).1 ▸ hdrained
      | ok =>
        unfold drained
        rw [(put_ok h).2.2]
        rfl

/-- A turn that is held stays where it is when somebody else leaves. -/
theorem turn_leave (h : q.turn = .held u) (hne : t ≠ u) : (q.leave t).turn = .held u := by
  unfold leave
  split
  · exact (releaseSlot_frame _).2.2.2.2.1.trans h
  split
  · exact h
  split
  · rename_i ho
    rw [h] at ho
    exact absurd (Option.some.inj ho).symm hne
  · exact h

namespace Notifier

variable {n : Notifier α} {what : Request α}

theorem Informed.put (h : n.Informed) (t : Ticket) (item : α) : (n.put t item).1.Informed := by
  obtain ⟨hturn, hclosed, hdrained⟩ := (attempt_tried n.queue t (.put item)).put_frame
  refine ⟨fun hj => hdrained (h.joiners hj), fun u hu => ?_⟩
  show (WorkQueue.attempt n.queue t (.put item)).1.turn = _ ∧
    (WorkQueue.attempt n.queue t (.put item)).1.closed = _
  rw [hturn, hclosed]
  exact h.listeners u hu

/-- Whoever waits to be told that the queue closes holds the turn before an empty buffer. -/
theorem Informed.asleep (h : n.Informed) (ht : t ∈ n.listeners ∧ n.queue.buffer.isEmpty = true) :
    WorkQueue.attempt n.queue t .get = (n.queue, none) := by
  obtain ⟨hturn, hclosed⟩ := h.listeners t ht.1
  have hbuffer : n.queue.buffer = [] := List.isEmpty_iff.1 ht.2
  exact attempt_of_stalled (.inl ⟨hturn, hbuffer, hclosed⟩)

theorem Informed.get (h : n.Informed) (t : Ticket) :
    (n.get t).1.Informed ∧
      WorkQueue.attempt n.queue t .get = ((n.get t).1.queue, (n.get t).2) := by
  unfold Notifier.get
  split
  · rename_i hasleep
    exact ⟨h, h.asleep hasleep⟩
  have htried := attempt_tried n.queue t .get
  generalize WorkQueue.attempt n.queue t .get = result at htried ⊢
  obtain ⟨q', b⟩ := result
  cases htried with
  | getWaits hget =>
    refine ⟨?_, rfl⟩
    rcases get_waiting_eq hget with ⟨rfl, hb, hc, howner⟩ | ⟨o, ho, hne, rfl⟩
    · refine ⟨h.joiners, fun u hu => ?_⟩
      simp only [if_pos] at hu
      rcases List.mem_cons.1 hu with rfl | hu
      · exact ⟨rfl, hc⟩
      · obtain rfl := howner u (by rw [(h.listeners u hu).1]; rfl)
        exact ⟨rfl, hc⟩
    · have hnot : n.queue.turn ≠ .held t := by
        rintro hturn
        rw [hturn] at ho
        exact hne (Option.some.inj ho)
      refine ⟨h.joiners, fun u hu => h.listeners u ?_⟩
      simpa only [if_neg hnot] using hu
  | @getDone _ result hget =>
    refine ⟨⟨fun hj => ?_, fun u hu => ?_⟩, rfl⟩
    · have hout : q'.outstanding = n.queue.outstanding := by
        cases result with
        | none => exact (get_none hget).2.2.1
        | some item => exact (get_some hget).2.2
      exact (drained_congr hout).trans (h.joiners hj)
    · -- nobody else holds the turn when a request is answered
      obtain ⟨hu, hne⟩ := List.mem_filter.1 hu
      rcases get_cases n.queue t with ⟨-, howner⟩ | ⟨q'', hwaits, -⟩
      · obtain rfl := howner u (by rw [(h.listeners u hu).1]; rfl)
        simp at hne
      · rw [hwaits] at hget
        cases hget

theorem Informed.join (h : n.Informed) (t : Ticket) :
    (n.join t).1.Informed ∧
      WorkQueue.attempt n.queue t .join = ((n.join t).1.queue, (n.join t).2) := by
  unfold Notifier.join
  split
  · rename_i hj
    exact ⟨h, attempt_of_stalled (h.joiners (List.ne_nil_of_mem hj))⟩
  split
  · rename_i hdrained
    refine ⟨h, ?_⟩
    simp [WorkQueue.attempt, hdrained]
  · rename_i hdrained
    have hdrained : n.queue.drained = false := Bool.eq_false_iff.2 hdrained
    exact ⟨⟨fun _ => hdrained, h.listeners⟩, attempt_of_stalled hdrained⟩

/-- Those who sleep until they are told are answered when the others are. -/
theorem mirrors_attempt :
    Waitlist.Mirrors (attempt (α := α)) WorkQueue.attempt Notifier.queue Informed where
  keeps n t what h := by
    cases what with
    | put item => exact h.put t item
    | get => exact (h.get t).1
    | join => exact (h.join t).1
  same n t what h := by
    cases what with
    | put item => rfl
    | get => exact (h.get t).2
    | join => exact (h.join t).2

namespace Informed

theorem leave (h : n.Informed) (t : Ticket) : (n.leave t).Informed := by
  obtain ⟨hdealing, -, hout⟩ := leave_dealing n.queue t
  refine ⟨fun hj => ?_, fun u hu => ?_⟩
  · have hj' : n.joiners ≠ [] := fun h0 => hj (by simp [Notifier.leave, h0])
    exact (drained_congr hout).trans (h.joiners hj')
  · obtain ⟨hu, hne⟩ := List.mem_filter.1 hu
    obtain ⟨hturn, hclosed⟩ := h.listeners u hu
    have hne' : t ≠ u := fun he => by simp [he] at hne
    exact ⟨turn_leave hturn hne', hdealing.closed.trans hclosed⟩

theorem markDone (h : n.Informed) : n.markDone.Informed := by
  unfold Notifier.markDone
  split
  · exact h
  · rename_i q' hq
    obtain ⟨hq', -⟩ := markDone_ok hq
    refine ⟨fun hj => ?_, fun u hu => ?_⟩
    · by_cases hdrained : q'.drained = true
      · simp [hdrained] at hj
      · exact Bool.eq_false_iff.2 hdrained
    · rw [hq']
      exact h.listeners u hu

theorem close (h : n.Informed) : n.close.Informed :=
  ⟨h.joiners, fun _ hu => absurd hu List.not_mem_nil⟩

end Informed

/-! ### Sessions with notices -/

/-- A queue that gives notice, and the requests made of it. -/
structure Session (α : Type) where
  notifier : Notifier α
  requests : Waitlist (Request α) (Answer α) := {}

namespace Session

variable {s : Notifier.Session α}

def act (s : Notifier.Session α) : WorkQueue.Session.Action α → Notifier.Session α
  | .start what =>
    let (notifier, requests, _) := s.requests.request attempt s.notifier what
    ⟨notifier, requests⟩
  | .poll id =>
    let (notifier, requests) := s.requests.poll attempt s.notifier id
    ⟨notifier, requests⟩
  | .drop id =>
    if s.requests.isWaiting id then ⟨s.notifier.leave id, s.requests.withdraw id⟩ else s
  | .markDone => { s with notifier := s.notifier.markDone }
  | .close => { s with notifier := s.notifier.close }

def run (s : Notifier.Session α) : List (WorkQueue.Session.Action α) → Notifier.Session α
  | [] => s
  | action :: actions => (s.act action).run actions

def settle (s : Notifier.Session α) : Notifier.Session α :=
  let (notifier, requests) := s.requests.settle attempt s.notifier
  ⟨notifier, requests⟩

def play (s : Notifier.Session α) : List (List (WorkQueue.Session.Action α)) → Notifier.Session α
  | [] => s
  | batch :: steps => (s.run batch).settle.play steps

/-- The session in which everyone asks again. -/
def plain (s : Notifier.Session α) : WorkQueue.Session α :=
  ⟨s.notifier.queue, s.requests⟩

theorem act_plain (h : s.notifier.Informed) (action : WorkQueue.Session.Action α) :
    (s.act action).notifier.Informed ∧ (s.act action).plain = (s.plain.act action).1 := by
  cases action with
  | start what =>
    obtain ⟨hinformed, hsame⟩ := mirrors_attempt.request h s.requests what
    refine ⟨hinformed, ?_⟩
    simp only [act, plain, WorkQueue.Session.act, WorkQueue.Session.start, hsame]
  | poll id =>
    obtain ⟨hinformed, hsame⟩ := mirrors_attempt.poll h s.requests id
    refine ⟨hinformed, ?_⟩
    simp only [act, plain, WorkQueue.Session.act, WorkQueue.Session.poll, hsame]
  | drop id =>
    by_cases hw : s.requests.isWaiting id = true
    · have hact : s.act (.drop id) = ⟨s.notifier.leave id, s.requests.withdraw id⟩ := if_pos hw
      rw [hact]
      exact ⟨h.leave id, (if_pos hw).symm⟩
    · have hact : s.act (.drop id) = s := if_neg hw
      rw [hact]
      exact ⟨h, (if_neg hw).symm⟩
  | markDone =>
    refine ⟨h.markDone, ?_⟩
    simp only [act, plain, WorkQueue.Session.act, Notifier.markDone]
    cases s.notifier.queue.markDone <;> rfl
  | close => exact ⟨h.close, rfl⟩

theorem run_plain (h : s.notifier.Informed) (actions : List (WorkQueue.Session.Action α)) :
    (s.run actions).notifier.Informed ∧ (s.run actions).plain = s.plain.run actions := by
  induction actions generalizing s with
  | nil => exact ⟨h, rfl⟩
  | cons action actions ih =>
    obtain ⟨hinformed, hsame⟩ := act_plain h action
    obtain ⟨hrest, hrun⟩ := ih hinformed
    refine ⟨hrest, hrun.trans ?_⟩
    rw [hsame]
    rfl

theorem settle_plain (h : s.notifier.Informed) :
    s.settle.notifier.Informed ∧ s.settle.plain = s.plain.settle := by
  obtain ⟨hinformed, hsame⟩ := mirrors_attempt.settle h s.requests
  refine ⟨hinformed, ?_⟩
  simp only [settle, plain, WorkQueue.Session.settle, hsame]

/-- Nobody who sleeps would have been answered. -/
theorem play_plain (h : s.notifier.Informed)
    (steps : List (List (WorkQueue.Session.Action α))) :
    (s.play steps).plain = s.plain.play steps := by
  induction steps generalizing s with
  | nil => rfl
  | cons batch steps ih =>
    obtain ⟨hrun, hbatch⟩ := run_plain h batch
    obtain ⟨hsettle, hsame⟩ := settle_plain hrun
    refine (ih hsettle).trans ?_
    rw [hsame, hbatch]
    rfl

end Session

end Notifier

namespace Session

/-- Whatever steps are taken with a queue, after each of them it comes to rest, and so does one whose
requests sleep until they are told: in the same state. From the step on in which it is told to close
it is closed, and no get waits. -/
theorem queue_at_rest {capacity : UInt64} (hnew : WorkQueue.new capacity = .ok q)
    (steps : List (List (Action α))) :
    AtRest capacity.toNat ((⟨q, {}⟩ : Session α).play steps) ∧
      (((⟨q, {}⟩ : Session α).play steps).queue.closed = true ↔
        ∃ batch ∈ steps, .close ∈ batch) ∧
      (∀ batch ∈ steps, .close ∈ batch →
        ∀ id, (id, .get) ∉ ((⟨q, {}⟩ : Session α).play steps).requests.waiting) ∧
      ((⟨⟨q, [], []⟩, {}⟩ : Notifier.Session α).play steps).plain =
        (⟨q, {}⟩ : Session α).play steps := by
  obtain ⟨hpos, -, rfl⟩ := new_eq_ok_iff.1 hnew
  have hlined : Lined (⟨ofCapacity capacity.toNat, {}⟩ : Session α) := .new capacity.toNat
  have hrest := hlined.play hpos atRest_new steps
  have hclosed := (hlined.closed_play hpos steps).trans (or_iff_right Bool.false_ne_true)
  refine ⟨hrest, hclosed, fun batch hbatch hc => hrest.closed (hclosed.mpr ⟨batch, hbatch, hc⟩), ?_⟩
  have hinformed : (⟨ofCapacity capacity.toNat, [], []⟩ : Notifier α).Informed :=
    ⟨fun h => absurd rfl h, fun _ ht => absurd ht List.not_mem_nil⟩
  exact Notifier.Session.play_plain hinformed steps

/-- Taking an item lets in one of two puts that wait; the other goes on waiting although the queue
has been closed. -/
theorem queue_at_rest_closed :
    let steps : List (List (Action Nat)) := [[.start (.put 7), .start (.put 8), .start (.put 9)],
      [.start .get, .close], [.start .join]]
    let s := (⟨ofCapacity 1, {}⟩ : Session Nat).play steps
    WorkQueue.new 1 = .ok (ofCapacity 1 : WorkQueue Nat) ∧
      s.requests.waiting = [(3, .put 9), (5, .join)] ∧ s.queue.buffer = [8] ∧ AtRest 1 s := by
  intro steps s
  have hnew : WorkQueue.new 1 = .ok (ofCapacity 1 : WorkQueue Nat) := rfl
  exact ⟨hnew, rfl, rfl, (queue_at_rest hnew steps).1⟩

end Session

end LoadGenerator.WorkQueue
