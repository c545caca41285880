import LoadGenerator.Proofs.Cancellation.Wakeups
import LoadGenerator.Proofs.WorkQueue.Notices

/-!
# What a dealing leaves of the notices

An engine looks at its state to find out who could get further. Here is what those who wait would
have to be told instead: `Notifier.told` are the tickets of those who have been told something at a
queue, and `Watch.Sleeps` says that somebody waits for a cancellation and has not been told of it.
At a queue that is `Tuned` those who have been told are those who could get further (`told_eq`), and
whoever sleeps has nothing to see (`reason_eq_none_of_sleeps`). A dealing of one participant ends
the sleep of another one for a reason only: there is nothing left to wait for.
-/

namespace LoadGenerator

namespace WorkQueue

variable {α : Type} {q q' : WorkQueue α} {t u : Ticket} {item : α}

theorem turn_passTurn_ne (q : WorkQueue α) (u : Ticket) : q.passTurn.turn ≠ .held u := by
  unfold passTurn
  split <;> exact nofun

theorem closed_put (q : WorkQueue α) (t : Ticket) (item : α) :
    (q.put t item).1.closed = q.closed := by
  unfold put
  repeat' split
  all_goals rfl

/-- Nobody holds the turn when a get has been answered. -/
theorem turn_ne_of_get_done {result : Option α} (h : q.get t = (q', .done result)) (u : Ticket) :
    q'.turn ≠ .held u := by
  rcases get_cases q t with ⟨hserve, -⟩ | ⟨q'', hwaits, -⟩
  · rw [hserve] at h
    cases result with
    | none =>
      obtain ⟨rfl, -, -⟩ := serve_none h
      exact turn_passTurn_ne q u
    | some item =>
      obtain ⟨rest, -, rfl⟩ := serve_some h
      exact turn_passTurn_ne _ u
  · rw [hwaits] at h
    cases h

/-- Who holds the turn after a getter has left held it before, and is another one. -/
theorem turn_of_leave (ht : t ∉ q.putLine) (h : (q.leave t).turn = .held u) :
    q.turn = .held u ∧ u ≠ t := by
  have hgranted : t ∉ q.granted := fun hg => ht (List.mem_append_left _ hg)
  have hputters : t ∉ q.putters := fun hp => ht (List.mem_append_right _ hp)
  unfold leave at h
  rw [if_neg hgranted, if_neg hputters] at h
  split at h
  · exact absurd h (turn_passTurn_ne q u)
  · rename_i howner
    have hturn : q.turn = .held u := h
    refine ⟨hturn, ?_⟩
    rintro rfl
    exact howner (by rw [hturn]; rfl)

/-! ### Who has been told at a queue -/

namespace Notifier

/-- Those who have been told that a slot or the turn is theirs, that there is an item, or that the
queue closes. -/
def told (n : Notifier α) : List Ticket :=
  n.queue.granted ++
    match n.queue.turn with
    | .free => []
    | .granted t => [t]
    | .held t => if n.queue.buffer.isEmpty && n.listeners.contains t then [] else [t]

/-- No notice has been missed, and whoever holds the turn of an open queue listens. -/
structure Tuned (n : Notifier α) : Prop extends n.Informed where
  held : ∀ t, n.queue.turn = .held t → n.queue.closed = false → t ∈ n.listeners

/-- A dealing of `t`, which ends no other's wait for the last item unless that has been done. -/
structure Dealing (n : Notifier α) (t : Ticket) (n' : Notifier α) : Prop where
  tuned : n'.Tuned
  joining : ∀ u, u ≠ t → u ∈ n.joiners → u ∈ n'.joiners ∨ n'.queue.drained = true

variable {n : Notifier α}

namespace Tuned

theorem told_eq (h : n.Tuned) : n.told = n.queue.callable := by
  unfold told callable
  cases hturn : n.queue.turn with
  | free | granted => rfl
  | held t =>
    have hlistens : n.listeners.contains t = !n.queue.closed := by
      cases hclosed : n.queue.closed with
      | false => simpa using h.held t hturn hclosed
      | true =>
        have hnot : t ∉ n.listeners := fun ht => by
          rw [(h.listeners t ht).2] at hclosed
          cases hclosed
        simpa using hnot
    simp only [hlistens]

theorem refl (h : n.Tuned) (t : Ticket) : n.Dealing t n :=
  ⟨h, fun _ _ => .inl⟩

theorem put {result : Progress (Except QueueFault Unit)} (h : n.Tuned)
    (hq : n.queue.put t item = (q', result)) : n.Dealing t { n with queue := q' } := by
  have hinformed := h.toInformed.put t item
  have hput : (n.put t item).1 = { n with queue := q' } := by
    cases result <;> simp only [Notifier.put, WorkQueue.attempt, hq]
  rw [hput] at hinformed
  have hturn := turn_put n.queue t item
  have hclosed := closed_put n.queue t item
  rw [hq] at hturn hclosed
  exact ⟨⟨hinformed, fun u hu hc => h.held u (hturn.symm.trans hu) (hclosed.symm.trans hc)⟩,
    fun _ _ => .inl⟩

theorem reserve (h : n.Tuned) (hq : n.queue.reserve? t = some q') :
    n.Dealing t { n with queue := q' } := by
  unfold reserve? at hq
  split at hq
  · cases hq
  · cases hq
    exact ⟨⟨⟨h.joiners, h.listeners⟩, h.held⟩, fun _ _ => .inl⟩

theorem tried_get (h : n.Tuned) (t : Ticket) :
    Tried n.queue t .get (n.get t).1.queue (n.get t).2 := by
  have htried := attempt_tried n.queue t .get
  rwa [(h.toInformed.get t).2] at htried

theorem get (h : n.Tuned) (t : Ticket) : n.Dealing t (n.get t).1 := by
  have hinformed := (h.toInformed.get t).1
  unfold Notifier.get at hinformed ⊢
  split
  · exact h.refl t
  rename_i hawake
  rw [if_neg hawake] at hinformed
  have htried := attempt_tried n.queue t .get
  generalize WorkQueue.attempt n.queue t .get = result at htried hinformed ⊢
  obtain ⟨q', b⟩ := result
  cases htried with
  | getWaits hget =>
    refine ⟨⟨hinformed, fun u hu hc => ?_⟩, fun _ _ => .inl⟩
    rcases get_waiting_eq hget with ⟨rfl, -, -, -⟩ | ⟨o, ho, hne, rfl⟩
    · obtain rfl : t = u := Turn.held.inj hu
      simp
    · have hold := h.held u hu hc
      dsimp only
      split
      · exact List.mem_cons_of_mem _ hold
      · exact hold
  | getDone hget =>
    exact ⟨⟨hinformed, fun u hu => absurd hu (turn_ne_of_get_done hget u)⟩, fun _ _ => .inl⟩

theorem join_eq (h : n.Tuned) (t : Ticket) :
    (n.join t).1.queue = n.queue ∧ (n.join t).2.isSome = n.queue.drained := by
  obtain ⟨-, hsame⟩ := h.toInformed.join t
  simp only [WorkQueue.attempt, Prod.mk.injEq] at hsame
  rw [← hsame.1, ← hsame.2]
  cases n.queue.drained <;> exact ⟨rfl, rfl⟩

/-- Whoever is told to wait for the last item waits to be told of it. -/
theorem mem_joiners_join (h : (n.join t).2 = none) : t ∈ (n.join t).1.joiners := by
  unfold Notifier.join at h ⊢
  split at h
  · rwa [if_pos ‹_›]
  split at h
  · cases h
  · rw [if_neg ‹_›, if_neg ‹_›]
    exact List.mem_cons_self

theorem join (h : n.Tuned) (t : Ticket) : n.Dealing t (n.join t).1 := by
  have hinformed := (h.toInformed.join t).1
  unfold Notifier.join at hinformed ⊢
  split
  · exact h.refl t
  split
  · exact h.refl t
  · rename_i hmem hdrained
    rw [if_neg hmem, if_neg hdrained] at hinformed
    exact ⟨⟨hinformed, h.held⟩, fun u _ hu => .inl (List.mem_cons_of_mem _ hu)⟩

theorem leave (h : n.Tuned) (ht : t ∉ n.queue.putLine) : n.Dealing t (n.leave t) := by
  refine ⟨⟨h.toInformed.leave t, fun u hu hc => ?_⟩, fun u hne hu => .inl ?_⟩
  · obtain ⟨hturn, hne⟩ := turn_of_leave ht hu
    have hclosed := (leave_dealing n.queue t).1.closed
    exact List.mem_filter.2 ⟨h.held u hturn (hclosed.symm.trans hc), by simpa using hne⟩
  · exact List.mem_filter.2 ⟨hu, by simpa using hne⟩

theorem markDone (h : n.Tuned) (t : Ticket) : n.Dealing t n.markDone := by
  have hinformed := h.toInformed.markDone
  unfold Notifier.markDone at hinformed ⊢
  cases hq : n.queue.markDone with
  | error fault => exact h.refl t
  | ok q' =>
    obtain ⟨hq', -⟩ := markDone_ok hq
    rw [hq] at hinformed
    refine ⟨⟨hinformed, fun u hu hc => ?_⟩, fun u _ hu => ?_⟩
    · dsimp only at hu hc
      rw [hq'] at hu hc
      exact h.held u hu hc
    · dsimp only
      by_cases hdrained : q'.drained = true
      · exact .inr hdrained
      · rw [if_neg hdrained]
        exact .inl hu

theorem close (h : n.Tuned) (t : Ticket) : n.Dealing t n.close :=
  ⟨⟨h.toInformed.close, fun _ _ hc => by cases hc⟩, fun _ _ => .inl⟩

/-- Whoever leaves a queue that is closed at once leaves no notice behind. -/
theorem leave_close (h : n.Tuned) (t : Ticket) : n.Dealing t (n.leave t).close := by
  refine ⟨⟨(h.toInformed.leave t).close, fun _ _ hc => by cases hc⟩, fun u hne hu => .inl ?_⟩
  exact List.mem_filter.2 ⟨hu, by simpa using hne⟩

end Tuned

end Notifier

end WorkQueue

/-! ### Who sleeps at a watch -/

namespace Contexts.Watch

variable {w : Watch} {id id' i : Nat}

/-- A reader of the first channel waits under this number, and has not been notified. -/
def Sleeps (w : Watch) (id : Nat) : Prop :=
  ∃ r ∈ w.readers, r.id = id ∧ r.channel = 0 ∧ r.notified = false

instance (w : Watch) (id : Nat) : Decidable (w.Sleeps id) :=
  inferInstanceAs (Decidable (∃ _ ∈ _, _))

theorem reason_eq_none_of_sleeps (h : w.Informed) (hs : w.Sleeps id) :
    (w.channel 0).reason = none := by
  obtain ⟨r, hr, -, hchannel, hn⟩ := hs
  rw [← hchannel]
  exact ((h.reader r hr).asleep hn).2

theorem sleeps_forget (hs : w.Sleeps id) (hne : id ≠ id') : (w.forget id').Sleeps id := by
  obtain ⟨r, hr, rfl, hsleeps⟩ := hs
  exact ⟨r, List.mem_filter.2 ⟨hr, by simpa using hne⟩, rfl, hsleeps⟩

theorem sleeps_look (hs : w.Sleeps id) (hne : id ≠ id') (f : Nat) :
    (w.look id' f).1.Sleeps id := by
  obtain ⟨r, hr, hsleeps⟩ := sleeps_forget hs hne
  unfold look
  split
  · exact ⟨r, hr, hsleeps⟩
  · exact ⟨r, List.mem_append_left _ hr, hsleeps⟩

theorem sleeps_attempt (hs : w.Sleeps id) (hne : id ≠ id') (i : Nat) :
    (w.attempt id' i).1.Sleeps id := by
  unfold attempt
  split
  · exact sleeps_look hs hne _
  split
  · exact hs
  split
  · obtain ⟨r, hr, rfl, hchannel, hn⟩ := hs
    refine ⟨_, List.mem_map_of_mem hr, ?_, ?_, ?_⟩ <;> split <;> first | rfl | assumption
  · exact sleeps_look hs hne _

theorem sleeps_look_self (h : (w.look id 0).2 = none) : (w.look id 0).1.Sleeps id := by
  unfold look at h ⊢
  split at h
  · cases h
  · exact ⟨_, List.mem_append_right _ (List.mem_singleton.2 rfl), rfl, rfl, rfl⟩

/-- Whoever looks and sees nothing falls asleep. -/
theorem sleeps_attempt_self (hw : w.Informed) (hi : w.channelOf i = 0)
    (h : (w.attempt id i).2 = none) : (w.attempt id i).1.Sleeps id := by
  unfold attempt at h ⊢
  rw [hi] at h ⊢
  cases hfind : w.readers.find? fun r => r.id == id && r.channel == 0 with
  | none =>
    rw [hfind] at h
    exact sleeps_look_self h
  | some r =>
    have hr := List.find?_some hfind
    simp only [Bool.and_eq_true, beq_iff_eq] at hr
    have hmem := List.mem_of_find?_eq_some hfind
    rw [hfind] at h
    cases hn : r.notified with
    | false =>
      simp only [hn, Bool.not_false, if_true]
      exact ⟨r, hmem, hr.1, hr.2, hn⟩
    | true =>
      have hne : ¬ (w.channel r.channel).version = r.seen :=
        Nat.ne_of_gt ((hw.reader r hmem).woken hn)
      simp only [hn, Bool.not_true, Bool.false_eq_true, if_false, if_neg hne] at h ⊢
      exact sleeps_look_self h

end Contexts.Watch

end LoadGenerator
