import LoadGenerator.Proofs.Waitlist
import LoadGenerator.Proofs.WorkQueue.Lines
import LoadGenerator.WorkQueue.Session

/-!
# The requests that wait are those in line

`Session.Move` lists what an action on a session can do, each time with the condition under which it
does so; the operations are not opened again. `Lined`: the requests that wait to put are those in the
line of those who put, in the same order, and likewise for those who get. So whoever has a slot or
the turn, or waits for one of them, is a request that still waits, and no other request does. Every
session keeps this (`lined_run`).
-/

namespace LoadGenerator.WorkQueue

variable {α : Type} {q q' : WorkQueue α} {t : Ticket} {item : α}

namespace Request

def isPut : Request α → Bool
  | .put _ => true
  | _ => false

def isGet : Request α → Bool
  | .get => true
  | _ => false

end Request

theorem new_eq_ok_iff {capacity : UInt64} : WorkQueue.new capacity = .ok q ↔
    1 ≤ capacity.toNat ∧ capacity.toNat ≤ maxCapacity ∧ ofCapacity capacity.toNat = q := by
  unfold WorkQueue.new
  split
  · rename_i h
    subst h
    simp
  · rename_i h
    have hpos : 1 ≤ capacity.toNat :=
      Nat.pos_of_ne_zero fun h0 => h (UInt64.toNat_inj.1 h0)
    split
    · simp [Nat.not_le.2 ‹_›]
    · simp [hpos, Nat.not_lt.1 ‹_›]

/-- What can come of trying a request: the queue afterwards, and the answer if there is one. -/
inductive Tried (q : WorkQueue α) (t : Ticket) :
    Request α → WorkQueue α → Option (Answer α) → Prop
  | putWaits {item : α} {q' : WorkQueue α} (h : q.put t item = (q', .waiting)) :
      Tried q t (.put item) q' none
  | putDone {item : α} {q' : WorkQueue α} {result : Except QueueFault Unit}
      (h : q.put t item = (q', .done result)) : Tried q t (.put item) q' (some (.put result))
  | getWaits {q' : WorkQueue α} (h : q.get t = (q', .waiting)) : Tried q t .get q' none
  | getDone {q' : WorkQueue α} {result : Option α} (h : q.get t = (q', .done result)) :
      Tried q t .get q' (some (.got result))
  | joinWaits (h : q.drained = false) : Tried q t .join q none
  | joined (h : q.drained = true) : Tried q t .join q (some .joined)

theorem attempt_tried (q : WorkQueue α) (t : Ticket) (what : Request α) :
    Tried q t what (attempt q t what).1 (attempt q t what).2 := by
  cases what with
  | put item =>
    rcases h : q.put t item with ⟨q', result | _⟩ <;> simp only [attempt, h]
    · exact .putDone h
    · exact .putWaits h
  | get =>
    rcases h : q.get t with ⟨q', result | _⟩ <;> simp only [attempt, h]
    · exact .getDone h
    · exact .getWaits h
  | join =>
    cases h : q.drained <;> simp only [attempt, h]
    · exact .joinWaits h
    · exact .joined h

theorem Tried.dealing {what : Request α} {b : Option (Answer α)} (h : Tried q t what q' b) :
    q.Dealing t q' := by
  cases h with
  | putWaits h => exact (put_waiting h).1
  | @putDone _ _ result h =>
    cases result with
    | ok => exact (put_ok h).1
    | error =>
      rw [(put_error h).1]
      exact .refl q t
  | getWaits h => exact (get_waiting h).1
  | @getDone _ result h =>
    cases result with
    | none => exact (get_none h).1
    | some => exact (get_some h).1
  | joinWaits | joined => exact .refl q t

namespace Session

variable {s s' : Session α} {action : Action α} {actions : List (Action α)} {id : Ticket}
  {what : Request α}

/-- What an action can make of a session. -/
inductive Move (s : Session α) : Action α → Session α → Prop
  | start {what : Request α} {q' : WorkQueue α} {b : Option (Answer α)}
      (h : Tried s.queue s.requests.next what q' b) :
      Move s (.start what) ⟨q', (s.requests.enter what).resolve s.requests.next b⟩
  | poll {id : Ticket} {what : Request α} {q' : WorkQueue α} {b : Option (Answer α)}
      (hm : (id, what) ∈ s.requests.waiting) (h : Tried s.queue id what q' b) :
      Move s (.poll id) ⟨q', s.requests.resolve id b⟩
  | pollNone {id : Ticket} (h : ∀ what, (id, what) ∉ s.requests.waiting) : Move s (.poll id) s
  | drop {id : Ticket} {what : Request α} (hm : (id, what) ∈ s.requests.waiting) :
      Move s (.drop id) ⟨s.queue.leave id, s.requests.withdraw id⟩
  | dropNone {id : Ticket} (h : ∀ what, (id, what) ∉ s.requests.waiting) : Move s (.drop id) s
  | mark {q' : WorkQueue α} (h : s.queue.markDone = .ok q') : Move s .markDone { s with queue := q' }
  | markNone {fault : QueueFault} (h : s.queue.markDone = .error fault) : Move s .markDone s
  | close : Move s .close { s with queue := s.queue.close }

theorem poll_move (s : Session α) (id : Ticket) : Move s (.poll id) (s.poll id) := by
  unfold Session.poll
  rcases Waitlist.poll_cases attempt s.queue s.requests id with ⟨hnone, hpoll⟩ | ⟨what, hm, hpoll⟩
  · rw [hpoll]
    exact .pollNone hnone
  · rw [hpoll]
    exact .poll hm (attempt_tried _ _ _)

theorem drop_move (s : Session α) (id : Ticket) : Move s (.drop id) (s.drop id) := by
  unfold Session.drop
  split
  · rename_i h
    obtain ⟨what, hm⟩ := Waitlist.isWaiting_eq_true.1 h
    exact .drop hm
  · rename_i h
    exact .dropNone fun what hm => h (Waitlist.isWaiting_eq_true.2 ⟨what, hm⟩)

theorem act_move (h : s.requests.Numbered) (action : Action α) : Move s action (s.act action).1 := by
  cases action with
  | start what =>
    show Move s (.start what) (s.start what).1
    unfold Session.start
    rw [Waitlist.request_eq attempt s.queue h what]
    exact .start (attempt_tried _ _ _)
  | poll id => exact poll_move s id
  | drop id => exact drop_move s id
  | markDone =>
    cases hq : s.queue.markDone with
    | ok q' =>
      simp only [Session.act, hq]
      exact .mark hq
    | error fault =>
      simp only [Session.act, hq]
      exact .markNone hq
  | close => exact .close

theorem Move.capacity (h : Move s action s') : s'.queue.capacity = s.queue.capacity := by
  cases h with
  | start h | poll _ h => exact h.dealing.capacity
  | drop => exact (leave_dealing _ _).1.capacity
  | mark h => exact (Dealing.markDone h 0).capacity
  | pollNone | dropNone | markNone | close => rfl

/-- Only to close it closes a queue, and that for good. -/
theorem Move.closed_iff (h : Move s action s') :
    s'.queue.closed = true ↔ s.queue.closed = true ∨ action = .close := by
  have hkept : s'.queue.closed = s.queue.closed → action ≠ .close →
      (s'.queue.closed = true ↔ s.queue.closed = true ∨ action = .close) := by
    intro hsame hne
    rw [hsame, or_iff_left hne]
  cases h with
  | start h | poll _ h => exact hkept h.dealing.closed nofun
  | drop => exact hkept (leave_dealing _ _).1.closed nofun
  | mark h => exact hkept (Dealing.markDone h 0).closed nofun
  | pollNone | dropNone | markNone => exact hkept rfl nofun
  | close => exact iff_of_true rfl (.inr rfl)

/-- Settling is polling. -/
theorem settle_eq_run (h : s.requests.Numbered) :
    ∃ ids : List Ticket, s.settle = s.run (ids.map .poll) := by
  have hpolls : ∀ (ids : List Ticket) (s : Session α),
      s.run (ids.map .poll) = ⟨(s.requests.pollAll attempt s.queue ids).1,
        (s.requests.pollAll attempt s.queue ids).2⟩ := by
    intro ids
    induction ids with
    | nil => exact fun s => rfl
    | cons id ids ih => exact fun s => ih (s.poll id)
  obtain ⟨ids, q₀, w₀, hpoll, hlast, -⟩ := Waitlist.exists_last_pass h attempt s.queue
  refine ⟨ids ++ w₀.waiting.map Prod.fst, ?_⟩
  rw [hpolls, Waitlist.pollAll_append, hpoll, ← hlast]
  rfl

/-! ### Requests and lines -/

/-- The requests that wait stand in line, in the order of their numbers. -/
structure Lined (s : Session α) : Prop where
  sound : s.queue.Sound
  numbered : s.requests.Numbered
  puts : s.requests.ids Request.isPut = s.queue.putLine
  gets : s.requests.ids Request.isGet = s.queue.getLine

theorem erase_ids {w : Waitlist (Request α) (Answer α)} (h : w.Numbered) {p : Request α → Bool}
    (hm : (t, what) ∈ w.waiting) (hp : p what = false) : (w.ids p).erase t = w.ids p :=
  List.erase_of_not_mem (Waitlist.not_mem_ids h hm hp)

/-- A request is tried that stands in line already, or comes to its end. -/
theorem Lined.tried {w : Waitlist (Request α) (Answer α)} {b : Option (Answer α)} (hs : q.Sound)
    (hw : w.Numbered) (hm : (t, what) ∈ w.waiting)
    (hputs : w.ids Request.isPut = if what.isPut then standIn q.putLine t else q.putLine)
    (hgets : w.ids Request.isGet = if what.isGet then standIn q.getLine t else q.getLine)
    (h : Tried q t what q' b) : Lined ⟨q', w.resolve t b⟩ := by
  have hsound := h.dealing.sound hs
  have hnumbered := hw.resolve hm b
  have hdone : ∀ p (b : Answer α), (w.resolve t (some b)).ids p = (w.ids p).erase t :=
    fun p b => Waitlist.ids_resolve_some hw p b
  cases h with
  | putWaits h =>
    obtain ⟨hput, hget⟩ := putLine_put_waiting h
    exact ⟨hsound, hnumbered, hputs.trans hput.symm, hgets.trans hget.symm⟩
  | @putDone item _ result h =>
    have hstay := erase_ids hw (p := Request.isGet) hm rfl
    cases result with
    | ok =>
      obtain ⟨hput, hget⟩ := putLine_put_ok h
      refine ⟨hsound, hnumbered, ?_, ?_⟩
      · rw [hdone, hputs, hput]
        exact erase_standIn _ _
      · rw [hdone, hstay, hgets, hget]
        rfl
    | error fault =>
      have hnot := not_mem_putLine_of_put_error h
      obtain ⟨rfl, -⟩ := put_error h
      refine ⟨hs, hnumbered, ?_, ?_⟩
      · rw [hdone, hputs]
        exact (erase_standIn _ _).trans (List.erase_of_not_mem hnot)
      · rw [hdone, hstay, hgets]
        rfl
  | getWaits h =>
    obtain ⟨hput, hget⟩ := putLine_get_waiting hs h
    exact ⟨hsound, hnumbered, hputs.trans hput.symm, hgets.trans hget.symm⟩
  | @getDone _ result h =>
    have hstay := erase_ids hw (p := Request.isPut) hm rfl
    obtain ⟨hput, hget⟩ := putLine_get_done hs h
    refine ⟨hsound, hnumbered, ?_, ?_⟩
    · rw [hdone, hstay, hputs, hput]
      rfl
    · rw [hdone, hgets, hget]
      exact erase_standIn _ _
  | joinWaits => exact ⟨hs, hnumbered, hputs, hgets⟩
  | joined =>
    refine ⟨hs, hnumbered, ?_, ?_⟩
    · rw [hdone, erase_ids hw (p := Request.isPut) hm rfl]
      exact hputs
    · rw [hdone, erase_ids hw (p := Request.isGet) hm rfl]
      exact hgets

namespace Lined

theorem new (capacity : Nat) : Lined (⟨ofCapacity capacity, {}⟩ : Session α) :=
  ⟨sound_ofCapacity capacity, .nil, rfl, rfl⟩

theorem mem_putLine (h : Lined s) : t ∈ s.queue.putLine ↔ ∃ item, (t, .put item) ∈ s.requests.waiting := by
  rw [← h.puts, Waitlist.mem_ids]
  constructor
  · rintro ⟨_ | _ | _, hm, hp⟩
    · exact ⟨_, hm⟩
    · cases hp
    · cases hp
  · rintro ⟨item, hm⟩
    exact ⟨_, hm, rfl⟩

theorem mem_getLine (h : Lined s) : t ∈ s.queue.getLine ↔ (t, .get) ∈ s.requests.waiting := by
  rw [← h.gets, Waitlist.mem_ids]
  constructor
  · rintro ⟨_ | _ | _, hm, hp⟩
    · cases hp
    · exact hm
    · cases hp
  · exact fun hm => ⟨_, hm, rfl⟩

/-- Nobody puts and gets under one number. -/
theorem not_mem_getLine (h : Lined s) (ht : t ∈ s.queue.putLine) : t ∉ s.queue.getLine := by
  intro hg
  obtain ⟨item, hm⟩ := h.mem_putLine.1 ht
  cases h.numbered.eq_of_mem hm (h.mem_getLine.1 hg)

theorem nodup_putLine (h : Lined s) : s.queue.putLine.Nodup := by
  rw [← h.puts]
  exact h.numbered.nodup.sublist (List.filter_sublist.map Prod.fst)

/-- A request that has just been made stands in no line yet. -/
theorem next_not_mem (h : Lined s) :
    s.requests.next ∉ s.queue.putLine ∧ s.requests.next ∉ s.queue.getLine := by
  have hnone : ∀ what, (s.requests.next, what) ∉ s.requests.waiting :=
    fun what hm => h.numbered.next_ne hm rfl
  constructor
  · rw [h.mem_putLine]
    rintro ⟨item, hm⟩
    exact hnone _ hm
  · rw [h.mem_getLine]
    exact hnone _

theorem move (h : Lined s) (hm : Move s action s') : Lined s' := by
  cases hm with
  | @start what q' b ht =>
    obtain ⟨hput, hget⟩ := h.next_not_mem
    refine .tried h.sound (h.numbered.enter what) (Waitlist.mem_enter.2 (.inr rfl)) ?_ ?_ ht
    · rw [Waitlist.ids_enter, h.puts]
      cases what.isPut
      · exact List.append_nil _
      · exact (standIn_of_not_mem hput).symm
    · rw [Waitlist.ids_enter, h.gets]
      cases what.isGet
      · exact List.append_nil _
      · exact (standIn_of_not_mem hget).symm
  | @poll id what q' b hw ht =>
    refine .tried h.sound h.numbered hw ?_ ?_ ht
    · rw [h.puts]
      cases what with
      | put item => exact (standIn_of_mem (h.mem_putLine.2 ⟨item, hw⟩)).symm
      | get | join => rfl
    · rw [h.gets]
      cases what with
      | get => exact (standIn_of_mem (h.mem_getLine.2 hw)).symm
      | put | join => rfl
  | pollNone | dropNone | markNone => exact h
  | @drop id what hw =>
    refine ⟨(leave_dealing s.queue id).1.sound h.sound, h.numbered.withdraw id, ?_, ?_⟩
    · rw [Waitlist.ids_withdraw h.numbered, h.puts]
      exact (putLine_leave s.queue id).symm
    · rw [Waitlist.ids_withdraw h.numbered, h.gets]
      exact (getLine_leave h.sound h.not_mem_getLine).symm
  | mark hq =>
    obtain ⟨hq', -⟩ := markDone_ok hq
    refine ⟨(Dealing.markDone hq 0).sound h.sound, h.numbered, h.puts.trans ?_, h.gets.trans ?_⟩
    · rw [hq']
      rfl
    · rw [hq']
      rfl
  | close => exact ⟨h.sound.close, h.numbered, h.puts, h.gets⟩

/-- What every action keeps, every run keeps. -/
theorem run_induction {P : Session α → Prop} (h : Lined s) (hp : P s)
    (hstep : ∀ (s s' : Session α) action, Lined s → Move s action s' → P s → P s')
    (actions : List (Action α)) : P (s.run actions) := by
  induction actions generalizing s with
  | nil => exact hp
  | cons action actions ih =>
    have hm := act_move h.numbered action
    exact ih (h.move hm) (hstep _ _ action h hm hp)

theorem run (h : Lined s) (actions : List (Action α)) : Lined (s.run actions) :=
  h.run_induction h (fun _ _ _ h hm _ => h.move hm) actions

end Lined

theorem capacity_run (h : Lined s) (actions : List (Action α)) :
    (s.run actions).queue.capacity = s.queue.capacity :=
  h.run_induction (P := fun s' => s'.queue.capacity = s.queue.capacity) rfl
    (fun _ _ _ _ hm hp => hm.capacity.trans hp) actions

theorem closed_run (h : Lined s) (actions : List (Action α)) :
    (s.run actions).queue.closed = true ↔ s.queue.closed = true ∨ .close ∈ actions := by
  induction actions generalizing s with
  | nil => exact ⟨.inl, fun hc => hc.resolve_right List.not_mem_nil⟩
  | cons action actions ih =>
    have hm := act_move h.numbered action
    rw [List.mem_cons, ← or_assoc, @eq_comm _ Action.close, ← hm.closed_iff]
    exact ih (h.move hm)

theorem lined_run (capacity : Nat) (actions : List (Action α)) :
    Lined ((⟨ofCapacity capacity, {}⟩ : Session α).run actions) :=
  (Lined.new capacity).run actions

end Session

end LoadGenerator.WorkQueue
