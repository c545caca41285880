import LoadGenerator.Proofs.WorkQueue.Requests

/-!
# Items leave in the order in which they came

Requests are numbered as they are made, so the answers of a session tell which items the queue has
accepted (`itemsPut`) and which it has given out (`itemsGot`), each in the order of the answers.
Trying a request moves at most one item, in at the end of the buffer or out at its head
(`Tried.items`), and no other action moves any. So the items given out, then those in the buffer, are
at all times the items accepted (`Recorded`).
-/

namespace LoadGenerator.WorkQueue

variable {α : Type} {q q' : WorkQueue α} {t : Ticket} {what : Request α} {b : Option (Answer α)}
  {made : List (Request α)}

def Request.item? : Request α → Option α
  | .put item => some item
  | _ => none

namespace Answer

/-- The item that has been got. -/
def item? : Answer α → Option α
  | .got item => item
  | _ => none

def isAccepted : Answer α → Bool
  | .put (.ok ()) => true
  | _ => false

end Answer

/-- The item that has been put if this answer to one of the requests made says so; the first of them
has number one. -/
def itemPut? (made : List (Request α)) (answer : Ticket × Answer α) : Option α :=
  if answer.2.isAccepted then made[answer.1 - 1]?.bind Request.item? else none

theorem Tried.items (h : Tried q t what q' b) (hm : made[t - 1]? = some what) :
    b.toList.filterMap Answer.item? ++ q'.buffer =
      q.buffer ++ (b.toList.map (t, ·)).filterMap (itemPut? made) := by
  have hidle : ∀ q' : WorkQueue α, q'.buffer = q.buffer →
      [] ++ q'.buffer = q.buffer ++ [] := fun q' h => h.trans (List.append_nil _).symm
  cases h with
  | putWaits h => exact hidle _ (put_waiting h).2.1
  | getWaits h => exact hidle _ (get_waiting h).2.1
  | joinWaits | joined => exact hidle _ rfl
  | @putDone item _ result h =>
    cases result with
    | error fault => exact hidle _ (congrArg buffer (put_error h).1)
    | ok =>
      have hput : itemPut? made (t, .put (.ok ())) = some item := by
        simp [itemPut?, Answer.isAccepted, hm, Request.item?]
      simp [hput, (put_ok h).2.1, Answer.item?]
  | @getDone _ result h =>
    cases result with
    | none => exact hidle _ (get_none h).2.1
    | some item => simp [(get_some h).2.1, itemPut?, Answer.isAccepted, Answer.item?]

namespace Session

variable {s s' : Session α} {action : Action α} {id : Ticket}

def Action.request? : Action α → Option (Request α)
  | .start what => some what
  | _ => none

/-- The requests that some actions make, in the order of their numbers. -/
def requested (actions : List (Action α)) : List (Request α) :=
  actions.filterMap Action.request?

def itemsPut (s : Session α) (made : List (Request α)) : List α :=
  s.requests.answered.filterMap (itemPut? made)

def itemsGot (s : Session α) : List α :=
  s.requests.answered.filterMap (·.2.item?)

/-- What a session knows of the requests made: what those are that wait, and which items have come
and gone. -/
structure Recorded (made : List (Request α)) (s : Session α) : Prop where
  numbered : s.requests.Numbered
  next : s.requests.next = made.length + 1
  waiting : ∀ r ∈ s.requests.waiting, made[r.1 - 1]? = some r.2
  answered : ∀ a ∈ s.requests.answered, a.1 - 1 < made.length
  items : s.itemsGot ++ s.queue.buffer = s.itemsPut made

namespace Recorded

theorem new (capacity : Nat) : Recorded [] (⟨ofCapacity capacity, {}⟩ : Session α) :=
  ⟨.nil, rfl, by simp, by simp, rfl⟩

/-- A request that is made changes nothing about those made before. -/
theorem enter (h : Recorded made s) (what : Request α) :
    Recorded (made ++ [what]) ⟨s.queue, s.requests.enter what⟩ := by
  refine ⟨h.numbered.enter what, ?_, fun r hr => ?_, fun a ha => ?_, ?_⟩
  · show s.requests.next + 1 = _
    rw [h.next, List.length_append, List.length_singleton]
  · rcases Waitlist.mem_enter.1 hr with hr | rfl
    · have hr := h.waiting r hr
      rwa [List.getElem?_append_left (List.getElem?_eq_some_iff.1 hr).1]
    · simp [h.next]
  · rw [List.length_append]
    exact Nat.lt_add_right _ (h.answered a ha)
  · have hold : ∀ a ∈ s.requests.answered, itemPut? (made ++ [what]) a = itemPut? made a := by
      intro a ha
      unfold itemPut?
      rw [List.getElem?_append_left (h.answered a ha)]
    exact h.items.trans (List.filterMap_congr hold).symm

theorem tried (h : Recorded made s) (hm : (t, what) ∈ s.requests.waiting)
    (ht : Tried s.queue t what q' b) : Recorded made ⟨q', s.requests.resolve t b⟩ := by
  have hmade := h.waiting _ hm
  have hnext : (s.requests.resolve t b).next = s.requests.next := by cases b <;> rfl
  refine ⟨h.numbered.resolve hm b, hnext.trans h.next,
    fun r hr => h.waiting r (Waitlist.mem_resolve hr), fun a ha => ?_, ?_⟩
  · rw [Waitlist.answered_resolve] at ha
    rcases List.mem_append.1 ha with ha | ha
    · exact h.answered a ha
    · obtain ⟨_, -, rfl⟩ := List.mem_map.1 ha
      exact (List.getElem?_eq_some_iff.1 hmade).1
  · have hitems := ht.items hmade
    have hgot : (b.toList.map (t, ·)).filterMap (·.2.item?) = b.toList.filterMap Answer.item? := by
      rw [List.filterMap_map]
      rfl
    unfold itemsGot itemsPut
    simp only [Waitlist.answered_resolve, List.filterMap_append, hgot]
    calc _ = s.itemsGot ++ (b.toList.filterMap Answer.item? ++ q'.buffer) := List.append_assoc _ _ _
      _ = (s.itemsGot ++ s.queue.buffer) ++ (b.toList.map (t, ·)).filterMap (itemPut? made) := by
        rw [hitems, List.append_assoc]
      _ = _ := by rw [h.items]; rfl

/-- Whatever makes no request leaves those made as they are. -/
theorem move_of_none (h : Recorded made s) (hm : Move s action s') (hnone : action.request? = none) :
    Recorded made s' := by
  cases hm with
  | start => cases hnone
  | poll hw ht => exact h.tried hw ht
  | pollNone | dropNone | markNone => exact h
  | @drop id what hw =>
    refine ⟨h.numbered.withdraw id, h.next, fun r hr => h.waiting r (Waitlist.mem_withdraw.1 hr).1,
      h.answered, ?_⟩
    show s.itemsGot ++ (s.queue.leave id).buffer = s.itemsPut made
    rw [(leave_dealing s.queue id).2.1, h.items]
  | mark hq =>
    refine ⟨h.numbered, h.next, h.waiting, h.answered, ?_⟩
    rw [(markDone_ok hq).1]
    exact h.items
  | close => exact ⟨h.numbered, h.next, h.waiting, h.answered, h.items⟩

theorem move (h : Recorded made s) (hm : Move s action s') :
    Recorded (made ++ action.request?.toList) s' := by
  cases haction : action.request? with
  | none =>
    rw [Option.toList_none, List.append_nil]
    exact h.move_of_none hm haction
  | some what =>
    cases hm with
    | start ht =>
      cases haction
      exact (h.enter what).tried (Waitlist.mem_enter.2 (.inr rfl)) ht
    | _ => cases haction

theorem run (h : Recorded made s) (actions : List (Action α)) :
    Recorded (made ++ requested actions) (s.run actions) := by
  induction actions generalizing s made with
  | nil =>
    show Recorded (made ++ []) s
    rwa [List.append_nil]
  | cons action actions ih =>
    have hrun := ih (h.move (act_move h.numbered action))
    have hmade : made ++ requested (action :: actions) =
        made ++ action.request?.toList ++ requested actions := by
      unfold requested
      cases haction : action.request? <;> simp [haction]
    rw [hmade]
    exact hrun

end Recorded

/-! ### Requests that are dropped -/

theorem gone_move (h : s.requests.Gone id) (hm : Move s action s') : s'.requests.Gone id := by
  cases hm with
  | start => exact (h.enter _).resolve (Waitlist.mem_enter.2 (.inr rfl)) _
  | poll hw => exact h.resolve hw _
  | drop => exact h.withdraw _
  | pollNone | dropNone | mark | markNone | close => exact h

theorem gone_run (hs : Lined s) (h : s.requests.Gone id) (actions : List (Action α)) :
    (s.run actions).requests.Gone id :=
  hs.run_induction h (fun _ _ _ _ hm hg => gone_move hg hm) actions

theorem gone_drop (hs : Lined s) (hw : s.requests.isWaiting id = true) :
    (s.act (.drop id)).1.requests.Gone id := by
  obtain ⟨what, hm⟩ := Waitlist.isWaiting_eq_true.1 hw
  show (s.drop id).requests.Gone id
  rw [drop, if_pos hw]
  exact .of_withdraw hs.numbered hm

theorem drop_items (s : Session α) (id : Ticket) :
    (s.drop id).queue.buffer = s.queue.buffer ∧
      (s.drop id).requests.answered = s.requests.answered := by
  unfold drop
  split
  · exact ⟨(leave_dealing s.queue id).2.1, rfl⟩
  · exact ⟨rfl, rfl⟩

/-- Items go through a session in order, each once. -/
structure InOrder (made : List (Request α)) (s : Session α) : Prop where
  items : s.itemsGot ++ s.queue.buffer = s.itemsPut made
  once : (s.requests.answered.map Prod.fst).Nodup
  dropped : ∀ id, (s.act (.drop id)).1.queue.buffer = s.queue.buffer ∧
    (s.act (.drop id)).1.requests.answered = s.requests.answered
  unanswered : ∀ id, s.requests.isWaiting id = true → ∀ more answer,
    (id, answer) ∉ ((s.act (.drop id)).1.run more).requests.answered
  closed : (s.act .close).1.queue.buffer = s.queue.buffer ∧ (s.act .close).1.requests = s.requests

/-- There is a queue of every capacity within bounds, and whatever is done with it, the items got and
then those in the buffer are the items put: a request that is dropped takes none and leaves none, and
closing removes none. -/
theorem items_in_order {capacity : UInt64} (hpos : 1 ≤ capacity.toNat)
    (hmax : capacity.toNat ≤ maxCapacity) :
    ∃ q : WorkQueue α, WorkQueue.new capacity = .ok q ∧
      ∀ actions : List (Action α), InOrder (requested actions) ((⟨q, {}⟩ : Session α).run actions) := by
  refine ⟨ofCapacity capacity.toNat, new_eq_ok_iff.2 ⟨hpos, hmax, rfl⟩, fun actions => ?_⟩
  have hlined := lined_run capacity.toNat actions
  have hrecorded := (Recorded.new capacity.toNat).run actions
  rw [List.nil_append] at hrecorded
  generalize (⟨ofCapacity capacity.toNat, {}⟩ : Session α).run actions = s at hlined hrecorded
  refine ⟨hrecorded.items, hlined.numbered.once, drop_items s, fun id hw more => ?_, rfl, rfl⟩
  have hdrop := hlined.move (act_move hlined.numbered (.drop id))
  exact (gone_run hdrop (gone_drop hlined hw) more).unanswered

/-- The second put gives up after it has been granted the slot of the first item; the third one gets
that slot. -/
theorem items_in_order_dropped :
    let actions : List (Action Nat) := [.start (.put 7), .start (.put 8), .start (.put 9),
      .start .get, .drop 2, .poll 3, .close]
    let s := (⟨ofCapacity 1, {}⟩ : Session Nat).run actions
    s.itemsGot = [7] ∧ s.queue.buffer = [9] ∧ s.itemsPut (requested actions) = [7, 9] ∧
      1 ≤ (1 : UInt64).toNat ∧ (1 : UInt64).toNat ≤ maxCapacity ∧
      InOrder (requested actions) s := by
  intro actions s
  have hpos : 1 ≤ (1 : UInt64).toNat := by decide
  have hmax : (1 : UInt64).toNat ≤ maxCapacity := by decide
  obtain ⟨q, hq, horder⟩ := items_in_order (α := Nat) hpos hmax
  obtain rfl : ofCapacity 1 = q := (new_eq_ok_iff.1 hq).2.2
  exact ⟨rfl, rfl, rfl, hpos, hmax, horder actions⟩

end Session

end LoadGenerator.WorkQueue
