import LoadGenerator.Proofs.WorkQueue.Notices
import LoadGenerator.Proofs.WorkQueue.Order

/-!
# What is outstanding

An action on a session answers one request, which it makes or polls, or it marks an item as done, or
it does neither (`Effect`). Only an accepted put and a marked item move the count of what is
outstanding, so it is at all times the puts accepted less the items marked as done, however long a
put has waited for its slot (`outstanding_balance`). To join is to look at this count: a join that
has been told of a zero that is gone goes on waiting.
-/

namespace LoadGenerator.WorkQueue

variable {α : Type} {q q' : WorkQueue α} {t : Ticket} {what : Request α} {b : Option (Answer α)}

theorem Tried.outstanding (h : Tried q t what q' b) :
    q'.outstanding = q.outstanding + b.toList.countP Answer.isAccepted := by
  cases h with
  | putWaits h => exact (put_waiting h).2.2.1
  | getWaits h => exact (get_waiting h).2.2.1
  | joinWaits | joined => rfl
  | @putDone _ _ result h =>
    cases result with
    | ok => exact (put_ok h).2.2
    | error => exact congrArg WorkQueue.outstanding (put_error h).1
  | @getDone _ result h =>
    cases result with
    | none => exact (get_none h).2.2.1
    | some => exact (get_some h).2.2

/-- Only an accepted put changes what is outstanding. -/
theorem Tried.eq_put (h : Tried q t what q' b) (hne : q'.outstanding ≠ q.outstanding) :
    ∃ item, what = .put item ∧ b = some (.put (.ok ())) := by
  have hout := h.outstanding
  cases h with
  | @putDone item _ result =>
    cases result with
    | ok => exact ⟨item, rfl, rfl⟩
    | error => exact absurd hout hne
  | putWaits | getWaits | getDone | joinWaits | joined => exact absurd hout hne

theorem Tried.eq_join (h : Tried q t what q' (some .joined)) : what = .join := by
  cases h with
  | joined => rfl

theorem Tried.joined_iff (h : Tried q t .join q' b) : b = some .joined ↔ q.outstanding = 0 := by
  cases h with
  | joinWaits hd =>
    have hne : q.outstanding ≠ 0 := by simpa [drained] using hd
    simp [hne]
  | joined hd =>
    have heq : q.outstanding = 0 := by simpa [drained] using hd
    simp [heq]

namespace Session

variable {s s' : Session α} {action : Action α} {id : Ticket}

/-! ### What an action answers -/

/-- An action is the first or a later try of a request. -/
def Tries (s : Session α) (action : Action α) (id : Ticket) (what : Request α) : Prop :=
  action = .start what ∧ id = s.requests.next ∨
    action = .poll id ∧ (id, what) ∈ s.requests.waiting

/-- What an action that leads from `s` to `s'` answers, and whether it marks an item as done. -/
inductive Effect (s : Session α) (action : Action α) (s' : Session α) : Prop
  | idle (ha : s'.requests.answered = s.requests.answered)
      (hout : s'.queue.outstanding = s.queue.outstanding)
      (hmark : action = .markDone → ∃ fault, s.queue.markDone = .error fault)
  | marks (haction : action = .markDone) (ha : s'.requests.answered = s.requests.answered)
      (hq : s.queue.markDone = .ok s'.queue)
  | answers {id : Ticket} {what : Request α} {answer : Answer α} (htries : s.Tries action id what)
      (htried : Tried s.queue id what s'.queue (some answer))
      (ha : s'.requests.answered = s.requests.answered ++ [(id, answer)])

theorem Effect.of_tried {w : Waitlist (Request α) (Answer α)} (htries : s.Tries action id what)
    (hw : w.answered = s.requests.answered) (ht : Tried s.queue id what q' b) :
    Effect s action ⟨q', w.resolve id b⟩ := by
  have ha : (w.resolve id b).answered = s.requests.answered ++ b.toList.map (id, ·) := by
    rw [Waitlist.answered_resolve, hw]
  cases b with
  | none =>
    refine .idle (ha.trans (List.append_nil _)) ht.outstanding fun hmark => ?_
    rcases htries with ⟨rfl, -⟩ | ⟨rfl, -⟩ <;> cases hmark
  | some answer => exact .answers htries ht ha

theorem Move.effect (h : Move s action s') : Effect s action s' := by
  cases h with
  | @start what q' b ht =>
    have hw : (s.requests.enter what).answered = s.requests.answered := rfl
    exact .of_tried (.inl ⟨rfl, rfl⟩) hw ht
  | poll hm ht => exact .of_tried (.inr ⟨rfl, hm⟩) rfl ht
  | drop => exact .idle rfl (leave_dealing _ _).2.2 fun hmark => by cases hmark
  | mark hq => exact .marks rfl rfl hq
  | markNone hq => exact .idle rfl rfl fun _ => ⟨_, hq⟩
  | pollNone | dropNone | close => exact .idle rfl rfl fun hmark => by cases hmark

/-- What has been answered after an action was answered before it, or is what it answers. -/
theorem Effect.mem_answered {answer : Answer α} (h : Effect s action s')
    (ha : (id, answer) ∈ s'.requests.answered) :
    (id, answer) ∈ s.requests.answered ∨
      ∃ what, s.Tries action id what ∧ Tried s.queue id what s'.queue (some answer) := by
  cases h with
  | idle hsame | marks _ hsame => exact .inl (hsame ▸ ha)
  | answers htries htried hsame =>
    rw [hsame] at ha
    refine (List.mem_append.1 ha).imp_right fun hnew => ?_
    cases List.mem_singleton.1 hnew
    exact ⟨_, htries, htried⟩

/-! ### Puts and marks -/

/-- The puts that the queue has accepted so far. -/
def putsAccepted (s : Session α) : Nat :=
  s.requests.answered.countP (·.2.isAccepted)

/-- An item has been marked as done. -/
def Result.isMarked : Result α → Bool
  | .marked (.ok ()) => true
  | _ => false

/-- How many of some actions mark an item as done. -/
def itemsMarked (s : Session α) : List (Action α) → Nat
  | [] => 0
  | action :: actions =>
    (if (s.act action).2.isMarked then 1 else 0) + (s.act action).1.itemsMarked actions

theorem markDone_of_eq_zero (h : s.queue.outstanding = 0) :
    s.act .markDone = (s, .marked (.error .unbalanced)) := by
  have hq : s.queue.markDone = .error .unbalanced := if_pos h
  simp only [act, hq]

theorem markDone_of_ne_zero (h : s.queue.outstanding ≠ 0) :
    (s.act .markDone).2 = .marked (.ok ()) := by
  have hq : s.queue.markDone = .ok { s.queue with outstanding := s.queue.outstanding - 1 } :=
    if_neg h
  simp only [act, hq]

theorem isMarked_act : (s.act action).2.isMarked = true ↔
    action = .markDone ∧ s.queue.outstanding ≠ 0 := by
  cases action with
  | markDone =>
    by_cases h : s.queue.outstanding = 0
    · simp [markDone_of_eq_zero h, h, Result.isMarked]
    · simp [markDone_of_ne_zero h, h, Result.isMarked]
  | start | poll | drop | close => simp [act, start, Result.isMarked]

theorem Move.outstanding (h : Move s action s') :
    s'.putsAccepted + s.queue.outstanding =
      s'.queue.outstanding + (if (s.act action).2.isMarked then 1 else 0) + s.putsAccepted := by
  unfold putsAccepted
  cases h.effect with
  | idle ha hout hmark =>
    have hnot : ¬ (s.act action).2.isMarked = true := by
      rw [isMarked_act]
      rintro ⟨haction, hne⟩
      obtain ⟨fault, hq⟩ := hmark haction
      exact hne (markDone_error hq)
    rw [ha, hout, if_neg hnot]
    omega
  | marks haction ha hq =>
    have hout := (markDone_ok hq).2
    have hmarked : (s.act action).2.isMarked = true := isMarked_act.2 ⟨haction, by omega⟩
    rw [ha, if_pos hmarked]
    omega
  | @answers id what answer htries htried ha =>
    have hnot : ¬ (s.act action).2.isMarked = true := by
      rw [isMarked_act]
      rintro ⟨haction, -⟩
      rcases htries with ⟨rfl, -⟩ | ⟨rfl, -⟩ <;> cases haction
    rw [ha, htried.outstanding, if_neg hnot, List.countP_append]
    simp only [Option.toList_some, List.countP_singleton]
    omega

theorem Lined.outstanding_run (h : Lined s) (actions : List (Action α)) :
    (s.run actions).putsAccepted + s.queue.outstanding =
      (s.run actions).queue.outstanding + s.itemsMarked actions + s.putsAccepted := by
  induction actions generalizing s with
  | nil => exact Nat.add_comm _ _
  | cons action actions ih =>
    have hmove := act_move h.numbered action
    have hone := hmove.outstanding
    have hrest := ih (h.move hmove)
    simp only [Session.run, itemsMarked]
    omega

/-- Every action answers at most one request. -/
theorem Lined.putsAccepted_run_le (h : Lined s) (actions : List (Action α)) :
    (s.run actions).putsAccepted ≤ s.putsAccepted + actions.length := by
  induction actions generalizing s with
  | nil => exact Nat.le_refl _
  | cons action actions ih =>
    have hmove := act_move h.numbered action
    have hone : (s.act action).1.putsAccepted ≤ s.putsAccepted + 1 := by
      unfold putsAccepted
      cases hmove.effect with
      | idle ha | marks _ ha =>
        rw [ha]
        exact Nat.le_succ _
      | @answers _ _ answer _ _ ha =>
        rw [ha, List.countP_append]
        exact Nat.add_le_add_left List.countP_le_length _
    have hrest := ih (h.move hmove)
    simp only [Session.run, List.length_cons]
    omega

/-! ### Joining -/

theorem Tries.tried (h : s.requests.Numbered) (htries : s.Tries action id what) :
    ∃ b, Tried s.queue id what (s.act action).1.queue b ∧
      (s.act action).1.requests.answered = s.requests.answered ++ b.toList.map (id, ·) := by
  have hmove := act_move h action
  generalize (s.act action).1 = s' at hmove ⊢
  rcases htries with ⟨rfl, rfl⟩ | ⟨rfl, hw⟩
  · cases hmove with
    | start ht => exact ⟨_, ht, Waitlist.answered_resolve _ _ _⟩
  · cases hmove with
    | poll hm ht =>
      obtain rfl := h.eq_of_mem hm hw
      exact ⟨_, ht, Waitlist.answered_resolve _ _ _⟩
    | pollNone hnone => exact absurd hw (hnone what)

theorem Tries.not_answered (h : s.requests.Numbered) (htries : s.Tries action id what)
    (answer : Answer α) : (id, answer) ∉ s.requests.answered := by
  intro ha
  rcases htries with ⟨-, rfl⟩ | ⟨-, hw⟩
  · exact Nat.lt_irrefl _ (h.old _ ha)
  · exact h.apart _ ha _ hw rfl

theorem Tries.joined_iff (h : s.requests.Numbered) (htries : s.Tries action id .join) :
    (id, .joined) ∈ (s.act action).1.requests.answered ↔ s.queue.outstanding = 0 := by
  obtain ⟨b, ht, ha⟩ := htries.tried h
  rw [ha, List.mem_append, or_iff_right (htries.not_answered h _), ← ht.joined_iff]
  cases b <;> simp [eq_comm]

/-- What is outstanding when `marked` items have been marked as done, and what can change it. -/
structure Outstanding (marked : Nat) (s : Session α) : Prop where
  count : s.putsAccepted = s.queue.outstanding + marked
  marks : s.putsAccepted ≠ marked → (s.act .markDone).2 = .marked (.ok ())
  unbalanced : s.putsAccepted = marked → s.act .markDone = (s, .marked (.error .unbalanced))
  changed : ∀ action, (s.act action).1.queue.outstanding ≠ s.queue.outstanding →
    action = .markDone ∨ ∃ id item, s.Tries action id (.put item) ∧
      (s.act action).1.requests.answered = s.requests.answered ++ [(id, .put (.ok ()))]
  dropped : ∀ id, s.requests.isWaiting id = true → ∀ more answer,
    (id, answer) ∉ ((s.act (.drop id)).1.run more).requests.answered
  join : ∀ action id, s.Tries action id .join →
    ((id, .joined) ∈ (s.act action).1.requests.answered ↔ s.putsAccepted = marked)
  joined : ∀ action id, (id, .joined) ∈ (s.act action).1.requests.answered →
    (id, .joined) ∈ s.requests.answered ∨ s.Tries action id .join

theorem Effect.changed (h : Effect s action s')
    (hne : s'.queue.outstanding ≠ s.queue.outstanding) :
    action = .markDone ∨ ∃ id item, s.Tries action id (.put item) ∧
      s'.requests.answered = s.requests.answered ++ [(id, .put (.ok ()))] := by
  cases h with
  | idle _ hout => exact absurd hout hne
  | marks haction => exact .inl haction
  | answers htries ht ha =>
    obtain ⟨item, rfl, hanswer⟩ := ht.eq_put hne
    cases hanswer
    exact .inr ⟨_, item, htries, ha⟩

theorem Effect.joined (h : Effect s action s') (hj : (id, .joined) ∈ s'.requests.answered) :
    (id, .joined) ∈ s.requests.answered ∨ s.Tries action id .join := by
  refine (h.mem_answered hj).imp_right ?_
  rintro ⟨what, htries, htried⟩
  obtain rfl := htried.eq_join
  exact htries

theorem Lined.outstanding (h : Lined s) {marked : Nat}
    (hcount : s.putsAccepted = s.queue.outstanding + marked) : Outstanding marked s := by
  refine ⟨hcount, fun hne => markDone_of_ne_zero (by omega),
    fun heq => markDone_of_eq_zero (by omega),
    fun action => (act_move h.numbered action).effect.changed, fun id hw more => ?_,
    fun action id htries => ?_, fun action id => (act_move h.numbered action).effect.joined⟩
  · have hdrop := h.move (act_move h.numbered (.drop id))
    exact (gone_run hdrop (gone_drop h hw) more).unanswered
  · rw [htries.joined_iff h.numbered]
    omega

/-- Whatever is done with a queue, its outstanding items are the puts that it has accepted less the
items marked as done, and whoever joins is answered when there are none, whether it asks again on
its own or sleeps until it is told. -/
theorem outstanding_balance {capacity : UInt64} (hnew : WorkQueue.new capacity = .ok q)
    (actions : List (Action α)) :
    Outstanding ((⟨q, {}⟩ : Session α).itemsMarked actions) ((⟨q, {}⟩ : Session α).run actions) ∧
      ((⟨q, {}⟩ : Session α).run actions).queue.outstanding ≤ actions.length ∧
      ((⟨⟨q, [], []⟩, {}⟩ : Notifier.Session α).run actions).plain =
        (⟨q, {}⟩ : Session α).run actions := by
  obtain ⟨-, -, rfl⟩ := new_eq_ok_iff.1 hnew
  have hlined : Lined (⟨ofCapacity capacity.toNat, {}⟩ : Session α) := .new capacity.toNat
  have hcount := hlined.outstanding_run actions
  have hle := hlined.putsAccepted_run_le actions
  have hstart : (⟨ofCapacity capacity.toNat, {}⟩ : Session α).putsAccepted = 0 := rfl
  have hempty : (⟨ofCapacity capacity.toNat, {}⟩ : Session α).queue.outstanding = 0 := rfl
  rw [hstart, hempty] at hcount
  rw [hstart] at hle
  refine ⟨(hlined.run actions).outstanding hcount, by omega, ?_⟩
  have hinformed : (⟨ofCapacity capacity.toNat, [], []⟩ : Notifier α).Informed :=
    ⟨fun h => absurd rfl h, fun _ ht => absurd ht List.not_mem_nil⟩
  exact (Notifier.Session.run_plain hinformed actions).2

/-- The only item is marked as done while somebody joins, but another one is put before the join is
polled. -/
theorem outstanding_balance_raised :
    let actions : List (Action Nat) := [.start (.put 7), .start .join, .start .get, .markDone,
      .start (.put 8), .poll 2]
    let start : Session Nat := ⟨ofCapacity 1, {}⟩
    WorkQueue.new 1 = .ok (ofCapacity 1 : WorkQueue Nat) ∧
      (start.run (actions.take 4)).queue.outstanding = 0 ∧
      (start.run actions).requests.waiting = [(2, .join)] ∧
      (start.run actions).putsAccepted = 2 ∧ start.itemsMarked actions = 1 ∧
      Outstanding (start.itemsMarked actions) (start.run actions) := by
  have hnew : WorkQueue.new 1 = .ok (ofCapacity 1 : WorkQueue Nat) := rfl
  exact ⟨hnew, rfl, rfl, rfl, rfl, (outstanding_balance hnew _).1⟩

end Session

end LoadGenerator.WorkQueue
