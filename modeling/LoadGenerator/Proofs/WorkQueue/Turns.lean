import LoadGenerator.Proofs.WorkQueue.Serving

/-!
# First come, first served

Requests are numbered as they are made, so to be served in the order of arrival is to be served in
the order of the numbers. Those who have been served so far and then those who wait are always
ascending (`Ordered`), whoever gives up and whoever comes in between, since an action serves nobody
but the first who waits. `arrivals` lists who has come to own a slot or the turn, action by action
(`first_come_first_served`).
-/

namespace LoadGenerator.WorkQueue

variable {α : Type} {q : WorkQueue α}

/-! ### Those who have been served -/

/-- The numbers of those who have been served and then of those who wait ascend, and the next one is
greater than all of them. -/
structure Ordered (past waiting : List Ticket) (next : Ticket) : Prop where
  sorted : (past ++ waiting).Pairwise (· < ·)
  fresh : ∀ t ∈ past ++ waiting, t < next

namespace Ordered

variable {past waiting waiting' served : List Ticket} {next : Ticket}

theorem sublist (h : Ordered past waiting next) {past' waiting' : List Ticket}
    (hsub : (past' ++ waiting').Sublist (past ++ waiting)) : Ordered past' waiting' next :=
  ⟨h.sorted.sublist hsub, fun t ht => h.fresh t (hsub.subset ht)⟩

/-- Somebody comes and stands behind the others. -/
theorem come (h : Ordered past waiting next) : Ordered past (waiting ++ [next]) (next + 1) := by
  have hmem : ∀ t, t ∈ past ++ (waiting ++ [next]) → t ∈ past ++ waiting ∨ t = next := by
    intro t ht
    rw [← List.append_assoc] at ht
    exact (List.mem_append.1 ht).imp_right List.mem_singleton.1
  refine ⟨?_, fun t ht => ?_⟩
  · rw [← List.append_assoc, List.pairwise_append]
    refine ⟨h.sorted, List.pairwise_singleton _ _, fun t ht u hu => ?_⟩
    rw [List.mem_singleton.1 hu]
    exact h.fresh t ht
  · rcases hmem t ht with ht | rfl
    · exact Nat.lt_succ_of_lt (h.fresh t ht)
    · exact Nat.lt_succ_self t

theorem serve (h : Ordered past waiting next) (hfirst : (served ++ waiting').Sublist waiting) :
    Ordered (past ++ served) waiting' next := by
  refine h.sublist ?_
  rw [List.append_assoc]
  exact (List.Sublist.refl past).append hfirst

end Ordered

/-- Distinct elements of a list of at most one element. -/
theorem sublist_of_subset {l m : List Ticket} (hl : l.Nodup) (hm : m.length ≤ 1)
    (hsub : ∀ u ∈ l, u ∈ m) : l.Sublist m := by
  cases m with
  | nil =>
    rw [List.eq_nil_iff_forall_not_mem.2 fun u hu => List.not_mem_nil (hsub u hu)]
  | cons v rest =>
    obtain rfl : rest = [] :=
      List.length_eq_zero_iff.1 (Nat.le_zero.1 (Nat.le_of_succ_le_succ hm))
    cases l with
    | nil => exact List.nil_sublist _
    | cons u l =>
      obtain rfl := List.mem_singleton.1 (hsub u List.mem_cons_self)
      have hnil : l = [] := List.eq_nil_iff_forall_not_mem.2 fun w hw => by
        obtain rfl := List.mem_singleton.1 (hsub w (List.mem_cons_of_mem _ hw))
        exact (List.nodup_cons.1 hl).1 hw
      rw [hnil]

namespace Session

variable {s s' : Session α} {action : Action α} {made : List (Request α)} {good : Good}
  {past : List Ticket}

/-- Who comes to be the last in line by an action. -/
def comer (s : Session α) : Action α → List Ticket
  | .start _ => [s.requests.next]
  | _ => []

/-- Those who have owned something until they were answered, in the order of the answers. -/
def finished (good : Good) (s : Session α) : List Ticket :=
  (s.requests.answered.filter (·.2.isUseOf good)).map Prod.fst

/-- Those who own something, and those who have. -/
def served (good : Good) (s : Session α) : List Ticket :=
  (s.queue.line good).owners ++ s.finished good

/-- Those who come to own something by an action. -/
def newlyServed (good : Good) (s : Session α) (action : Action α) : List Ticket :=
  ((s.act action).1.served good).filter (· ∉ s.served good)

/-- Those who come to own something, one action after the other. -/
def arrivals (good : Good) (s : Session α) : List (Action α) → List Ticket
  | [] => []
  | action :: actions => s.newlyServed good action ++ (s.act action).1.arrivals good actions

/-- What an action does to those who own something and to those who wait for it. -/
structure Advance (good : Good) (s : Session α) (action : Action α) (s' : Session α) : Prop where
  next : s'.requests.next = s.requests.next + (s.comer action).length
  serves : ∃ done, (s.queue.line good).Serves (s.comer action) (s'.queue.line good) done ∧
    s'.finished good = s.finished good ++ done

theorem finished_resolve (w : Waitlist (Request α) (Answer α)) (q : WorkQueue α) (t : Ticket)
    (b : Option (Answer α)) (good : Good) :
    (⟨q, w.resolve t b⟩ : Session α).finished good =
      (⟨q, w⟩ : Session α).finished good ++ doneWith good t b := by
  simp only [finished, Waitlist.answered_resolve, List.filter_append, List.map_append, doneWith]

theorem Lined.advance (h : Lined s) (hm : Move s action s') (good : Good) :
    Advance good s action s' := by
  have hstill : ∀ {s' : Session α}, s'.queue.line good = s.queue.line good →
      s'.requests.answered = s.requests.answered →
      ∃ done, (s.queue.line good).Serves [] (s'.queue.line good) done ∧
        s'.finished good = s.finished good ++ done := by
    intro s' hline ha
    refine ⟨[], hline ▸ .refl _ _, ?_⟩
    rw [finished, ha, List.append_nil]
    rfl
  cases hm with
  | @start what q' b ht =>
    obtain ⟨hput, hget⟩ := h.next_not_mem
    refine ⟨by cases b <;> rfl, doneWith good s.requests.next b, ?_, finished_resolve _ _ _ _ _⟩
    exact ht.serves h.sound (fun _ => .inr ⟨hput, rfl⟩) (fun _ => .inr ⟨hget, rfl⟩) good
  | @poll id what q' b hw ht =>
    refine ⟨by cases b <;> rfl, doneWith good id b, ?_, finished_resolve _ _ _ _ _⟩
    refine ht.serves h.sound (fun hp => .inl ?_) (fun hg => .inl ?_) good
    · cases what with
      | put item => exact h.mem_putLine.2 ⟨item, hw⟩
      | get | join => cases hp
    · cases what with
      | get => exact h.mem_getLine.2 hw
      | put | join => cases hg
  | @drop id what hw => exact ⟨rfl, [], serves_leave s.queue id good, (List.append_nil _).symm⟩
  | mark hq =>
    refine ⟨rfl, hstill ?_ rfl⟩
    rw [(markDone_ok hq).1]
    cases good <;> rfl
  | close => exact ⟨rfl, hstill (by cases good <;> rfl) rfl⟩
  | pollNone | dropNone | markNone => exact ⟨rfl, hstill rfl rfl⟩

/-- Nobody is served twice. -/
theorem Lined.nodup_served (h : Lined s) (good : Good) : (s.served good).Nodup := by
  have hfinished : (s.finished good).Nodup :=
    h.numbered.once.sublist (List.filter_sublist.map Prod.fst)
  have howner : ∀ u ∈ (s.queue.line good).owners, ∃ what, (u, what) ∈ s.requests.waiting := by
    intro u hu
    cases good with
    | slot =>
      obtain ⟨item, hm⟩ := h.mem_putLine.1 (List.mem_append_left _ hu)
      exact ⟨_, hm⟩
    | turn => exact ⟨_, h.mem_getLine.1 (List.mem_append_left _ hu)⟩
  refine List.Nodup.append ?_ hfinished fun u hu hdone => ?_
  · cases good with
    | slot => exact h.nodup_putLine.of_append_left
    | turn => cases ho : s.queue.turn.owner <;> simp [line, ho]
  · obtain ⟨what, hw⟩ := howner u hu
    obtain ⟨a, ha, rfl⟩ := List.mem_map.1 hdone
    exact h.numbered.apart a (List.mem_filter.1 ha).1 _ hw rfl

theorem Lined.ordered_act (h : Lined s) (action : Action α)
    (ho : Ordered past (s.queue.line good).waiting s.requests.next)
    (hpast : ∀ u ∈ s.served good, u ∈ past) :
    (s.newlyServed good action).length ≤ 1 ∧
      Ordered (past ++ s.newlyServed good action) ((s.act action).1.queue.line good).waiting
        (s.act action).1.requests.next ∧
      ∀ u ∈ (s.act action).1.served good, u ∈ past ++ s.newlyServed good action := by
  have hm := act_move h.numbered action
  have hnodup := (h.move hm).nodup_served good
  obtain ⟨hnext, done, ⟨served, hone, hfirst, howners⟩, hfinished⟩ := h.advance hm good
  -- whoever is new has been served just now
  have hnew : (s.newlyServed good action).Sublist served := by
    refine sublist_of_subset (hnodup.filter _) hone fun u hu => ?_
    obtain ⟨hu, hnot⟩ := List.mem_filter.1 hu
    have hnot : u ∉ s.served good := of_decide_eq_true hnot
    rw [Session.served, hfinished] at hu
    have howns : u ∈ ((s.act action).1.queue.line good).owners ++ done := by
      rcases List.mem_append.1 hu with hu | hu
      · exact List.mem_append_left _ hu
      · rcases List.mem_append.1 hu with hu | hu
        · exact absurd (List.mem_append_right _ hu) hnot
        · exact List.mem_append_right _ hu
    exact (howners u howns).resolve_left fun hu => hnot (List.mem_append_left _ hu)
  refine ⟨Nat.le_trans hnew.length_le hone, ?_, fun u hu => ?_⟩
  · have hcome : Ordered past ((s.queue.line good).waiting ++ s.comer action)
        (s.act action).1.requests.next := by
      rw [hnext]
      cases action with
      | start => exact ho.come
      | poll | drop | markDone | close =>
        show Ordered past (_ ++ []) _
        rwa [List.append_nil]
    exact hcome.serve ((hnew.append (.refl _)).trans hfirst)
  · by_cases hold : u ∈ s.served good
    · exact List.mem_append_left _ (hpast u hold)
    · exact List.mem_append_right _ (List.mem_filter.2 ⟨hu, decide_eq_true hold⟩)

/-- Whatever is done, those who are served ascend, and those who wait come after them. -/
theorem Lined.ordered_run (h : Lined s)
    (ho : Ordered past (s.queue.line good).waiting s.requests.next)
    (hpast : ∀ u ∈ s.served good, u ∈ past) (actions : List (Action α)) :
    Ordered (past ++ s.arrivals good actions) ((s.run actions).queue.line good).waiting
        (s.run actions).requests.next ∧
      ∀ u ∈ (s.run actions).served good, u ∈ past ++ s.arrivals good actions := by
  induction actions generalizing s past with
  | nil =>
    show Ordered (past ++ []) _ _ ∧ ∀ u ∈ s.served good, u ∈ past ++ []
    rw [List.append_nil]
    exact ⟨ho, hpast⟩
  | cons action actions ih =>
    obtain ⟨-, hordered, hserved⟩ := h.ordered_act action ho hpast
    have hrun := ih (h.move (act_move h.numbered action)) hordered hserved
    rwa [List.append_assoc] at hrun

/-! ### Those who get an item -/

/-- The gets that have been answered ascend, and those that wait come after them. -/
theorem Lined.answered_move (h : Lined s) (hm : Move s action s')
    (ho : Ordered (s.finished .turn) s.queue.getLine s.requests.next) :
    Ordered (s'.finished .turn) s'.queue.getLine s'.requests.next := by
  have htried : ∀ {t what q' b} {w : Waitlist (Request α) (Answer α)} {came : List Ticket},
      Ordered (s.finished .turn) (s.queue.getLine ++ came) w.next →
      w.answered = s.requests.answered → Tried s.queue t what q' b →
      (what.isGet = true → t ∈ s.queue.getLine ∨ t ∉ s.queue.getLine ∧ came = [t]) →
      Ordered ((⟨q', w.resolve t b⟩ : Session α).finished .turn) q'.getLine (w.resolve t b).next := by
    intro t what q' b w came ho ha ht hget
    have hnext : (w.resolve t b).next = w.next := by cases b <;> rfl
    rw [hnext, finished_resolve]
    have hfinished : (⟨q', w⟩ : Session α).finished .turn = s.finished .turn := by
      rw [finished, ha]
      rfl
    rw [hfinished]
    exact ho.serve (ht.getLine_serve h.sound hget)
  cases hm with
  | start ht => exact htried ho.come rfl ht fun _ => .inr ⟨h.next_not_mem.2, rfl⟩
  | @poll id what q' b hw ht =>
    have hnobody : Ordered (s.finished .turn) (s.queue.getLine ++ []) s.requests.next := by
      rwa [List.append_nil]
    refine htried hnobody rfl ht fun hg => .inl ?_
    cases what with
    | get => exact h.mem_getLine.2 hw
    | put | join => cases hg
  | @drop id what hw =>
    show Ordered (s.finished .turn) (s.queue.leave id).getLine _
    rw [getLine_leave h.sound h.not_mem_getLine]
    exact ho.sublist ((List.Sublist.refl _).append List.erase_sublist)
  | mark hq =>
    rw [(markDone_ok hq).1]
    exact ho
  | pollNone | dropNone | markNone | close => exact ho

/-- The items that have been got, with the numbers of the gets. -/
def deliveries (s : Session α) : List (Ticket × α) :=
  s.requests.answered.filterMap fun a => a.2.item?.map (a.1, ·)

theorem deliveries_items (s : Session α) : s.deliveries.map Prod.snd = s.itemsGot := by
  rw [deliveries, itemsGot, List.map_filterMap]
  refine List.filterMap_congr fun a _ => ?_
  cases a.2.item? <;> rfl

theorem deliveries_sublist (s : Session α) :
    (s.deliveries.map Prod.fst).Sublist (s.finished .turn) := by
  have hsub : ∀ answered : List (Ticket × Answer α),
      ((answered.filterMap fun a => a.2.item?.map (a.1, ·)).map Prod.fst).Sublist
        ((answered.filter (·.2.isUseOf .turn)).map Prod.fst) := by
    intro answered
    induction answered with
    | nil => exact .refl _
    | cons a answered ih =>
      obtain ⟨id, answer⟩ := a
      cases answer with
      | put | joined => exact ih
      | got item =>
        cases item with
        | none => exact ih.cons _
        | some item => exact ih.cons_cons id
  exact hsub s.requests.answered

/-! ### The turn of somebody who is dropped -/

/-- Whoever comes leaves the turn where it is. -/
theorem Lined.owner_start (h : Lined s) {o : Ticket} (ho : s.queue.turn.owner = some o)
    (what : Request α) : (s.act (.start what)).1.queue.turn.owner = some o := by
  have hm := act_move h.numbered (.start what)
  generalize (s.act (.start what)).1 = s' at hm
  cases hm with
  | @start _ q' b ht =>
  cases ht with
  | putWaits h =>
    obtain ⟨-, rfl⟩ := put_waiting_eq h
    exact ho
  | @putDone _ _ result h =>
    have hline : q'.line .turn = s.queue.line .turn := by
      cases result with
      | error fault => rw [(put_error h).1]
      | ok => exact (put_ok_cases h).1
    have howner : q'.turn.owner.toList = s.queue.turn.owner.toList := congrArg Line.owners hline
    rw [ho] at howner
    cases h' : q'.turn.owner with
    | none => simp [h'] at howner
    | some o' => simpa [h'] using howner
  | joinWaits | joined => exact ho
  | getWaits hget =>
    rcases get_waiting_eq hget with ⟨-, -, -, howner⟩ | ⟨-, -, -, rfl⟩
    · have hmem : s.requests.next ∈ s.queue.getLine := by
        rw [getLine_of_owner ho, howner o ho]
        exact List.mem_cons_self
      exact absurd hmem h.next_not_mem.2
    · exact ho
  | getDone hget =>
    rcases get_cases s.queue s.requests.next with ⟨-, howner⟩ | ⟨q'', hwait, -⟩
    · have hmem : s.requests.next ∈ s.queue.getLine := by
        rw [getLine_of_owner ho, howner o ho]
        exact List.mem_cons_self
      exact absurd hmem h.next_not_mem.2
    · rw [hwait] at hget
      cases hget

theorem Lined.owner_starts (h : Lined s) {o : Ticket} (ho : s.queue.turn.owner = some o)
    (more : List (Request α)) : (s.run (more.map .start)).queue.turn.owner = some o := by
  induction more generalizing s with
  | nil => exact ho
  | cons what more ih =>
    exact ih (h.move (act_move h.numbered (.start what))) (h.owner_start ho what)

theorem Lined.owner_drop (h : Lined s) {o next : Ticket} {rest : List Ticket}
    (ho : s.queue.turn.owner = some o) (hg : s.queue.getters = next :: rest) :
    (s.act (.drop o)).1.queue.turn.owner = some next := by
  have hmem : o ∈ s.queue.getLine := by
    rw [getLine_of_owner ho]
    exact List.mem_cons_self
  have hput : o ∉ s.queue.putLine := fun hp => h.not_mem_getLine hp hmem
  have hwait : s.requests.isWaiting o = true :=
    Waitlist.isWaiting_eq_true.2 ⟨_, h.mem_getLine.1 hmem⟩
  show (s.drop o).queue.turn.owner = some next
  rw [drop, if_pos hwait, leave, if_neg fun hg => hput (List.mem_append_left _ hg),
    if_neg fun hp => hput (List.mem_append_right _ hp), if_pos ho, passTurn]
  simp only [hg]
  rfl

/-! ### First come, first served -/

/-- Those who wait for a slot, or for the turn, and own none, in the order in which they came. -/
def inLine (good : Good) (s : Session α) : List Ticket :=
  (s.requests.ids good.isFor).filter (· ∉ (s.queue.line good).owners)

/-- Whoever owns something, or waits for it, is a request that waits. -/
theorem Lined.ids_eq (h : Lined s) (good : Good) : s.requests.ids good.isFor =
    (s.queue.line good).owners ++ (s.queue.line good).waiting := by
  cases good with
  | slot => exact h.puts
  | turn => exact h.gets

theorem Lined.inLine_eq (h : Lined s) (good : Good) :
    s.inLine good = (s.queue.line good).waiting := by
  have hnodup : (s.requests.ids good.isFor).Nodup :=
    h.numbered.nodup.sublist (List.filter_sublist.map Prod.fst)
  rw [h.ids_eq good] at hnodup
  rw [inLine, h.ids_eq good, List.filter_append, List.filter_eq_nil_iff.2, List.nil_append,
    List.filter_eq_self]
  · exact fun u hu => decide_eq_true fun ho => (List.nodup_append.1 hnodup).2.2 u ho u hu rfl
  · exact fun u hu => by simpa using hu

/-- `arrived` tells who has come to own a slot, or the turn. They have come to it one at a time and
in the order in which they were started, and whoever waits without has been started after them. -/
structure FirstCome (good : Good) (arrived : List Ticket) (s : Session α) : Prop where
  ascending : arrived.Pairwise (· < ·)
  served : ∀ u ∈ s.served good, u ∈ arrived
  owners : ∀ u ∈ (s.queue.line good).owners, u ∈ s.requests.ids good.isFor
  behind : ∀ u ∈ s.inLine good, ∀ v ∈ arrived, v < u
  single : ∀ action, (s.newlyServed good action).length ≤ 1

/-- Gets return the items in the order in which they were buffered, to whoever was started first. The
turn of one that is dropped goes to the next in line, not to those who come later. -/
structure InTurn (made : List (Request α)) (s : Session α) : Prop where
  gets : (s.deliveries.map Prod.fst).Pairwise (· < ·)
  items : s.deliveries.map Prod.snd ++ s.queue.buffer = s.itemsPut made
  handed : ∀ holder next rest, s.queue.turn.owner = some holder → s.inLine .turn = next :: rest →
    ∀ more : List (Request α),
      ((s.act (.drop holder)).1.run (more.map .start)).queue.turn.owner = some next

theorem Lined.inTurn (h : Lined s) (hrecorded : Recorded made s)
    (hgets : Ordered (s.finished .turn) s.queue.getLine s.requests.next) : InTurn made s := by
  refine ⟨?_, ?_, fun holder next rest ho hline more => ?_⟩
  · exact (hgets.sorted.sublist (List.sublist_append_left _ _)).sublist (deliveries_sublist s)
  · rw [deliveries_items]
    exact hrecorded.items
  · have hdrop := h.move (act_move h.numbered (.drop holder))
    exact hdrop.owner_starts (h.owner_drop ho ((h.inLine_eq .turn).symm.trans hline)) more

/-- Slots and the turn go to those who came first, whatever is done with a queue. -/
theorem first_come_first_served {capacity : UInt64} {q : WorkQueue α}
    (hnew : WorkQueue.new capacity = .ok q) (actions : List (Action α)) :
    (∀ good, FirstCome good ((⟨q, {}⟩ : Session α).arrivals good actions)
        ((⟨q, {}⟩ : Session α).run actions)) ∧
      InTurn (requested actions) ((⟨q, {}⟩ : Session α).run actions) := by
  obtain ⟨-, -, rfl⟩ := new_eq_ok_iff.1 hnew
  have hlined := lined_run capacity.toNat actions
  have hnil : ∀ next, Ordered [] [] next := fun next => ⟨.nil, by simp⟩
  refine ⟨fun good => ?_, hlined.inTurn ?_ ?_⟩
  · have hline : ((ofCapacity capacity.toNat : WorkQueue α).line good) = ⟨[], []⟩ := by
      cases good <;> rfl
    have hserved : ∀ u ∈ (⟨ofCapacity capacity.toNat, {}⟩ : Session α).served good, u ∈ [] := by
      intro u hu
      rwa [Session.served, hline] at hu
    have hstart : Ordered [] ((ofCapacity capacity.toNat : WorkQueue α).line good).waiting 1 := by
      rw [hline]
      exact hnil 1
    obtain ⟨hordered, hpast⟩ := (Lined.new capacity.toNat).ordered_run hstart hserved actions
    rw [List.nil_append] at hordered hpast
    obtain ⟨hascending, -, hbehind⟩ := List.pairwise_append.1 hordered.sorted
    refine ⟨hascending, hpast, fun u hu => ?_, fun u hu v hv => ?_, fun action => ?_⟩
    · rw [hlined.ids_eq good]
      exact List.mem_append_left _ hu
    · rw [hlined.inLine_eq good] at hu
      exact hbehind v hv u hu
    · exact (hlined.ordered_act action hordered hpast).1
  · have hrecorded := (Recorded.new capacity.toNat).run actions
    rwa [List.nil_append] at hrecorded
  · exact (Lined.new capacity.toNat).run_induction
      (P := fun s => Ordered (s.finished .turn) s.queue.getLine s.requests.next) (hnil 1)
      (fun _ _ _ h hm ho => h.answered_move hm ho) actions

/-- The first get holds the turn and is dropped, another one comes, and items are put before anybody
is polled; the second get has the turn and the first item. -/
theorem first_come_first_served_dropped :
    let actions : List (Action Nat) := [.start .get, .start .get, .start .get, .drop 1, .start .get,
      .start (.put 7), .start (.put 8), .poll 4, .poll 3, .poll 2, .poll 6, .poll 4, .poll 3]
    let s := (⟨ofCapacity 1, {}⟩ : Session Nat).run actions
    s.deliveries = [(2, 7), (3, 8)] ∧
      (⟨ofCapacity 1, {}⟩ : Session Nat).arrivals .turn actions = [1, 2, 3, 4] ∧
      (⟨ofCapacity 1, {}⟩ : Session Nat).arrivals .slot actions = [5, 6] ∧
      WorkQueue.new 1 = .ok (ofCapacity 1 : WorkQueue Nat) ∧
      FirstCome .turn [1, 2, 3, 4] s ∧ FirstCome .slot [5, 6] s ∧ InTurn (requested actions) s := by
  intro actions s
  have hnew : WorkQueue.new 1 = .ok (ofCapacity 1 : WorkQueue Nat) := rfl
  obtain ⟨hcame, hturn⟩ := first_come_first_served hnew actions
  exact ⟨rfl, by decide +kernel, by decide +kernel, hnew, hcame .turn, hcame .slot, hturn⟩

end Session

end LoadGenerator.WorkQueue
