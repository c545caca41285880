import LoadGenerator.Cancellation.Session
import LoadGenerator.Proofs.Waitlist

/-!
# Families of contexts

A `Ledger` holds what a list of actions says by itself: which context the family of each context
began with, which reasons were given to a family, and who waits where. The contexts agree with it
(`Agrees`) and so do the waits (`Attends`): a context reports the first reason given to its family, a
wait is answered with that, and only a wait that has been dropped is forgotten.
-/

namespace LoadGenerator.Contexts

open Session (Action)

/-! ### What actions say -/

structure Ledger where
  /-- for each context the one that its family began with -/
  roots : List Nat := [0]
  /-- the reasons in the order in which they were given, each with the family -/
  reasons : List (Nat × CancelReason) := []
  /-- the waits, each with its number and its context -/
  waits : List (Nat × Nat) := []
  dropped : List Nat := []
  deriving DecidableEq, Repr

namespace Ledger

/-- The family of a context is known by the context that it began with. -/
def root (l : Ledger) (i : Nat) : Nat :=
  (l.roots[i]?).getD 0

/-- The reasons given to the members of a family. -/
def given (l : Ledger) (root : Nat) : List CancelReason :=
  (l.reasons.filter (·.1 == root)).map Prod.snd

def note (l : Ledger) : Action → Ledger
  | .new => { l with roots := l.roots ++ [l.roots.length] }
  | .clone i => { l with roots := l.roots ++ [l.root i] }
  | .cancel i reason => { l with reasons := l.reasons ++ [(l.root i, reason)] }
  | .wait i => { l with waits := l.waits ++ [(l.waits.length + 1, i)] }
  | .poll _ => l
  | .drop id => { l with dropped := l.dropped ++ [id] }

def noteAll (l : Ledger) (actions : List Action) : Ledger :=
  actions.foldl note l

/-- The contexts and the waits that an action names are there. -/
def Names (l : Ledger) : Action → Prop
  | .new => True
  | .clone i => i < l.roots.length
  | .cancel i _ => i < l.roots.length
  | .wait i => i < l.roots.length
  | .poll id => id ∈ l.waits.map Prod.fst
  | .drop id => id ∈ l.waits.map Prod.fst

instance (l : Ledger) : DecidablePred l.Names
  | .new => .isTrue trivial
  | .clone i => inferInstanceAs (Decidable (i < l.roots.length))
  | .cancel i _ => inferInstanceAs (Decidable (i < l.roots.length))
  | .wait i => inferInstanceAs (Decidable (i < l.roots.length))
  | .poll id => inferInstanceAs (Decidable (id ∈ l.waits.map Prod.fst))
  | .drop id => inferInstanceAs (Decidable (id ∈ l.waits.map Prod.fst))

def NamesAll : Ledger → List Action → Prop
  | _, [] => True
  | l, action :: actions => l.Names action ∧ (l.note action).NamesAll actions

instance decidableNamesAll : (l : Ledger) → (actions : List Action) → Decidable (l.NamesAll actions)
  | _, [] => .isTrue trivial
  | l, action :: actions =>
    have := decidableNamesAll (l.note action) actions
    inferInstanceAs (Decidable (l.Names action ∧ (l.note action).NamesAll actions))

variable {l : Ledger} {i id : Nat} {reason : CancelReason} {action : Action}

/-- A ledger of actions that name only what is there. -/
structure Sound (l : Ledger) : Prop where
  roots : ∀ i, i < l.roots.length → l.root i < l.roots.length
  reasons : ∀ r ∈ l.reasons, r.1 < l.roots.length
  waits : ∀ w ∈ l.waits, w.2 < l.roots.length
  numbers : l.waits.map Prod.fst = List.range' 1 l.waits.length
  dropped : ∀ id ∈ l.dropped, id ∈ l.waits.map Prod.fst

theorem root_append (hi : i < l.roots.length) (r : Nat) :
    root { l with roots := l.roots ++ [r] } i = l.root i := by
  simp only [root, List.getElem?_append_left hi]

theorem root_append_self (l : Ledger) (r : Nat) :
    root { l with roots := l.roots ++ [r] } l.roots.length = r := by
  simp only [root, List.getElem?_concat_length, Option.getD_some]

theorem given_append (l : Ledger) (r : Nat × CancelReason) (root : Nat) :
    given { l with reasons := l.reasons ++ [r] } root =
      l.given root ++ if r.1 = root then [r.2] else [] := by
  by_cases h : r.1 = root <;> simp [given, h]

/-- A context does not change its family. -/
theorem root_note (hi : i < l.roots.length) (action : Action) :
    (l.note action).root i = l.root i := by
  cases action with
  | new => exact root_append hi _
  | clone j => exact root_append hi _
  | cancel | wait | poll | drop => rfl

theorem length_roots_note (l : Ledger) (action : Action) :
    l.roots.length ≤ (l.note action).roots.length := by
  cases action <;> simp [note]

/-- The reasons given to a family are never taken back. -/
theorem given_note (l : Ledger) (action : Action) (root : Nat) :
    ∃ more, (l.note action).given root = l.given root ++ more := by
  cases action with
  | cancel i reason => exact ⟨_, given_append l _ root⟩
  | new | clone | wait | poll | drop => exact ⟨[], (List.append_nil _).symm⟩

theorem head?_given_note {root : Nat} (h : (l.given root).head? = some reason) (action : Action) :
    ((l.note action).given root).head? = some reason := by
  obtain ⟨more, hmore⟩ := l.given_note action root
  rw [hmore, List.head?_append, h]
  rfl

theorem mem_waits_note {w : Nat × Nat} (hw : w ∈ l.waits) (action : Action) :
    w ∈ (l.note action).waits := by
  cases action with
  | wait i => exact List.mem_append_left _ hw
  | new | clone | cancel | poll | drop => exact hw

namespace Sound

theorem start : Sound {} := by
  refine ⟨fun i hi => ?_, fun r hr => (by cases hr), fun w hw => (by cases hw), rfl,
    fun id hid => (by cases hid)⟩
  obtain rfl : i = 0 := Nat.lt_one_iff.1 hi
  exact Nat.one_pos

theorem append (h : l.Sound) {r : Nat} (hr : r ≤ l.roots.length) :
    Sound { l with roots := l.roots ++ [r] } := by
  refine ⟨fun i hi => ?_, fun p hp => ?_, fun w hw => ?_, h.numbers, h.dropped⟩
  · simp only [List.length_append, List.length_singleton] at hi ⊢
    rcases Nat.lt_succ_iff_lt_or_eq.1 hi with hi | rfl
    · rw [root_append hi]
      exact Nat.lt_succ_of_lt (h.roots i hi)
    · rw [root_append_self]
      exact Nat.lt_succ_of_le hr
  · rw [List.length_append]
    exact Nat.lt_succ_of_lt (h.reasons p hp)
  · rw [List.length_append]
    exact Nat.lt_succ_of_lt (h.waits w hw)

theorem note (h : l.Sound) (hn : l.Names action) : (l.note action).Sound := by
  cases action with
  | new => exact h.append (Nat.le_refl _)
  | clone i => exact h.append (Nat.le_of_lt (h.roots i hn))
  | cancel i reason =>
    refine ⟨h.roots, fun r hr => ?_, h.waits, h.numbers, h.dropped⟩
    rcases List.mem_append.1 hr with hr | hr
    · exact h.reasons r hr
    · rw [List.mem_singleton.1 hr]
      exact h.roots i hn
  | wait i =>
    refine ⟨h.roots, h.reasons, fun w hw => ?_, ?_, fun id hid => ?_⟩
    · rcases List.mem_append.1 hw with hw | hw
      · exact h.waits w hw
      · rw [List.mem_singleton.1 hw]
        exact hn
    · simp only [Ledger.note, List.map_append, List.length_append, h.numbers]
      rw [List.length_singleton, List.range'_1_concat]
      simp [Nat.add_comm]
    · rw [Ledger.note, List.map_append]
      exact List.mem_append_left _ (h.dropped id hid)
  | poll => exact h
  | drop id =>
    refine ⟨h.roots, h.reasons, h.waits, h.numbers, fun id' hid => ?_⟩
    rcases List.mem_append.1 hid with hid | hid
    · exact h.dropped id' hid
    · rw [List.mem_singleton.1 hid]
      exact hn

/-- A wait is for one context. -/
theorem eq_of_mem (h : l.Sound) {i j : Nat} (hi : (id, i) ∈ l.waits) (hj : (id, j) ∈ l.waits) :
    i = j := by
  have hnodup : (l.waits.map Prod.fst).Nodup := h.numbers ▸ List.nodup_range'
  exact congrArg Prod.snd (List.inj_on_of_nodup_map hnodup hi hj rfl)

theorem number_le (h : l.Sound) (hid : id ∈ l.waits.map Prod.fst) : id ≤ l.waits.length := by
  rw [h.numbers, List.mem_range'_1] at hid
  omega

theorem given_eq_nil (h : l.Sound) : l.given l.roots.length = [] := by
  unfold given
  rw [List.filter_eq_nil_iff.2, List.map_nil]
  intro r hr
  simpa using Nat.ne_of_lt (h.reasons r hr)

end Sound

end Ledger

variable {l : Ledger} {c : Contexts} {w : Waitlist Nat CancelReason} {s : Session}
  {i id : Nat} {reason : CancelReason} {action : Action}

/-! ### Contexts -/

theorem family_append (hi : i < c.members.length) (families : List Cancellation) (f : Nat) :
    family ⟨families, c.members ++ [f]⟩ i = c.family i := by
  simp only [family, List.getElem?_append_left hi]

theorem family_append_self (c : Contexts) (families : List Cancellation) (f : Nat) :
    family ⟨families, c.members ++ [f]⟩ c.members.length = f := by
  simp only [family, List.getElem?_concat_length, Option.getD_some]

theorem get_cancel (hi : c.family i < c.families.length) (j : Nat) (reason : CancelReason) :
    (c.cancel i reason).1.get j =
      if c.family j = c.family i then (c.get j).cancel reason else c.get j := by
  have hfamily : (c.cancel i reason).1.family j = c.family j := rfl
  unfold get
  rw [hfamily]
  simp only [cancel, List.getElem?_modify]
  by_cases h : c.family j = c.family i
  · rw [if_pos h, h, List.getElem?_eq_getElem hi]
    simp
  · rw [if_neg h]
    simp [Ne.symm h]

/-- Contexts whose families are those of the ledger. -/
structure Agrees (l : Ledger) (c : Contexts) : Prop where
  length : c.members.length = l.roots.length
  family_lt : ∀ i, i < l.roots.length → c.family i < c.families.length
  kin : ∀ i j, i < l.roots.length → j < l.roots.length →
    (c.family i = c.family j ↔ l.root i = l.root j)
  report : ∀ i, i < l.roots.length → (c.get i).reason = (l.given (l.root i)).head?

namespace Agrees

theorem start : Agrees {} {} := by
  refine ⟨rfl, fun i hi => ?_, fun i j hi hj => ?_, fun i hi => ?_⟩
  · obtain rfl : i = 0 := Nat.lt_one_iff.1 hi
    exact Nat.one_pos
  · obtain rfl : i = 0 := Nat.lt_one_iff.1 hi
    obtain rfl : j = 0 := Nat.lt_one_iff.1 hj
    exact iff_of_true rfl rfl
  · obtain rfl : i = 0 := Nat.lt_one_iff.1 hi
    rfl

theorem new (h : Agrees l c) (hl : l.Sound) : Agrees (l.note .new) c.new.1 := by
  have hlength : (l.note .new).roots.length = l.roots.length + 1 := List.length_append
  have hfamily : ∀ i, i < l.roots.length → c.new.1.family i = c.family i := fun i hi =>
    family_append (h.length ▸ hi) _ _
  have hlast : c.new.1.family l.roots.length = c.families.length := by
    rw [← h.length]
    exact family_append_self c _ _
  have hroot : ∀ i, i < l.roots.length → (l.note .new).root i = l.root i := fun i hi =>
    Ledger.root_append hi _
  have hself : (l.note .new).root l.roots.length = l.roots.length := Ledger.root_append_self l _
  have hcases : ∀ i, i < (l.note .new).roots.length → i < l.roots.length ∨ i = l.roots.length :=
    fun i hi => Nat.lt_succ_iff_lt_or_eq.1 (lt_of_lt_of_eq hi hlength)
  refine ⟨?_, fun i hi => ?_, fun i j hi hj => ?_, fun i hi => ?_⟩
  · rw [hlength, ← h.length]
    exact List.length_append
  · show _ < (c.families ++ [_]).length
    rw [List.length_append, List.length_singleton]
    rcases hcases i hi with hi | rfl
    · rw [hfamily i hi]
      exact Nat.lt_succ_of_lt (h.family_lt i hi)
    · rw [hlast]
      exact Nat.lt_succ_self _
  · -- the new family is nobody else's, and no other began with the new context
    rcases hcases i hi with hi | rfl <;> rcases hcases j hj with hj | rfl
    · rw [hfamily i hi, hfamily j hj, hroot i hi, hroot j hj]
      exact h.kin i j hi hj
    · rw [hfamily i hi, hlast, hroot i hi, hself]
      exact iff_of_false (Nat.ne_of_lt (h.family_lt i hi)) (Nat.ne_of_lt (hl.roots i hi))
    · rw [hfamily j hj, hlast, hroot j hj, hself]
      exact iff_of_false (Nat.ne_of_gt (h.family_lt j hj)) (Nat.ne_of_gt (hl.roots j hj))
    · exact iff_of_true rfl rfl
  · have hgiven : ∀ r, (l.note .new).given r = l.given r := fun _ => rfl
    rw [hgiven]
    rcases hcases i hi with hi | rfl
    · rw [hroot i hi, ← h.report i hi, get, hfamily i hi]
      simp only [Contexts.new, get, List.getElem?_append_left (h.family_lt i hi)]
    · rw [hself, hl.given_eq_nil, get, hlast]
      simp [Contexts.new]

theorem clone (h : Agrees l c) (hi : i < l.roots.length) :
    Agrees (l.note (.clone i)) (c.clone i).1 := by
  have hlength : (l.note (.clone i)).roots.length = l.roots.length + 1 := List.length_append
  -- the clone has the family and the root of the other context, the rest is as before
  have hold : ∀ j, j < (l.note (.clone i)).roots.length → ∃ k, k < l.roots.length ∧
      (c.clone i).1.family j = c.family k ∧ (l.note (.clone i)).root j = l.root k := by
    intro j hj
    rcases Nat.lt_succ_iff_lt_or_eq.1 (lt_of_lt_of_eq hj hlength) with hj | rfl
    · exact ⟨j, hj, family_append (h.length ▸ hj) _ _, Ledger.root_append hj _⟩
    · refine ⟨i, hi, ?_, Ledger.root_append_self l _⟩
      rw [← h.length]
      exact family_append_self c _ _
  refine ⟨?_, fun j hj => ?_, fun j k hj hk => ?_, fun j hj => ?_⟩
  · rw [hlength, ← h.length]
    exact List.length_append
  · obtain ⟨j', hj', hfamily, -⟩ := hold j hj
    rw [hfamily]
    exact h.family_lt j' hj'
  · obtain ⟨j', hj', hfamilyj, hrootj⟩ := hold j hj
    obtain ⟨k', hk', hfamilyk, hrootk⟩ := hold k hk
    rw [hfamilyj, hfamilyk, hrootj, hrootk]
    exact h.kin j' k' hj' hk'
  · obtain ⟨j', hj', hfamily, hroot⟩ := hold j hj
    have hget : (c.clone i).1.get j = c.get j' := by
      unfold get
      rw [hfamily]
      rfl
    rw [hget, hroot]
    exact h.report j' hj'

theorem cancel (h : Agrees l c) (hi : i < l.roots.length) (reason : CancelReason) :
    Agrees (l.note (.cancel i reason)) (c.cancel i reason).1 := by
  refine ⟨h.length, fun j hj => ?_, h.kin, fun j hj => ?_⟩
  · show c.family j < (c.families.modify _ _).length
    rw [List.length_modify]
    exact h.family_lt j hj
  · have hroot : (l.note (.cancel i reason)).root j = l.root j := rfl
    have hgiven : (l.note (.cancel i reason)).given (l.root j) =
        l.given (l.root j) ++ if l.root i = l.root j then [reason] else [] :=
      Ledger.given_append l (l.root i, reason) (l.root j)
    have hkin : c.family j = c.family i ↔ l.root i = l.root j :=
      (h.kin j i hj hi).trans ⟨Eq.symm, Eq.symm⟩
    rw [hroot, hgiven, get_cancel (h.family_lt i hi), List.head?_append, ← h.report j hj]
    by_cases hsame : l.root i = l.root j
    · rw [if_pos (hkin.2 hsame), if_pos hsame]
      exact Cancellation.reason_cancel_eq _ _
    · rw [if_neg fun he => hsame (hkin.1 he), if_neg hsame]
      exact Option.or_none.symm

end Agrees

/-! ### Waits -/

/-- Waits that have come of the ledger's: each is answered with the first reason given to its family,
goes on waiting, or has been dropped. -/
structure Attends (l : Ledger) (w : Waitlist Nat CancelReason) : Prop where
  numbered : w.Numbered
  next : w.next = l.waits.length + 1
  waiting : ∀ r ∈ w.waiting, r ∈ l.waits ∧ r.1 ∉ l.dropped
  answered : ∀ a ∈ w.answered, ∃ i, (a.1, i) ∈ l.waits ∧ (l.given (l.root i)).head? = some a.2
  kept : ∀ r ∈ l.waits, r ∈ w.waiting ∨ (∃ reason, (r.1, reason) ∈ w.answered) ∨ r.1 ∈ l.dropped

theorem mem_waiting_resolve {r : Nat × Nat} (hr : r.1 ≠ id) (b : Option CancelReason) :
    r ∈ (w.resolve id b).waiting ↔ r ∈ w.waiting := by
  cases b with
  | none => exact .rfl
  | some b => simp [Waitlist.resolve, hr]

theorem mem_answered_resolve {a : Nat × CancelReason} (ha : a.1 ≠ id) (b : Option CancelReason) :
    a ∈ (w.resolve id b).answered ↔ a ∈ w.answered := by
  rw [Waitlist.answered_resolve, List.mem_append, or_iff_left]
  intro hmem
  obtain ⟨reason, -, rfl⟩ := List.mem_map.1 hmem
  exact ha rfl

namespace Attends

theorem start : Attends {} {} :=
  ⟨.nil, rfl, fun _ hr => (by cases hr), fun _ ha => (by cases ha), fun _ hr => (by cases hr)⟩

/-- What has been answered stays right whatever is done. -/
theorem answered_note (h : Attends l w) (hl : l.Sound) (action : Action)
    {a : Nat × CancelReason} (ha : a ∈ w.answered) :
    ∃ i, (a.1, i) ∈ (l.note action).waits ∧
      ((l.note action).given ((l.note action).root i)).head? = some a.2 := by
  obtain ⟨i, hi, hgiven⟩ := h.answered a ha
  refine ⟨i, Ledger.mem_waits_note hi action, ?_⟩
  rw [Ledger.root_note (hl.waits _ hi)]
  exact Ledger.head?_given_note hgiven action

theorem note (h : Attends l w) (hl : l.Sound) (hwaits : (l.note action).waits = l.waits)
    (hdropped : (l.note action).dropped = l.dropped) : Attends (l.note action) w := by
  refine ⟨h.numbered, ?_, ?_, fun a ha => h.answered_note hl action ha, ?_⟩
  · rw [hwaits]
    exact h.next
  · rw [hwaits, hdropped]
    exact h.waiting
  · rw [hwaits, hdropped]
    exact h.kept

theorem enter (h : Attends l w) (hl : l.Sound) (i : Nat) :
    Attends (l.note (.wait i)) (w.enter i) := by
  have hwaits : (l.note (.wait i)).waits = l.waits ++ [(l.waits.length + 1, i)] := rfl
  refine ⟨h.numbered.enter i, ?_, fun r hr => ?_, fun a ha => h.answered_note hl (.wait i) ha,
    fun r hr => ?_⟩
  · rw [hwaits, List.length_append]
    exact congrArg (· + 1) h.next
  · rcases Waitlist.mem_enter.1 hr with hr | rfl
    · exact ⟨Ledger.mem_waits_note (h.waiting r hr).1 _, (h.waiting r hr).2⟩
    · rw [h.next, hwaits]
      refine ⟨List.mem_append_right _ (List.mem_singleton.2 rfl), fun hid => ?_⟩
      have hle := hl.number_le (hl.dropped _ hid)
      omega
  · rw [hwaits] at hr
    rcases List.mem_append.1 hr with hr | hr
    · exact (h.kept r hr).imp_left fun hr => Waitlist.mem_enter.2 (.inl hr)
    · refine .inl (Waitlist.mem_enter.2 (.inr ?_))
      rw [List.mem_singleton.1 hr, h.next]

theorem resolve (h : Attends l w) (hm : (id, i) ∈ w.waiting) :
    Attends l (w.resolve id (l.given (l.root i)).head?) := by
  have hnumbered := h.numbered.resolve hm (l.given (l.root i)).head?
  cases hgiven : (l.given (l.root i)).head? with
  | none => exact h
  | some reason =>
    rw [hgiven] at hnumbered
    refine ⟨hnumbered, h.next, fun r hr => h.waiting r (Waitlist.mem_resolve hr), fun a ha => ?_,
      fun r hr => ?_⟩
    · rcases List.mem_append.1 ha with ha | ha
      · exact h.answered a ha
      · rw [List.mem_singleton.1 ha]
        exact ⟨i, (h.waiting _ hm).1, hgiven⟩
    · by_cases hid : r.1 = id
      · refine .inr (.inl ⟨reason, List.mem_append_right _ ?_⟩)
        rw [hid]
        exact List.mem_singleton.2 rfl
      · refine (h.kept r hr).imp (mem_waiting_resolve hid _).2 (Or.imp_left ?_)
        rintro ⟨reason', ha⟩
        exact ⟨reason', List.mem_append_left _ ha⟩

theorem withdraw (h : Attends l w) (id : Nat) : Attends (l.note (.drop id)) (w.withdraw id) := by
  refine ⟨h.numbered.withdraw id, h.next, fun r hr => ?_, h.answered, fun r hr => ?_⟩
  · obtain ⟨hr, hne⟩ := Waitlist.mem_withdraw.1 hr
    obtain ⟨hwaits, hdropped⟩ := h.waiting r hr
    refine ⟨hwaits, fun hid => ?_⟩
    rcases List.mem_append.1 hid with hid | hid
    · exact hdropped hid
    · exact hne (List.mem_singleton.1 hid)
  · by_cases hid : r.1 = id
    · exact .inr (.inr (List.mem_append_right _ (List.mem_singleton.2 hid)))
    · rcases h.kept r hr with hwaiting | hanswered | hdropped
      · exact .inl (Waitlist.mem_withdraw.2 ⟨hwaiting, hid⟩)
      · exact .inr (.inl hanswered)
      · exact .inr (.inr (List.mem_append_left _ hdropped))

end Attends

/-! ### Sessions -/

namespace Session

/-- A session that has come of the ledger's actions. -/
structure Kept (l : Ledger) (s : Session) : Prop where
  sound : l.Sound
  contexts : Agrees l s.contexts
  waits : Attends l s.waits

theorem act_poll (s : Session) (id : Nat) :
    (s.act (.poll id)).1.contexts = s.contexts ∧
      (((∀ i, (id, i) ∉ s.waits.waiting) ∧ (s.act (.poll id)).1.waits = s.waits) ∨
        ∃ i, (id, i) ∈ s.waits.waiting ∧
          (s.act (.poll id)).1.waits = s.waits.resolve id (s.contexts.get i).reason) := by
  simp only [act]
  rcases Waitlist.poll_cases attempt s.contexts s.waits id with ⟨hnone, hpoll⟩ | ⟨i, hi, hpoll⟩
  · rw [hpoll]
    exact ⟨rfl, .inl ⟨hnone, rfl⟩⟩
  · rw [hpoll]
    exact ⟨rfl, .inr ⟨i, hi, rfl⟩⟩

theorem act_wait (s : Session) (h : s.waits.Numbered) (i : Nat) :
    s.act (.wait i) =
      (⟨s.contexts, (s.waits.enter i).resolve s.waits.next (s.contexts.get i).reason⟩,
        .started s.waits.next (s.contexts.get i).reason) := by
  simp only [act]
  rw [Waitlist.request_eq attempt s.contexts h]
  rfl

namespace Kept

theorem poll (h : Kept l s) (id : Nat) : Kept l (s.act (.poll id)).1 := by
  obtain ⟨hcontexts, ⟨-, hwaits⟩ | ⟨i, hi, hwaits⟩⟩ := s.act_poll id
  · exact ⟨h.sound, hcontexts ▸ h.contexts, hwaits ▸ h.waits⟩
  · have hlt := h.sound.waits _ (h.waits.waiting _ hi).1
    refine ⟨h.sound, hcontexts ▸ h.contexts, ?_⟩
    rw [hwaits, h.contexts.report i hlt]
    exact h.waits.resolve hi

theorem act (h : Kept l s) (hn : l.Names action) : Kept (l.note action) (s.act action).1 := by
  have hsound := h.sound.note hn
  cases action with
  | new => exact ⟨hsound, h.contexts.new h.sound, h.waits.note h.sound rfl rfl⟩
  | clone i => exact ⟨hsound, h.contexts.clone hn, h.waits.note h.sound rfl rfl⟩
  | cancel i reason => exact ⟨hsound, h.contexts.cancel hn reason, h.waits.note h.sound rfl rfl⟩
  | wait i =>
    have hentered := h.waits.enter h.sound i
    have hreport : (s.contexts.get i).reason =
        ((l.note (.wait i)).given ((l.note (.wait i)).root i)).head? := h.contexts.report i hn
    rw [act_wait s h.waits.numbered, hreport]
    refine ⟨hsound, ⟨h.contexts.length, h.contexts.family_lt, h.contexts.kin, h.contexts.report⟩, ?_⟩
    exact hentered.resolve (Waitlist.mem_enter.2 (.inr rfl))
  | poll id => exact h.poll id
  | drop id =>
    exact ⟨hsound, ⟨h.contexts.length, h.contexts.family_lt, h.contexts.kin, h.contexts.report⟩,
      h.waits.withdraw id⟩

theorem run {actions : List Action} (h : Kept l s) (hn : l.NamesAll actions) :
    Kept (l.noteAll actions) (s.run actions) := by
  induction actions generalizing l s with
  | nil => exact h
  | cons action actions ih => exact ih (h.act hn.1) hn.2

theorem start : Kept {} {} :=
  ⟨.start, .start, .start⟩

end Kept

/-! ### Settling -/

/-- To look at a context changes nothing. -/
theorem patient_attempt : Waitlist.Patient attempt where
  again s id what s' h := by
    obtain ⟨rfl, hreason⟩ := Prod.mk.inj h
    exact h
  others s id what s' id' what' h h' := by
    obtain ⟨rfl, hreason⟩ := Prod.mk.inj h
    exact h'

theorem pollAll_eq (s : Session) (ids : List Nat) :
    s.waits.pollAll attempt s.contexts ids =
      ((s.run (ids.map .poll)).contexts, (s.run (ids.map .poll)).waits) := by
  induction ids generalizing s with
  | nil => rfl
  | cons id ids ih => exact ih (s.act (.poll id)).1

/-- Settling comes down to polling. -/
theorem exists_polls (h : s.waits.Numbered) : ∃ ids : List Nat, s.settle = s.run (ids.map .poll) := by
  obtain ⟨ids, c₀, w₀, hpoll, hlast, -⟩ := Waitlist.exists_last_pass h attempt s.contexts
  refine ⟨ids ++ w₀.waiting.map Prod.fst, ?_⟩
  have hall : s.waits.pollAll attempt s.contexts (ids ++ w₀.waiting.map Prod.fst) =
      s.waits.settle attempt s.contexts := by
    rw [Waitlist.pollAll_append, hpoll, hlast]
  rw [pollAll_eq] at hall
  simp only [settle, ← hall]

namespace Kept

theorem polls (h : Kept l s) (ids : List Nat) : Kept l (s.run (ids.map .poll)) := by
  induction ids generalizing s with
  | nil => exact h
  | cons id ids ih => exact ih (h.poll id)

theorem settle (h : Kept l s) : Kept l s.settle := by
  obtain ⟨ids, hids⟩ := exists_polls h.waits.numbered
  exact hids ▸ h.polls ids

/-- Who still waits when all have been polled waits at a family that nobody has cancelled. -/
theorem given_eq_nil (h : Kept l s) (hm : (id, i) ∈ s.settle.waits.waiting) :
    l.given (l.root i) = [] := by
  have hstill : attempt s.settle.contexts id i = (s.settle.contexts, none) :=
    Waitlist.settle_still patient_attempt h.waits.numbered s.contexts hm
  have hsettled := h.settle
  have hlt := hsettled.sound.waits _ (hsettled.waits.waiting _ hm).1
  rw [← List.head?_eq_none_iff, ← hsettled.contexts.report i hlt]
  exact (Prod.mk.inj hstill).2

theorem answered_eq (h : Kept l s) (hi : (id, i) ∈ l.waits)
    (ha : (id, reason) ∈ s.waits.answered) : (l.given (l.root i)).head? = some reason := by
  obtain ⟨j, hj, hgiven⟩ := h.waits.answered _ ha
  rw [h.sound.eq_of_mem hi hj]
  exact hgiven

theorem answered_settle (h : Kept l s) (hm : (id, i) ∈ s.waits.waiting)
    (hgiven : (l.given (l.root i)).head? = some reason) :
    (id, reason) ∈ s.settle.waits.answered := by
  obtain ⟨hwaits, hdropped⟩ := h.waits.waiting _ hm
  rcases h.settle.waits.kept _ hwaits with hstill | ⟨reason', ha⟩ | hgone
  · rw [h.given_eq_nil hstill] at hgiven
    cases hgiven
  · have heq := h.settle.answered_eq hwaits ha
    rw [hgiven] at heq
    cases heq
    exact ha
  · exact absurd hgone hdropped

theorem answered_poll (h : Kept l s) (hm : (id, i) ∈ s.waits.waiting)
    (hgiven : (l.given (l.root i)).head? = some reason) :
    (id, reason) ∈ (s.act (.poll id)).1.waits.answered := by
  obtain ⟨-, ⟨hnone, -⟩ | ⟨j, hj, hwaits⟩⟩ := s.act_poll id
  · exact absurd hm (hnone i)
  · obtain rfl := h.waits.numbered.eq_of_mem hm hj
    have hlt := h.sound.waits _ (h.waits.waiting _ hm).1
    rw [hwaits, h.contexts.report _ hlt, hgiven]
    exact List.mem_append_right _ (List.mem_singleton.2 rfl)

/-- A reason once given to a family is reported for ever by each of its members. -/
theorem report_run {actions : List Action} (h : Kept l s) (hn : l.NamesAll actions)
    (hi : i < l.roots.length) (hreason : (s.contexts.get i).reason = some reason) :
    ((s.run actions).contexts.get i).reason = some reason := by
  induction actions generalizing l s with
  | nil => exact hreason
  | cons action actions ih =>
    have hi' := Nat.lt_of_lt_of_le hi (l.length_roots_note action)
    refine ih (h.act hn.1) hn.2 hi' ?_
    rw [(h.act hn.1).contexts.report i hi', Ledger.root_note hi]
    exact Ledger.head?_given_note ((h.contexts.report i hi).symm.trans hreason) action

end Kept

end Session

end LoadGenerator.Contexts
