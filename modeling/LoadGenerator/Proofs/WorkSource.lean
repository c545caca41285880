import LoadGenerator.Proofs.Count
import LoadGenerator.WorkSource
import Mathlib.Data.List.Induction

/-!
# A source hands out exactly its total

Everything that can be done with a source is a loop over `next`. `Draws` says which items calls of
`next` hand out, and `Yields` that these are all there are; `Use.answer` and `Use.consumes` say
without a loop what a use answers and how many items it takes (`use_eq`, `draws_use`).

A source can be copied, and it and its copies can be used in any order (`run`). How many items each
copy has consumed follows from the actions and the total (`consumedBy`), and every copy is what the
source becomes when `next` hands out that many (`run_eq`), so that nothing is handed out twice or
left out (`Accounts`).
-/

namespace LoadGenerator.WorkSource

variable {s t : WorkSource} {items : List WorkItem}

/-! ### What calls of `next` hand out -/

/-- Calls of `next` hand out these items, one each, and leave the source as it is then. -/
inductive Draws : WorkSource → List WorkItem → WorkSource → Prop
  | nil {s : WorkSource} : Draws s [] s
  | cons {s t u : WorkSource} {item : WorkItem} {items : List WorkItem}
      (hnext : s.next = (some item, t)) (hrest : Draws t items u) : Draws s (item :: items) u

/-- Calls of `next` hand out these items and then no more. -/
def Yields (s : WorkSource) (items : List WorkItem) : Prop :=
  ∃ t, s.Draws items t ∧ t.next = (none, t)

theorem draws_replicate (target : Target) (n left : Nat) :
    Draws ⟨target, n + left⟩ (List.replicate n ⟨target⟩) ⟨target, left⟩ := by
  induction n with
  | zero =>
    rw [Nat.zero_add]
    exact .nil
  | succ n ih =>
    rw [Nat.succ_add]
    exact .cons rfl ih

theorem Draws.eq (h : s.Draws items t) :
    ∃ n, s = ⟨t.target, n + t.remaining⟩ ∧ items = List.replicate n ⟨t.target⟩ := by
  induction h with
  | nil => exact ⟨0, by rw [Nat.zero_add], rfl⟩
  | @cons s _ _ _ _ hnext _ ih =>
    obtain ⟨n, rfl, rfl⟩ := ih
    obtain ⟨target, _ | left⟩ := s
    · cases hnext
    · cases hnext
      exact ⟨n + 1, by rw [Nat.succ_add], rfl⟩

theorem yields_iff : s.Yields items ↔ items = List.replicate s.remaining ⟨s.target⟩ := by
  constructor
  · rintro ⟨t, hdraws, hend⟩
    obtain ⟨n, rfl, rfl⟩ := hdraws.eq
    obtain ⟨target, _ | left⟩ := t
    · rfl
    · cases hend
  · rintro rfl
    exact ⟨⟨s.target, 0⟩, draws_replicate s.target s.remaining 0, rfl⟩

/-! ### The loops over `next` -/

theorem nth_eq (target : Target) (left k : Nat) : nth k ⟨target, left⟩ =
    (if k < left then some ⟨target⟩ else none, ⟨target, left - (k + 1)⟩) := by
  induction k generalizing left with
  | zero => cases left <;> rfl
  | succ k ih =>
    cases left with
    | zero => simp [nth, next]
    | succ left => simp only [nth, next, ih, Nat.add_lt_add_iff_right, Nat.add_sub_add_right]

theorem take_eq (target : Target) (left k : Nat) : take k ⟨target, left⟩ =
    (List.replicate (min left k) ⟨target⟩, ⟨target, left - k⟩) := by
  induction k generalizing left with
  | zero => simp [take]
  | succ k ih =>
    cases left with
    | zero => simp [take, next]
    | succ left =>
      simp only [take, next, ih, Nat.add_min_add_right, List.replicate_succ, Nat.add_sub_add_right]

theorem toList_eq (s : WorkSource) : s.toList = List.replicate s.remaining ⟨s.target⟩ := by
  rw [toList, take_eq, Nat.min_self]

/-! ### Uses -/

/-- What can be done with a source. `count` and `last` use up a copy that is made for them. -/
inductive Use where
  | next
  | nth (k : Nat)
  | take (k : Nat)
  | sizeHint
  | len
  | count
  | last
  deriving DecidableEq, Repr

inductive Answer where
  | item (item : Option WorkItem)
  | items (items : List WorkItem)
  | bounds (least greatest : Nat)
  | length (n : Option Nat)
  | number (n : Nat)
  deriving DecidableEq, Repr

def use (s : WorkSource) : Use → Answer × WorkSource
  | .next => (.item s.next.1, s.next.2)
  | .nth k => (.item (s.nth k).1, (s.nth k).2)
  | .take k => (.items (s.take k).1, (s.take k).2)
  | .sizeHint => (.bounds s.sizeHint.1 s.sizeHint.2, s)
  | .len => (.length s.len?, s)
  | .count => (.number s.count, s)
  | .last => (.item s.last, s)

namespace Use

/-- The answer of a source that has so many items left. -/
def answer (item : WorkItem) (left : Nat) : Use → Answer
  | .next => .item (if 0 < left then some item else none)
  | .nth k => .item (if k < left then some item else none)
  | .take k => .items (List.replicate (min left k) item)
  | .sizeHint => .bounds left left
  | .len => .length (some left)
  | .count => .number left
  | .last => .item (if 0 < left then some item else none)

/-- The answer of a source that has nothing left. -/
def nothing : Use → Answer
  | .next | .nth _ | .last => .item none
  | .take _ => .items []
  | .sizeHint => .bounds 0 0
  | .len => .length (some 0)
  | .count => .number 0

/-- How many of the items that are left a use takes. -/
def consumes (left : Nat) : Use → Nat
  | .next => min left 1
  | .nth k => min left (k + 1)
  | .take k => min left k
  | .sizeHint | .len | .count | .last => 0

theorem consumes_le (left : Nat) (how : Use) : how.consumes left ≤ left := by
  cases how with
  | next | nth | take => exact Nat.min_le_left ..
  | sizeHint | len | count | last => exact Nat.zero_le _

theorem answer_zero (item : WorkItem) (how : Use) : how.answer item 0 = how.nothing := by
  cases how <;> simp [answer, nothing]

end Use

theorem use_eq (s : WorkSource) (how : Use) : s.use how =
    (how.answer ⟨s.target⟩ s.remaining, ⟨s.target, s.remaining - how.consumes s.remaining⟩) := by
  obtain ⟨target, left⟩ := s
  cases how with
  | next => cases left <;> simp [use, next, Use.answer, Use.consumes]
  | nth k =>
    simp only [use, nth_eq, Use.answer, Use.consumes]
    congr 2
    omega
  | take k =>
    simp only [use, take_eq, Use.answer, Use.consumes]
    congr 2
    omega
  | sizeHint | len => simp [use, sizeHint, len?, Use.answer, Use.consumes]
  | count => simp [use, count, toList_eq, Use.answer, Use.consumes]
  | last =>
    cases left <;>
      simp [use, last, toList_eq, Use.answer, Use.consumes, List.getLast?_replicate]

/-- What a use takes is what as many calls of `next` hand out. -/
theorem draws_use (s : WorkSource) (how : Use) :
    s.Draws (List.replicate (how.consumes s.remaining) ⟨s.target⟩) (s.use how).2 := by
  rw [use_eq]
  have h := draws_replicate s.target (how.consumes s.remaining)
    (s.remaining - how.consumes s.remaining)
  rwa [Nat.add_sub_of_le (how.consumes_le _)] at h

theorem use_of_exhausted (h : s.remaining = 0) (how : Use) : s.use how = (how.nothing, s) := by
  rw [use_eq, h, Use.answer_zero, Nat.zero_sub, ← h]

/-- `next` of a source that has the number of items left in a count, with a checked step down. -/
def nextCounted (target : Target) (left : UInt64) : Except Overflow (Option WorkItem × UInt64) :=
  if left = 0 then .ok (none, left)
  else (Count.sub left 1).map fun rest => (some ⟨target⟩, rest)

theorem nextCounted_eq (target : Target) (left : UInt64) :
    ∃ rest : UInt64, nextCounted target left = .ok ((next ⟨target, left.toNat⟩).1, rest) ∧
      (next ⟨target, left.toNat⟩).2 = ⟨target, rest.toNat⟩ := by
  by_cases h : left = 0
  · subst h
    exact ⟨0, rfl, rfl⟩
  have hpos : left.toNat ≠ 0 := fun he => h (UInt64.toNat_inj.1 he)
  obtain ⟨n, hn⟩ := Nat.exists_eq_succ_of_ne_zero hpos
  have hrest : (UInt64.ofNat n).toNat = n :=
    UInt64.toNat_ofNat_of_lt' (Nat.lt_of_succ_lt (hn ▸ left.toNat_lt_size))
  refine ⟨UInt64.ofNat n, ?_, ?_⟩
  · rw [nextCounted, if_neg h, Count.sub_eq_ok (c := UInt64.ofNat n) (by rw [hrest, hn]; rfl), hn]
    rfl
  · rw [hn, hrest]
    rfl

/-! ### Copies -/

/-- Copies are numbered in the order in which they are made, the source itself is the first. -/
inductive Action where
  | use (copy : Nat) (how : Use)
  | clone (copy : Nat)
  deriving DecidableEq, Repr

namespace Action

variable {α β : Type} {step : Use → α → α} {step' : Use → β → β} {f : α → β} {P : α → Prop}
  {copies : List α} {a : α} {i : Nat} {action : Action}

/-- What becomes of the copies, or of anything that is known of each of them. -/
def perform (step : Use → α → α) (copies : List α) : Action → List α
  | .use i how => copies.modify i (step how)
  | .clone i => copies ++ copies[i]?.toList

/-- The copy that the action may take items from. -/
def used? : Action → Option Nat
  | .use i _ => some i
  | .clone _ => none

theorem perform_all (hstep : ∀ how a, P a → P (step how a)) (h : ∀ a ∈ copies, P a) :
    ∀ a ∈ perform step copies action, P a := by
  intro b hb
  cases action with
  | use i how =>
    obtain ⟨j, hj⟩ := List.mem_iff_getElem?.1 hb
    rw [perform, List.getElem?_modify] at hj
    obtain ⟨a, ha, rfl⟩ := Option.map_eq_some_iff.1 hj
    split
    · exact hstep how a (h a (List.mem_of_getElem? ha))
    · exact h a (List.mem_of_getElem? ha)
  | clone i =>
    rcases List.mem_append.1 hb with hb | hb
    · exact h b hb
    · exact h b (List.mem_of_getElem? (Option.mem_toList.1 hb))

theorem map_perform (hstep : ∀ how a, P a → f (step how a) = step' how (f a))
    (h : ∀ a ∈ copies, P a) :
    (perform step copies action).map f = perform step' (copies.map f) action := by
  cases action with
  | use i how =>
    refine List.ext_getElem? fun j => ?_
    simp only [perform, List.getElem?_map, List.getElem?_modify]
    rcases hj : copies[j]? with _ | a
    · rfl
    · have ha := hstep how a (h a (List.mem_of_getElem? hj))
      by_cases hi : i = j <;> simp [hi, ha]
  | clone i =>
    simp only [perform, List.map_append, List.getElem?_map]
    cases copies[i]? <;> rfl

/-- A copy stays as it is as long as it is not used, or where no use changes it. -/
theorem getElem?_perform (hi : copies[i]? = some a)
    (h : (∀ how, step how a = a) ∨ action.used? ≠ some i) :
    (perform step copies action)[i]? = some a := by
  cases action with
  | use j how =>
    rw [perform, List.getElem?_modify, hi]
    by_cases hj : j = i
    · subst hj
      rcases h with h | h
      · simp [h how]
      · exact absurd rfl h
    · simp [hj]
  | clone j =>
    obtain ⟨hlt, -⟩ := List.getElem?_eq_some_iff.1 hi
    rw [perform, List.getElem?_append_left hlt, hi]

end Action

def run (copies : List WorkSource) (actions : List Action) : List WorkSource :=
  actions.foldl (Action.perform fun how s => (s.use how).2) copies

theorem run_append (copies : List WorkSource) (actions more : List Action) :
    run copies (actions ++ more) = run (run copies actions) more :=
  List.foldl_append

theorem run_clone {copies : List WorkSource} {i : Nat} (hi : copies[i]? = some s) :
    run copies [.clone i] = copies ++ [s] := by
  simp only [run, List.foldl_cons, List.foldl_nil, Action.perform, hi, Option.toList_some]

/-- How many items each copy has consumed, those before it was made included. -/
def consumedBy (total : Nat) (actions : List Action) : List Nat :=
  actions.foldl (Action.perform fun how n => n + how.consumes (total - n)) [0]

/-- The copies are what is left of the total when their items have been consumed. -/
theorem run_eq (target : Target) (total : UInt64) (actions : List Action) :
    run [new target total] actions =
        (consumedBy total.toNat actions).map (fun n => ⟨target, total.toNat - n⟩) ∧
      ∀ n ∈ consumedBy total.toNat actions, n ≤ total.toNat := by
  induction actions using List.reverseRecOn with
  | nil => exact ⟨rfl, fun n hn => by simp_all [consumedBy]⟩
  | append_singleton actions action ih =>
    obtain ⟨hrun, hle⟩ := ih
    simp only [run, consumedBy, List.foldl_append, List.foldl_cons, List.foldl_nil] at hrun hle ⊢
    refine ⟨?_, Action.perform_all (fun how n hn => ?_) hle⟩
    · rw [hrun, Action.map_perform (fun how n hn => ?_) hle]
      rw [use_eq, Nat.sub_add_eq]
    · have := how.consumes_le (total.toNat - n)
      omega

theorem getElem?_run {copies : List WorkSource} {actions : List Action} {i : Nat}
    (hi : copies[i]? = some s) (h : s.remaining = 0 ∨ ∀ action ∈ actions, action.used? ≠ some i) :
    (run copies actions)[i]? = some s := by
  induction actions generalizing copies with
  | nil => exact hi
  | cons action rest ih =>
    refine ih (Action.getElem?_perform hi ?_) ?_
    · exact h.imp (fun h how => by rw [use_of_exhausted h]) fun h => h action List.mem_cons_self
    · exact h.imp_right fun h action ha => h action (List.mem_cons_of_mem _ ha)

/-- What there is to know of a copy that has consumed so many of the items of a total. -/
structure Accounts (target : Target) (total consumed : Nat) (s : WorkSource) : Prop where
  target_eq : s.target = target
  balance : consumed + s.remaining = total
  /-- what has been consumed is what `next` has handed out -/
  drawn : Draws ⟨target, total⟩ (List.replicate consumed ⟨target⟩) s
  /-- what is left is what it still hands out -/
  yields : ∀ items, s.Yields items ↔ items = List.replicate s.remaining ⟨target⟩
  hint : s.sizeHint = (s.remaining, s.remaining)
  len : s.len? = some s.remaining
  answer : ∀ how, (s.use how).1 = how.answer ⟨target⟩ s.remaining
  consumes : ∀ how, s.Draws (List.replicate (how.consumes s.remaining) ⟨target⟩) (s.use how).2
  exhausted : s.remaining = 0 → ∀ how, s.use how = (how.nothing, s)
  /-- no call of `next` steps below zero, inside a loop or outside -/
  counted : ∀ items t, s.Draws items t → ∃ left rest : UInt64, t = ⟨target, left.toNat⟩ ∧
    nextCounted target left = .ok (t.next.1, rest) ∧ t.next.2 = ⟨target, rest.toNat⟩

theorem accounts_of_le {target : Target} {total : UInt64} {consumed : Nat}
    (h : consumed ≤ total.toNat) :
    Accounts target total.toNat consumed ⟨target, total.toNat - consumed⟩ := by
  refine ⟨rfl, Nat.add_sub_of_le h, ?_, fun _ => yields_iff, rfl, by simp [len?, sizeHint],
    fun how => by rw [use_eq], draws_use _, use_of_exhausted, fun items t hdraws => ?_⟩
  · have hdraws := draws_replicate target consumed (total.toNat - consumed)
    rwa [Nat.add_sub_of_le h] at hdraws
  · obtain ⟨n, hs, -⟩ := hdraws.eq
    obtain ⟨target', left⟩ := t
    obtain ⟨rfl, hleft⟩ := WorkSource.mk.inj hs
    dsimp only at hleft
    have hfits : left < UInt64.size := by
      have := total.toNat_lt_size
      omega
    have hcount : (UInt64.ofNat left).toNat = left := UInt64.toNat_ofNat_of_lt' hfits
    obtain ⟨rest, hnext, hrest⟩ := nextCounted_eq target (UInt64.ofNat left)
    rw [hcount] at hnext hrest
    exact ⟨UInt64.ofNat left, rest, by rw [hcount], hnext, hrest⟩

/-- Whatever is done with a source and its copies, every copy hands out the rest of the total after
what it has consumed, no more and no less. It is left alone by what is done with the others, and by
everything once it has nothing left; a copy of it starts where it stands. -/
theorem hands_out_total (target : Target) (total : UInt64) (actions : List Action) :
    (run [new target total] actions).length = (consumedBy total.toNat actions).length ∧
      ∀ i s, (run [new target total] actions)[i]? = some s →
        (∃ consumed, (consumedBy total.toNat actions)[i]? = some consumed ∧
          s.Accounts target total.toNat consumed) ∧
        (∀ more, (s.remaining = 0 ∨ ∀ action ∈ more, action.used? ≠ some i) →
          (run [new target total] (actions ++ more))[i]? = some s) ∧
        (run [new target total] (actions ++ [.clone i]))[
          (run [new target total] actions).length]? = some s := by
  obtain ⟨hrun, hle⟩ := run_eq target total actions
  refine ⟨by rw [hrun, List.length_map], fun i s hs => ⟨?_, fun more hmore => ?_, ?_⟩⟩
  · rw [hrun, List.getElem?_map] at hs
    obtain ⟨consumed, hi, rfl⟩ := Option.map_eq_some_iff.1 hs
    exact ⟨consumed, hi, accounts_of_le (hle consumed (List.mem_of_getElem? hi))⟩
  · rw [run_append]
    exact getElem?_run hs hmore
  · rw [run_append, run_clone hs, List.getElem?_concat_length]

/-- Three items: one copy is passed over two of them, and a copy of that one takes the rest. -/
theorem hands_out_total_exhausted :
    consumedBy 3 [.use 0 (.nth 1), .clone 0, .use 1 (.take 5)] = [2, 3] ∧
      ∃ s, (run [new ⟨"localhost", 80⟩ 3] [.use 0 (.nth 1), .clone 0, .use 1 (.take 5)])[1]? =
          some s ∧
        s.Accounts ⟨"localhost", 80⟩ 3 3 ∧ s.Yields [] ∧ s.use (.nth 0) = (.item none, s) ∧
        (run [new ⟨"localhost", 80⟩ 3] ([.use 0 (.nth 1), .clone 0, .use 1 (.take 5)] ++
          [.use 1 .next, .use 0 .next]))[1]? = some s := by
  have hleft : (run [new ⟨"localhost", 80⟩ 3]
      [.use 0 (.nth 1), .clone 0, .use 1 (.take 5)])[1]? = some ⟨⟨"localhost", 80⟩, 0⟩ := rfl
  obtain ⟨-, hcopies⟩ := hands_out_total ⟨"localhost", 80⟩ 3
    [.use 0 (.nth 1), .clone 0, .use 1 (.take 5)]
  obtain ⟨⟨consumed, hconsumed, haccounts⟩, hmore, -⟩ := hcopies 1 _ hleft
  cases hconsumed
  exact ⟨rfl, _, hleft, haccounts, (haccounts.yields []).2 rfl, haccounts.exhausted rfl _,
    hmore _ (.inl rfl)⟩

end LoadGenerator.WorkSource
