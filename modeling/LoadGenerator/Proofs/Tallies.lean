import LoadGenerator.Counter
import LoadGenerator.Proofs.Count
import LoadGenerator.WorkerStats
import Mathlib.Algebra.Ring.Nat

/-!
# Tallies that fit

Counts are words of 64 bits, so what a tally says is a number only as long as nothing overflows.
Here is what the operations on tallies do to the numbers while everything fits: `Counter.record` and
`WorkerStats.record` raise the entries that an outcome belongs to, `WorkerStats.mergeAll` adds entry
by entry, and `Spread.ofStats` has a result.
-/

namespace LoadGenerator

namespace Outcome

def isTransportFailure : Outcome → Bool
  | .transportFailure => true
  | _ => false

end Outcome

namespace Counter

/-- One more outcome fits. -/
structure Roomy (c : Counter) : Prop where
  successes : c.successes.toNat + 1 < UInt64.size
  failures : c.failures.toNat + 1 < UInt64.size
  transportErrors : c.transportErrors.toNat + 1 < UInt64.size

variable {c : Counter}

theorem successes_record (h : c.Roomy) (outcome : Outcome) : (c.record outcome).successes.toNat =
    c.successes.toNat + (if outcome.isSuccess then 1 else 0) := by
  cases outcome with
  | success => exact Count.toNat_succ h.successes
  | httpFailure | transportFailure => rfl

theorem failures_record (h : c.Roomy) (outcome : Outcome) : (c.record outcome).failures.toNat =
    c.failures.toNat + (if outcome.isSuccess then 0 else 1) := by
  cases outcome with
  | success => rfl
  | httpFailure | transportFailure => exact Count.toNat_succ h.failures

theorem transportErrors_record (h : c.Roomy) (outcome : Outcome) :
    (c.record outcome).transportErrors.toNat =
      c.transportErrors.toNat + (if outcome.isTransportFailure then 1 else 0) := by
  cases outcome with
  | success | httpFailure => rfl
  | transportFailure => exact Count.toNat_succ h.transportErrors

end Counter

namespace WorkerStats

variable {s : WorkerStats}

def Entry.counts (x : Entry) (outcome : Outcome) : Bool :=
  x == .processed || x == .ofOutcome outcome

theorem get_new (x : Entry) : (get {} x).toNat = 0 := by
  cases x <;> rfl

theorem get_set (s : WorkerStats) (n : UInt64) (x y : Entry) :
    (s.set n x).get y = if y = x then n else s.get y := by
  cases x <;> cases y <;> rfl

theorem get_start (s : WorkerStats) (now : Nat) (x : Entry) : (s.start now).get x = s.get x := by
  cases x <;> rfl

theorem get_stop (s : WorkerStats) (now : Nat) (x : Entry) : (s.stop now).get x = s.get x := by
  cases x <;> rfl

/-- Where every sum fits, different entries are raised independently. -/
theorem raise_ok (s : WorkerStats) (adds : List (Entry × UInt64))
    (hnodup : (adds.map Prod.fst).Nodup)
    (h : ∀ x n, (x, n) ∈ adds → (s.get x).toNat + n.toNat < UInt64.size) :
    (s.raise adds).2 = .ok () ∧ ∀ x, ((s.raise adds).1.get x).toNat =
      (s.get x).toNat + ((adds.lookup x).map UInt64.toNat).getD 0 := by
  induction adds generalizing s with
  | nil => exact ⟨rfl, fun _ => rfl⟩
  | cons add rest ih =>
    obtain ⟨x, n⟩ := add
    obtain ⟨hx, hrest⟩ := List.nodup_cons.1 hnodup
    obtain ⟨hadd, htotal⟩ := Count.add_ok (h x n List.mem_cons_self)
    have hraise : s.raise ((x, n) :: rest) = (s.set (s.get x + n) x).raise rest := by
      rw [raise, hadd]
    have hother : ∀ y m, (y, m) ∈ rest → y ≠ x := by
      intro y m hmem hy
      subst hy
      exact hx (List.mem_map.2 ⟨_, hmem, rfl⟩)
    obtain ⟨hok, hget⟩ := ih (s.set (s.get x + n) x) hrest fun y m hmem => by
      rw [get_set, if_neg (hother y m hmem)]
      exact h y m (List.mem_cons_of_mem _ hmem)
    rw [hraise]
    refine ⟨hok, fun y => ?_⟩
    rw [hget, get_set]
    by_cases hy : y = x
    · subst hy
      have hnone : rest.lookup y = none := by
        rw [List.lookup_eq_none_iff]
        intro p hp
        exact bne_iff_ne.2 fun he => hother p.1 p.2 hp he.symm
      rw [if_pos rfl, htotal, hnone, List.lookup_cons_self]
      rfl
    · rw [if_neg hy, List.lookup_cons, beq_eq_false_iff_ne.2 hy]

theorem record_ok (h : ∀ x, (s.get x).toNat + 1 < UInt64.size) (outcome : Outcome) :
    (s.record outcome).2 = .ok () ∧ ∀ x, ((s.record outcome).1.get x).toNat =
      (s.get x).toNat + (if x.counts outcome then 1 else 0) := by
  have hne : Entry.processed ≠ .ofOutcome outcome := by cases outcome <;> simp [Entry.ofOutcome]
  obtain ⟨hok, hget⟩ := raise_ok s [(.processed, 1), (.ofOutcome outcome, 1)]
    (by simp [hne]) fun x n hmem => by
      have hn : n = 1 := by
        rcases List.mem_cons.1 hmem with hmem | hmem
        · cases hmem
          rfl
        · cases List.mem_singleton.1 hmem
          rfl
      rw [hn]
      exact h x
  refine ⟨hok, fun x => ?_⟩
  rw [record, hget]
  congr 1
  cases x <;> cases outcome <;> rfl

theorem merge_ok (s other : WorkerStats)
    (h : ∀ x, (s.get x).toNat + (other.get x).toNat < UInt64.size) :
    (s.merge other).2 = .ok () ∧
      ∀ x, ((s.merge other).1.get x).toNat = (s.get x).toNat + (other.get x).toNat := by
  obtain ⟨hok, hget⟩ := raise_ok s [(.processed, other.processed),
    (.successes, other.successes), (.httpFailures, other.httpFailures),
    (.transportErrors, other.transportErrors)] (by simp) fun x n hmem => by
      have hn : n = other.get x := by
        simp only [List.mem_cons, Prod.mk.injEq, List.not_mem_nil, or_false] at hmem
        rcases hmem with ⟨rfl, rfl⟩ | ⟨rfl, rfl⟩ | ⟨rfl, rfl⟩ | ⟨rfl, rfl⟩ <;> rfl
      rw [hn]
      exact h x
  refine ⟨hok, fun x => ?_⟩
  rw [merge, hget]
  congr 1
  cases x <;> rfl

theorem mergeAll_ok (s : WorkerStats) (stats : List WorkerStats)
    (h : ∀ x, (s.get x).toNat + (stats.map fun other => (other.get x).toNat).sum < UInt64.size) :
    ∃ total, s.mergeAll stats = .ok total ∧ ∀ x, (total.get x).toNat =
      (s.get x).toNat + (stats.map fun other => (other.get x).toNat).sum := by
  induction stats generalizing s with
  | nil => exact ⟨s, rfl, fun _ => rfl⟩
  | cons other rest ih =>
    simp only [List.map_cons, List.sum_cons] at h ⊢
    obtain ⟨hok, hget⟩ := merge_ok s other fun x => by
      have := h x
      omega
    obtain ⟨total, htotal, hsum⟩ := ih (s.merge other).1 fun x => by
      have := h x
      rw [hget]
      omega
    refine ⟨total, ?_, fun x => ?_⟩
    · rw [mergeAll]
      rcases hm : s.merge other with ⟨s', _⟩
      rw [hm] at hok htotal
      cases hok
      exact htotal
    · rw [hsum, hget]
      omega

end WorkerStats

/-- If each of the four sums fits, the work of some workers can be added up. -/
theorem Spread.ofStats_ok {stats : List WorkerStats}
    (h : ∀ x : WorkerStats.Entry, (stats.map fun s => (s.get x).toNat).sum < UInt64.size) :
    ∃ spread, Spread.ofStats stats = .ok spread := by
  obtain ⟨total, htotal, -⟩ := WorkerStats.mergeAll_ok {} stats fun x => by
    rw [WorkerStats.get_new, Nat.zero_add]
    exact h x
  unfold Spread.ofStats
  split
  · exact ⟨_, rfl⟩
  · rw [htotal]
    exact ⟨_, rfl⟩

end LoadGenerator
