import LoadGenerator.Proofs.Tallies
import Mathlib.Algebra.Order.BigOperators.Group.List
import Mathlib.Algebra.Order.Ring.Nat

/-!
# How the work of a run was shared out

`Spread.ofStats` adds up tallies one after the other and checks four sums at every step. A chain of
checked additions is exact unless it breaks off (`WorkerStats.mergeAll_cases`), and it does so if and
only if one of the four exact totals has no room in a count (`WorkerStats.mergeAll_overflows_iff`),
whichever tallies come first. `Spread.Describes` is what a spread says of the tallies that it was
made of; it leaves room for one spread only, and for the same one in every order.
-/

namespace LoadGenerator

/-! ### Checked additions are exact -/

namespace WorkerStats

variable {stats order : List WorkerStats}

/-- The exact sum of an entry over some tallies. -/
def Entry.total (x : Entry) (stats : List WorkerStats) : Nat :=
  (stats.map fun s => (s.get x).toNat).sum

theorem Entry.total_perm (h : order.Perm stats) (x : Entry) : x.total order = x.total stats :=
  (h.map _).sum_eq

/-- Raising breaks off with an overflow, or every entry has been raised by the exact amount. -/
theorem raise_cases (s : WorkerStats) (adds : List (Entry × UInt64)) :
    (s.raise adds).2 = .error .add ∨ (s.raise adds).2 = .ok () ∧ ∀ x,
      ((s.raise adds).1.get x).toNat =
        (s.get x).toNat + (adds.map fun add => if add.1 = x then add.2.toNat else 0).sum := by
  induction adds generalizing s with
  | nil => exact .inr ⟨rfl, fun _ => rfl⟩
  | cons add rest ih =>
    obtain ⟨y, n⟩ := add
    rcases hadd : Count.add (s.get y) n with e | m
    · simp only [raise, hadd, Count.eq_of_add_error hadd, true_or]
    simp only [raise, hadd]
    rcases ih (s.set m y) with hover | ⟨hok, hget⟩
    · exact .inl hover
    refine .inr ⟨hok, fun x => ?_⟩
    rw [hget, get_set, List.map_cons, List.sum_cons]
    by_cases hx : x = y
    · subst hx
      simp only [if_true, Count.toNat_of_add hadd, Nat.add_assoc]
    · have hy : ¬ y = x := fun he => hx he.symm
      simp only [if_neg hx, if_neg hy, Nat.zero_add]

theorem merge_cases (s other : WorkerStats) :
    (s.merge other).2 = .error .add ∨ (s.merge other).2 = .ok () ∧
      ∀ x, ((s.merge other).1.get x).toNat = (s.get x).toNat + (other.get x).toNat := by
  rcases raise_cases s _ with hover | ⟨hok, hget⟩
  · exact .inl hover
  refine .inr ⟨hok, fun x => ?_⟩
  rw [merge, hget]
  congr 1
  cases x <;> simp [get]

theorem mergeAll_cases (s : WorkerStats) (stats : List WorkerStats) :
    s.mergeAll stats = .error .add ∨ ∃ sum, s.mergeAll stats = .ok sum ∧
      ∀ x : Entry, (sum.get x).toNat = (s.get x).toNat + x.total stats := by
  induction stats generalizing s with
  | nil => exact .inr ⟨s, rfl, fun _ => rfl⟩
  | cons other rest ih =>
    have hmerge := merge_cases s other
    rcases hs : s.merge other with ⟨s', result⟩
    rw [hs] at hmerge
    rcases hmerge with rfl | ⟨rfl, hget⟩
    · simp only [mergeAll, hs, true_or]
    simp only [mergeAll, hs]
    rcases ih s' with hover | ⟨sum, hsum, hexact⟩
    · exact .inl hover
    refine .inr ⟨sum, hsum, fun x => ?_⟩
    rw [hexact, hget, Nat.add_assoc]
    rfl

/-- The additions break off if and only if one of the exact totals does not fit, since no sum on the
way exceeds its total. -/
theorem mergeAll_overflows_iff (s : WorkerStats) (stats : List WorkerStats) :
    s.mergeAll stats = .error .add ↔
      ∃ x : Entry, UInt64.size ≤ (s.get x).toNat + x.total stats := by
  constructor
  · intro h
    by_contra hfits
    obtain ⟨sum, hsum, -⟩ := mergeAll_ok s stats fun x => by
      by_contra hx
      exact hfits ⟨x, Nat.le_of_not_lt hx⟩
    rw [h] at hsum
    cases hsum
  · rintro ⟨x, hx⟩
    rcases mergeAll_cases s stats with hover | ⟨sum, -, hexact⟩
    · exact hover
    have hsum := hexact x
    have hfits := (sum.get x).toNat_lt_size
    omega

end WorkerStats

namespace Spread

open WorkerStats (Entry)

variable {spread : Spread} {stats order : List WorkerStats}

/-! ### What a spread says -/

/-- The spread says how the work was shared out among the workers with these tallies. -/
structure Describes (spread : Spread) (stats : List WorkerStats) : Prop where
  totalWorkers : spread.totalWorkers = stats.length
  processed : spread.processed.toNat = Entry.total .processed stats
  transportErrors : spread.transportErrors.toNat = Entry.total .transportErrors stats
  attained : stats ≠ [] → spread.minProcessed ∈ stats.map WorkerStats.processed ∧
    spread.maxProcessed ∈ stats.map WorkerStats.processed
  bounds : ∀ n ∈ stats.map WorkerStats.processed,
    spread.minProcessed ≤ n ∧ n ≤ spread.maxProcessed
  nobody : stats = [] → spread = {}

namespace Describes

/-- Every worker has processed at least the least and at most the greatest number. -/
theorem share (h : spread.Describes stats) :
    spread.totalWorkers * spread.minProcessed.toNat ≤ spread.processed.toNat ∧
      spread.processed.toNat ≤ spread.totalWorkers * spread.maxProcessed.toNat := by
  have hbounds : ∀ n ∈ stats.map fun s => (s.get .processed).toNat,
      spread.minProcessed.toNat ≤ n ∧ n ≤ spread.maxProcessed.toNat := by
    intro n hn
    obtain ⟨s, hs, rfl⟩ := List.mem_map.1 hn
    exact h.bounds s.processed (List.mem_map_of_mem hs)
  have hlength : (stats.map fun s => (s.get .processed).toNat).length = spread.totalWorkers := by
    rw [List.length_map, h.totalWorkers]
  rw [h.processed, ← hlength]
  exact ⟨List.card_nsmul_le_sum _ _ fun n hn => (hbounds n hn).1,
    List.sum_le_card_nsmul _ _ fun n hn => (hbounds n hn).2⟩

/-- Nothing else can be said of the same tallies, in whatever order they come. -/
theorem eq_of_perm {spread' : Spread} (h : spread.Describes stats) (h' : spread'.Describes order)
    (hperm : order.Perm stats) : spread' = spread := by
  rcases List.eq_nil_or_concat stats with rfl | ⟨_, _, hne⟩
  · rw [h.nobody rfl, h'.nobody hperm.eq_nil]
  have hstats : stats ≠ [] := by simp [hne]
  have horder : order ≠ [] := fun he => hstats (he ▸ hperm).nil_eq.symm
  have hmem : ∀ {n}, n ∈ order.map WorkerStats.processed ↔ n ∈ stats.map WorkerStats.processed :=
    (hperm.map _).mem_iff
  obtain ⟨hleast, hmost⟩ := h.attained hstats
  obtain ⟨hleast', hmost'⟩ := h'.attained horder
  obtain ⟨workers, processed, transportErrors, least, most⟩ := spread
  obtain ⟨workers', processed', transportErrors', least', most'⟩ := spread'
  congr 1
  · exact h'.totalWorkers.trans (hperm.length_eq.trans h.totalWorkers.symm)
  · exact UInt64.toNat_inj.1
      (h'.processed.trans ((Entry.total_perm hperm _).trans h.processed.symm))
  · exact UInt64.toNat_inj.1
      (h'.transportErrors.trans ((Entry.total_perm hperm _).trans h.transportErrors.symm))
  · exact UInt64.le_antisymm (h'.bounds _ (hmem.2 hleast)).1 (h.bounds _ (hmem.1 hleast')).1
  · exact UInt64.le_antisymm (h.bounds _ (hmem.1 hmost')).2 (h'.bounds _ (hmem.2 hmost)).2

end Describes

/-! ### When there is one -/

theorem ofStats_cons (s : WorkerStats) (rest : List WorkerStats) :
    ofStats (s :: rest) = (WorkerStats.mergeAll {} (s :: rest)).map fun totals => {
      totalWorkers := (s :: rest).length
      processed := totals.processed
      transportErrors := totals.transportErrors
      minProcessed := (rest.map WorkerStats.processed).foldl min s.processed
      maxProcessed := (rest.map WorkerStats.processed).foldl max s.processed } := by
  unfold ofStats
  simp only [List.map_cons]
  rcases WorkerStats.mergeAll {} (s :: rest) with _ | _ <;> rfl

theorem describes_ofStats (h : ofStats stats = .ok spread) : spread.Describes stats := by
  rcases stats with _ | ⟨s, rest⟩
  · cases h
    exact ⟨rfl, rfl, rfl, fun he => absurd rfl he, fun n hn => (by cases hn), fun _ => rfl⟩
  rw [ofStats_cons] at h
  rcases WorkerStats.mergeAll_cases {} (s :: rest) with hover | ⟨totals, htotals, hexact⟩
  · rw [hover] at h
    cases h
  rw [htotals] at h
  cases h
  simp only [WorkerStats.get_new, Nat.zero_add] at hexact
  have hmin : ((s :: rest).map WorkerStats.processed).min? =
      some ((rest.map WorkerStats.processed).foldl min s.processed) := List.min?_cons'
  have hmax : ((s :: rest).map WorkerStats.processed).max? =
      some ((rest.map WorkerStats.processed).foldl max s.processed) := List.max?_cons'
  obtain ⟨hleast, hall⟩ := List.min?_eq_some_iff.1 hmin
  obtain ⟨hmost, hall'⟩ := List.max?_eq_some_iff.1 hmax
  exact ⟨rfl, hexact .processed, hexact .transportErrors, fun _ => ⟨hleast, hmost⟩,
    fun n hn => ⟨hall n hn, hall' n hn⟩, fun he => by cases he⟩

theorem ofStats_overflows_iff :
    ofStats stats = .error .add ↔ ∃ x : Entry, UInt64.size ≤ x.total stats := by
  rcases stats with _ | ⟨s, rest⟩
  · constructor
    · intro h
      cases h
    · rintro ⟨x, hx⟩
      cases hx
  have hmerge := WorkerStats.mergeAll_overflows_iff {} (s :: rest)
  simp only [WorkerStats.get_new, Nat.zero_add] at hmerge
  rw [← hmerge, ofStats_cons]
  rcases WorkerStats.mergeAll {} (s :: rest) with _ | _ <;> simp [Except.map]

end Spread

/-- The tallies of some workers have a spread unless one of their four totals does not fit, and the
spread is exact. Neither the overflow nor what the spread says depends on the order. -/
theorem Spread.exact_or_overflow (stats : List WorkerStats) :
    (ofStats stats = .error .add ↔ ∃ x : WorkerStats.Entry, UInt64.size ≤ x.total stats) ∧
      ((∀ x : WorkerStats.Entry, x.total stats < UInt64.size) →
        ∃ spread, ofStats stats = .ok spread ∧ spread.Describes stats ∧
          spread.totalWorkers * spread.minProcessed.toNat ≤ spread.processed.toNat ∧
          spread.processed.toNat ≤ spread.totalWorkers * spread.maxProcessed.toNat) ∧
      (∀ order : List WorkerStats, order.Perm stats → ofStats order = ofStats stats) ∧
      ofStats [] = .ok {
        totalWorkers := 0, processed := 0, transportErrors := 0, minProcessed := 0
        maxProcessed := 0 } := by
  refine ⟨ofStats_overflows_iff, fun hfits => ?_, fun order hperm => ?_, rfl⟩
  · obtain ⟨spread, hspread⟩ := ofStats_ok hfits
    have hdescribes := describes_ofStats hspread
    exact ⟨spread, hspread, hdescribes, hdescribes.share⟩
  by_cases hfits : ∀ x : WorkerStats.Entry, x.total stats < UInt64.size
  · have hfits' : ∀ x : WorkerStats.Entry, x.total order < UInt64.size := fun x =>
      (WorkerStats.Entry.total_perm hperm x).trans_lt (hfits x)
    obtain ⟨spread, hspread⟩ := ofStats_ok hfits
    obtain ⟨spread', hspread'⟩ := ofStats_ok hfits'
    rw [hspread, hspread',
      (describes_ofStats hspread).eq_of_perm (describes_ofStats hspread') hperm]
  · simp only [not_forall, Nat.not_lt] at hfits
    obtain ⟨x, hx⟩ := hfits
    rw [ofStats_overflows_iff.2 ⟨x, hx⟩,
      ofStats_overflows_iff.2 ⟨x, (WorkerStats.Entry.total_perm hperm x).symm ▸ hx⟩]

/-- A total that the spread does not even name can be the one that does not fit. -/
theorem Spread.exact_or_overflow_unnamed :
    ofStats [{ httpFailures := 1 }, { processed := 5, httpFailures := 18446744073709551615 }] =
        .error .add ∧
      ofStats [{ processed := 5, httpFailures := 18446744073709551615 }, { httpFailures := 1 }] =
        .error .add ∧
      ∃ spread, ofStats [{ processed := 18446744073709551614 }, { processed := 1 }] = .ok spread ∧
        spread.Describes [{ processed := 18446744073709551614 }, { processed := 1 }] := by
  obtain ⟨hover, -, hperm, -⟩ := exact_or_overflow
    [{ httpFailures := 1 }, { processed := 5, httpFailures := 18446744073709551615 }]
  have hfailure := hover.2 ⟨.httpFailures, by decide⟩
  obtain ⟨-, hfits, -, -⟩ := exact_or_overflow
    [{ processed := 18446744073709551614 }, { processed := 1 }]
  obtain ⟨spread, hspread, hdescribes, -⟩ := hfits fun x => by cases x <;> decide
  exact ⟨hfailure, (hperm _ (List.Perm.swap ..)).trans hfailure, spread, hspread, hdescribes⟩

end LoadGenerator
