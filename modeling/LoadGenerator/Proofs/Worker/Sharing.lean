import LoadGenerator.Proofs.Tallies
import Mathlib.Algebra.BigOperators.Fin
import Mathlib.Data.Fintype.BigOperators

/-!
# Outcomes shared out among workers

The same outcomes are recorded in one counter and, each by the worker that has it, in the tallies of
several workers (`WorkerStats.recordShares`). The tallies are then merged in some order and grouping
(`Merging`). An entry of the merged tally is the sum of the entries of the workers, and this is the
number of outcomes that count for it, however they were shared out. The counter puts failures of
both kinds into one number and the workers keep them apart; `counter_and_workers_agree` says that
nothing overflows and that both come to the same numbers, which depend on the outcomes alone.
-/

namespace LoadGenerator

variable {n : Nat} {outcomes : List Outcome} {shares : List (Fin n × Outcome)}

/-! ### The counter -/

namespace Counter

/-- A counter with room for some more outcomes counts them. -/
theorem recordAll_ok (c : Counter) (h : c.successes.toNat + outcomes.length < UInt64.size ∧
      c.failures.toNat + outcomes.length < UInt64.size ∧
      c.transportErrors.toNat + outcomes.length < UInt64.size) :
    (c.recordAll outcomes).successes.toNat =
        c.successes.toNat + outcomes.countP Outcome.isSuccess ∧
      (c.recordAll outcomes).failures.toNat =
        c.failures.toNat + outcomes.countP (fun o => !o.isSuccess) ∧
      (c.recordAll outcomes).transportErrors.toNat =
        c.transportErrors.toNat + outcomes.countP Outcome.isTransportFailure := by
  induction outcomes generalizing c with
  | nil => exact ⟨rfl, rfl, rfl⟩
  | cons outcome rest ih =>
    obtain ⟨hs, hf, ht⟩ := h
    simp only [List.length_cons] at hs hf ht
    have hroom : c.Roomy := ⟨by omega, by omega, by omega⟩
    have hsuccesses := successes_record hroom outcome
    have hfailures := failures_record hroom outcome
    have htransportErrors := transportErrors_record hroom outcome
    obtain ⟨ihs, ihf, iht⟩ := ih (c.record outcome) (by split_ifs at * <;> omega)
    have hfold : c.recordAll (outcome :: rest) = (c.record outcome).recordAll rest := rfl
    have hnot : (if outcome.isSuccess then 0 else 1) = if !outcome.isSuccess then 1 else 0 := by
      cases outcome <;> rfl
    rw [hnot] at hfailures
    simp only [hfold, ihs, ihf, iht, hsuccesses, hfailures, htransportErrors, List.countP_cons]
    exact ⟨by omega, by omega, by omega⟩

/-- The order in which outcomes are recorded does not matter. -/
theorem recordAll_perm {order : List Outcome} (h : order.Perm outcomes) (c : Counter) :
    c.recordAll order = c.recordAll outcomes := by
  have hcomm : RightCommutative record := ⟨fun c a b => by
    cases a <;> cases b <;> simp [record]⟩
  exact h.foldl_eq c

end Counter

/-! ### The tallies of the workers -/

namespace WorkerStats

/-- Every outcome is recorded by the worker that has it, in this order, as long as nothing
overflows. -/
def recordShares (crew : Fin n → WorkerStats) :
    List (Fin n × Outcome) → Except Overflow (Fin n → WorkerStats)
  | [] => .ok crew
  | (w, outcome) :: rest =>
    match (crew w).record outcome with
    | (s, .ok ()) => recordShares (Function.update crew w s) rest
    | (_, .error e) => .error e

/-- The outcome of a share counts for the entry of the worker. -/
def Entry.countsFor (x : Entry) (w : Fin n) (share : Fin n × Outcome) : Bool :=
  share.1 == w && x.counts share.2

/-- Tallies with room for some more outcomes count them, each those of its worker. -/
theorem recordShares_ok (crew : Fin n → WorkerStats)
    (h : ∀ w x, ((crew w).get x).toNat + shares.length < UInt64.size) :
    ∃ crew', recordShares crew shares = .ok crew' ∧ ∀ w x, ((crew' w).get x).toNat =
      ((crew w).get x).toNat + shares.countP (x.countsFor w) := by
  induction shares generalizing crew with
  | nil => exact ⟨crew, rfl, fun _ _ => rfl⟩
  | cons share rest ih =>
    obtain ⟨v, outcome⟩ := share
    obtain ⟨hok, hget⟩ := record_ok (s := crew v) (fun x => by
      have := h v x
      simp only [List.length_cons] at this
      omega) outcome
    rcases hrecord : (crew v).record outcome with ⟨s, result⟩
    rw [hrecord] at hok hget
    cases hok
    -- the tally of this worker grows by what the outcome counts for, the others stay
    have hstep : ∀ w x, ((Function.update crew v s w).get x).toNat =
        ((crew w).get x).toNat + (if x.countsFor w (v, outcome) then 1 else 0) := by
      intro w x
      by_cases hw : w = v
      · subst hw
        simp only [Function.update_self, hget, Entry.countsFor, beq_self_eq_true, Bool.true_and]
      · have hv : v ≠ w := fun he => hw he.symm
        simp only [Function.update_of_ne hw, Entry.countsFor, beq_eq_false_iff_ne.2 hv,
          Bool.false_and, Bool.false_eq_true, if_false, Nat.add_zero]
    obtain ⟨crew', hrest, hcounts⟩ := ih (Function.update crew v s) fun w x => by
      have := h w x
      rw [hstep]
      simp only [List.length_cons] at this
      split <;> omega
    refine ⟨crew', ?_, fun w x => ?_⟩
    · simp only [recordShares, hrecord, hrest]
    · rw [hcounts, hstep, List.countP_cons]
      omega

/-- An outcome counts for the entry of one of the workers. -/
theorem sum_countsFor (x : Entry) (shares : List (Fin n × Outcome)) :
    ((List.finRange n).map fun w => shares.countP (x.countsFor w)).sum =
      (shares.map Prod.snd).countP x.counts := by
  rw [← Fin.sum_univ_def]
  induction shares with
  | nil => simp
  | cons share rest ih =>
    have hone : ∑ w, (if x.countsFor w share then 1 else 0) = if x.counts share.2 then 1 else 0 := by
      simp only [Entry.countsFor, Bool.and_eq_true, beq_iff_eq, ite_and]
      rw [Finset.sum_ite_eq Finset.univ share.1]
      simp
    simp only [List.countP_cons, List.map_cons, Finset.sum_add_distrib, ih, hone]

end WorkerStats

/-- An order and a grouping in which the tallies of some workers are merged. -/
inductive Merging (n : Nat) where
  | fresh
  | worker (w : Fin n)
  | merge (into other : Merging n)

namespace Merging

def workers : Merging n → List (Fin n)
  | fresh => []
  | worker w => [w]
  | merge into other => into.workers ++ other.workers

/-- The merged tally, if nothing overflows. -/
def total (crew : Fin n → WorkerStats) : Merging n → Except Overflow WorkerStats
  | fresh => .ok {}
  | worker w => .ok (crew w)
  | merge into other => do
    let s ← into.total crew
    let t ← other.total crew
    match s.merge t with
    | (s, .ok ()) => .ok s
    | (_, .error e) => .error e

/-- An entry of the merged tally is the sum of those of the workers, in whatever order. -/
theorem total_ok (crew : Fin n → WorkerStats) (m : Merging n)
    (h : ∀ x, (m.workers.map fun w => ((crew w).get x).toNat).sum < UInt64.size) :
    ∃ s, m.total crew = .ok s ∧
      ∀ x, (s.get x).toNat = (m.workers.map fun w => ((crew w).get x).toNat).sum := by
  induction m with
  | fresh =>
    refine ⟨{}, rfl, fun x => ?_⟩
    cases x <;> rfl
  | worker w => exact ⟨crew w, rfl, fun x => by simp [workers]⟩
  | merge into other ihinto ihother =>
    simp only [workers, List.map_append, List.sum_append] at h ⊢
    obtain ⟨s, hs, hsum⟩ := ihinto fun x => by have := h x; omega
    obtain ⟨t, ht, htsum⟩ := ihother fun x => by have := h x; omega
    obtain ⟨hok, hget⟩ := s.merge_ok t fun x => by
      rw [hsum, htsum]
      exact h x
    rcases hmerge : s.merge t with ⟨u, result⟩
    rw [hmerge] at hok hget
    cases hok
    refine ⟨u, ?_, fun x => by rw [hget, hsum, htsum]⟩
    simp only [total, hs, ht, hmerge, bind, Except.bind]

end Merging

/-! ### Both come to the same -/

namespace Outcome

theorem counts_processed : WorkerStats.Entry.counts .processed = fun _ => true := by
  funext outcome
  rfl

theorem counts_successes : WorkerStats.Entry.counts .successes = isSuccess := by
  funext outcome
  cases outcome <;> rfl

theorem counts_transportErrors :
    WorkerStats.Entry.counts .transportErrors = isTransportFailure := by
  funext outcome
  cases outcome <;> rfl

/-- A failure comes with a status or without. -/
theorem countP_failures (outcomes : List Outcome) :
    outcomes.countP (fun o => !o.isSuccess) =
      outcomes.countP (WorkerStats.Entry.counts .httpFailures) +
        outcomes.countP isTransportFailure := by
  induction outcomes with
  | nil => rfl
  | cons outcome rest ih =>
    have hkind : (if !outcome.isSuccess then 1 else 0) =
        (if WorkerStats.Entry.counts .httpFailures outcome then 1 else 0) +
          (if outcome.isTransportFailure then 1 else 0) := by
      cases outcome <;> rfl
    simp only [List.countP_cons, ih, hkind]
    omega

end Outcome

/-- Whoever records which outcome, and however the tallies are merged, every entry of the merged
tally is the number of outcomes that count for it. -/
theorem WorkerStats.merged_counts (hfits : outcomes.length < UInt64.size)
    (hshares : (shares.map Prod.snd).Perm outcomes) :
    ∃ crew, recordShares (fun _ => {}) shares = .ok crew ∧
      ∀ m : Merging n, m.workers.Perm (List.finRange n) →
        ∃ total, m.total crew = .ok total ∧ ∀ x, (total.get x).toNat = outcomes.countP x.counts := by
  obtain ⟨crew, hcrew, hcounts⟩ := recordShares_ok (fun _ => {}) fun w x => by
    rw [get_new, Nat.zero_add, ← List.length_map Prod.snd, hshares.length_eq]
    exact hfits
  refine ⟨crew, hcrew, fun m hm => ?_⟩
  have hentries : ∀ x : Entry,
      (m.workers.map fun w => ((crew w).get x).toNat).sum = outcomes.countP x.counts := by
    intro x
    rw [(hm.map _).sum_eq]
    simp only [hcounts, get_new, Nat.zero_add]
    rw [sum_countsFor, hshares.countP_eq]
  obtain ⟨total, htotal, hget⟩ := m.total_ok crew fun x => by
    rw [hentries]
    exact Nat.lt_of_le_of_lt List.countP_le_length hfits
  exact ⟨total, htotal, fun x => (hget x).trans (hentries x)⟩

/-- The counter says the same of outcomes in any order, and so does the merged tally of any workers,
whoever of them has recorded which outcome and when; nothing overflows on the way. -/
theorem counter_and_workers_agree (hfits : outcomes.length < UInt64.size) : ∃ s : Snapshot,
    (∀ order : List Outcome, order.Perm outcomes → (Counter.recordAll {} order).snapshot = s) ∧
      s.successes.toNat = outcomes.countP Outcome.isSuccess ∧
      s.failures.toNat = outcomes.countP (fun o => !o.isSuccess) ∧
      s.transportErrors.toNat = outcomes.countP Outcome.isTransportFailure ∧
      ∀ (n : Nat) (shares : List (Fin n × Outcome)), (shares.map Prod.snd).Perm outcomes →
        ∃ crew, WorkerStats.recordShares (fun _ => {}) shares = .ok crew ∧
          ∀ m : Merging n, m.workers.Perm (List.finRange n) → ∃ total, m.total crew = .ok total ∧
            total.successes = s.successes ∧ total.failures = .ok s.failures ∧
            s.httpFailures = .ok total.httpFailures ∧
            total.transportErrors = s.transportErrors ∧ s.processed = .ok total.processed ∧
            total.processed.toNat = outcomes.length := by
  have hroom : (0 : UInt64).toNat + outcomes.length < UInt64.size := by simpa using hfits
  obtain ⟨hsuccesses, hfailures, htransport⟩ := Counter.recordAll_ok {} ⟨hroom, hroom, hroom⟩
  simp only [UInt64.toNat_zero, Nat.zero_add] at hsuccesses hfailures htransport
  refine ⟨(Counter.recordAll {} outcomes).snapshot, fun order horder => ?_, hsuccesses, hfailures,
    htransport, fun n shares hshares => ?_⟩
  · rw [Counter.recordAll_perm horder]
  obtain ⟨crew, hcrew, hmerged⟩ := WorkerStats.merged_counts hfits hshares
  refine ⟨crew, hcrew, fun m hm => ?_⟩
  obtain ⟨total, htotal, hget⟩ := hmerged m hm
  have hp : total.processed.toNat = outcomes.length := by
    have := hget .processed
    rwa [Outcome.counts_processed, List.countP_true] at this
  have hs : total.successes.toNat = outcomes.countP Outcome.isSuccess := by
    rw [← Outcome.counts_successes]
    exact hget .successes
  have ht : total.transportErrors.toNat = outcomes.countP Outcome.isTransportFailure := by
    rw [← Outcome.counts_transportErrors]
    exact hget .transportErrors
  have hh : total.httpFailures.toNat = outcomes.countP (WorkerStats.Entry.counts .httpFailures) :=
    hget .httpFailures
  have hkinds := Outcome.countP_failures outcomes
  have hall : outcomes.countP Outcome.isSuccess + outcomes.countP (fun o => !o.isSuccess) =
      outcomes.length := by
    simpa using (List.length_eq_countP_add_countP (l := outcomes) Outcome.isSuccess).symm
  refine ⟨total, htotal, UInt64.toNat_inj.1 (hs.trans hsuccesses.symm), Count.add_eq_ok ?_,
    Count.sub_eq_ok ?_, UInt64.toNat_inj.1 (ht.trans htransport.symm), Count.add_eq_ok ?_, hp⟩
  · rw [hh, ht, ← hkinds]
    exact hfailures.symm
  · rw [hh]
    exact (congrArg _ htransport).trans (hkinds.symm.trans hfailures.symm)
  · rw [hp]
    exact (congrArg₂ (· + ·) hsuccesses hfailures).trans hall

/-- Two workers share four outcomes, and the tally of the second is merged into a fresh one last. -/
theorem counter_and_workers_agree_four :
    ∃ crew total, WorkerStats.recordShares (n := 2) (fun _ => {}) [(1, .transportFailure),
          (0, .success), (1, .httpFailure 404), (1, .success)] = .ok crew ∧
      (Merging.merge (.merge .fresh (.worker 0)) (.worker 1)).total crew = .ok total ∧
      total.failures = .ok (Counter.recordAll {} [.success, .httpFailure 404, .success,
        .transportFailure]).failures ∧ total.processed.toNat = 4 := by
  have hfits : [Outcome.success, .httpFailure 404, .success, .transportFailure].length <
      UInt64.size := by decide
  obtain ⟨s, hcounter, -, -, -, hworkers⟩ := counter_and_workers_agree hfits
  obtain ⟨crew, hcrew, hmerged⟩ := hworkers 2 [(1, .transportFailure), (0, .success),
    (1, .httpFailure 404), (1, .success)] (by decide)
  obtain ⟨total, htotal, -, hfailures, -, -, -, hprocessed⟩ :=
    hmerged (.merge (.merge .fresh (.worker 0)) (.worker 1)) (by decide)
  refine ⟨crew, total, hcrew, htotal, ?_, hprocessed⟩
  rw [hfailures, ← hcounter _ (List.Perm.refl _)]
  rfl

end LoadGenerator
