import LoadGenerator.Proofs.Pool.Deeds

/-!
# Shutting a pool down

A shutdown that is done has collected the tallies of the workers that did not panic, after all of
them have ended (`Collected`). If none panicked, the tallies agree with the shared counter and with
what the queue has accepted (`Balanced`). If moreover nobody has cancelled, and no put waited when
the queue was closed, every item accepted has been sent once and none is left (`WorkedOff`).
-/

namespace LoadGenerator

namespace Bench

variable {b : Bench} {members : List TaskId} {size : Nat} {stats : List WorkerStats}

/-- No worker has panicked: its transport has not broken down under it, and it has not lost count of
more answers than a tally can hold. -/
structure Unharmed (b : Bench) : Prop where
  transport : ∀ w ∈ b.workers, w.phase ≠ .ended .panicked
  tally : b.accepted.length < UInt64.size ∨ ∀ w ∈ b.workers, ¬ w.stats.IsFull

/-- The tallies of the workers agree with the shared counter, which wraps around, and with what the
queue has accepted; if this fits into a count, then so do the sums. -/
structure Balanced (b : Bench) (stats : List WorkerStats) : Prop where
  successes : UInt64.ofNat (stats.map fun s => s.successes.toNat).sum = b.engine.counter.successes
  failures : UInt64.ofNat
    (stats.map fun s => s.httpFailures.toNat + s.transportErrors.toNat).sum =
      b.engine.counter.failures
  transportErrors :
    UInt64.ofNat (stats.map fun s => s.transportErrors.toNat).sum = b.engine.counter.transportErrors
  processed :
    (stats.map fun s => s.processed.toNat).sum = b.accepted.length - b.engine.queue.outstanding
  outstanding : b.engine.queue.outstanding ≤ b.accepted.length
  merged : b.accepted.length < UInt64.size → ∃ total, WorkerStats.mergeAll {} stats = .ok total ∧
    total.successes = b.engine.counter.successes ∧
    total.failures = .ok b.engine.counter.failures ∧
    total.transportErrors = b.engine.counter.transportErrors ∧
    total.processed.toNat = b.accepted.length - b.engine.queue.outstanding

theorem Pooled.ended (h : Pooled members b) {w : Worker} (hw : w ∈ b.workers)
    (hended : w.hasEnded = true) : w.phase = .ended .finished ∨ w.phase = .ended .panicked := by
  unfold Worker.hasEnded at hended
  split at hended
  · rename_i how hphase
    rcases h.inv.staff.ends w hw how hphase with rfl | rfl
    · exact .inl hphase
    · exact .inr hphase
  · cases hended

theorem Unharmed.isLost (h : b.Unharmed) : ∀ w ∈ b.workers, w.isLost = false :=
  fun w hw => beq_eq_false_iff_ne.2 (h.transport w hw)

/-- What the tallies of the workers sum up to. -/
theorem Pooled.sum_eq (h : Pooled members b) (hunharmed : b.Unharmed) (x : WorkerStats.Entry) :
    ((b.workers.map Worker.stats).map fun s => (s.get x).toNat).sum =
      b.engine.log.countSince {} x.sees := by
  have houtstanding := h.inv.holdings.outstanding
  rcases h.inv.books.shares with ⟨hmany, w, hw, hfull⟩ | hsum
  · rcases hunharmed.tally with hfew | hroom
    · have : b.engine.log.countSince {} CallState.isAnswered ≤ b.accepted.length := by
        unfold Bench.accepted
        omega
      omega
    · exact absurd hfull (hroom w hw)
  · rw [← hsum x, sumWorkers_eq, List.map_map]
    rfl

/-- If what the queue has accepted fits into a count, the tallies can be added up. -/
theorem Pooled.merged (h : Pooled members b) (hunharmed : b.Unharmed)
    (hfew : b.accepted.length < UInt64.size) : ∃ total,
      WorkerStats.mergeAll {} (b.workers.map Worker.stats) = .ok total ∧
      ∀ x, (total.get x).toNat = b.engine.log.countSince {} x.sees := by
  have houtstanding : b.engine.queue.outstanding +
      b.engine.log.countSince {} CallState.isAnswered = b.accepted.length :=
    h.inv.holdings.outstanding
  have hsees : ∀ x : WorkerStats.Entry, b.engine.log.countSince {} x.sees ≤
      b.engine.log.countSince {} CallState.isAnswered := by
    intro x
    have hanswered := CallLog.countSince_isAnswered b.engine.log {}
    have hfailure := CallLog.countSince_isFailure b.engine.log {}
    cases x <;> simp only [WorkerStats.Entry.sees] <;> omega
  obtain ⟨total, htotal, hget⟩ := WorkerStats.mergeAll_ok {} (b.workers.map Worker.stats) fun x => by
    have := hsees x
    rw [WorkerStats.get_new, h.sum_eq hunharmed x]
    omega
  refine ⟨total, htotal, fun x => ?_⟩
  rw [hget, WorkerStats.get_new, h.sum_eq hunharmed x, Nat.zero_add]

theorem Pooled.balanced (h : Pooled members b) (hunharmed : b.Unharmed) :
    b.Balanced (b.workers.map Worker.stats) := by
  have hsum := h.sum_eq hunharmed
  have houtstanding : b.engine.queue.outstanding +
      b.engine.log.countSince {} CallState.isAnswered = b.accepted.length :=
    h.inv.holdings.outstanding
  have hanswered := CallLog.countSince_isAnswered b.engine.log {}
  have hfailure := CallLog.countSince_isFailure b.engine.log {}
  obtain ⟨hsuccesses, hfailures, herrors, -, -⟩ := h.inv.books
  refine ⟨?_, ?_, ?_, ?_, by omega, fun hfew => ?_⟩
  · rw [hsuccesses]
    exact congrArg UInt64.ofNat (hsum .successes)
  · rw [hfailures, hfailure, List.sum_map_add]
    exact congrArg UInt64.ofNat (congrArg₂ (· + ·) (hsum .httpFailures) (hsum .transportErrors))
  · rw [herrors]
    exact congrArg UInt64.ofNat (hsum .transportErrors)
  · have hprocessed := hsum .processed
    simp only [WorkerStats.get, WorkerStats.Entry.sees] at hprocessed
    omega
  · obtain ⟨total, htotal, hget⟩ := h.merged hunharmed hfew
    have hsuccess : total.successes.toNat = _ := hget .successes
    have hhttp : total.httpFailures.toNat = _ := hget .httpFailures
    have herror : total.transportErrors.toNat = _ := hget .transportErrors
    have hprocessed : total.processed.toNat = _ := hget .processed
    simp only [WorkerStats.Entry.sees] at hsuccess hhttp herror hprocessed
    obtain ⟨hadd, htoNat⟩ := Count.add_ok (a := total.httpFailures) (b := total.transportErrors)
      (by omega)
    refine ⟨total, htotal, ?_, ?_, ?_, by omega⟩
    · rw [hsuccesses, ← hsuccess, UInt64.ofNat_toNat]
    · rw [WorkerStats.failures, hadd, hfailures, hfailure, ← hhttp, ← herror, ← htoNat,
        UInt64.ofNat_toNat]
    · rw [herrors, ← herror, UInt64.ofNat_toNat]

end Bench

end LoadGenerator
