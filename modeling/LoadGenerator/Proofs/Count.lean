import LoadGenerator.Count

/-!
# Counts as numbers

A count is a word of 64 bits. Here is what the checked operations on counts say about the numbers
that they stand for: a sum, a difference or a product that fits is found and is exact, and an
addition fails for one reason only. The maximum of two counts is lawful, so the lemmas on lists
apply to it.
-/

namespace LoadGenerator.Count

variable {a b c : UInt64} {e : Overflow}

theorem add_ok (h : a.toNat + b.toNat < UInt64.size) :
    add a b = .ok (a + b) ∧ (a + b).toNat = a.toNat + b.toNat := by
  refine ⟨if_pos h, ?_⟩
  rw [UInt64.toNat_add]
  exact Nat.mod_eq_of_lt h

theorem toNat_succ (h : a.toNat + 1 < UInt64.size) : (a + 1).toNat = a.toNat + 1 :=
  (add_ok (b := 1) h).2

theorem add_eq_ok (h : a.toNat + b.toNat = c.toNat) : add a b = .ok c := by
  obtain ⟨hadd, hsum⟩ := add_ok (h ▸ c.toNat_lt_size)
  rw [hadd, UInt64.toNat_inj.1 (hsum.trans h)]

theorem toNat_of_add (h : add a b = .ok c) : c.toNat = a.toNat + b.toNat := by
  unfold add at h
  split at h
  · cases h
    exact (add_ok ‹_›).2
  · cases h

theorem eq_of_add_error (h : add a b = .error e) : e = .add := by
  unfold add at h
  split at h
  · cases h
  · cases h
    rfl

theorem sub_eq_ok (h : c.toNat + b.toNat = a.toNat) : sub a b = .ok c := by
  have hle : b ≤ a := UInt64.le_iff_toNat_le.2 (by omega)
  have hsub : (a - b).toNat = c.toNat := by
    rw [UInt64.toNat_sub_of_le _ _ hle]
    omega
  rw [sub, if_pos hle, UInt64.toNat_inj.1 hsub]

theorem mul_eq_some : mul a b = some c ↔ a.toNat * b.toNat = c.toNat := by
  unfold mul
  by_cases hlt : a.toNat * b.toNat < UInt64.size
  · have hproduct : (a * b).toNat = a.toNat * b.toNat := by
      rw [UInt64.toNat_mul]
      exact Nat.mod_eq_of_lt hlt
    rw [if_pos hlt, Option.some.injEq, ← UInt64.toNat_inj, hproduct]
  · rw [if_neg hlt]
    exact iff_of_false nofun fun h => hlt (h ▸ c.toNat_lt_size)

theorem mul_eq_none : mul a b = none ↔ UInt64.size ≤ a.toNat * b.toNat := by
  unfold mul
  rw [ite_eq_right_iff, ← Nat.not_lt]
  exact ⟨fun h hlt => Option.some_ne_none _ (h hlt), fun h hlt => absurd hlt h⟩

/-- A product is at most a bound that is a count itself. -/
theorem any_mul {bound : Nat} (hbound : bound < UInt64.size) :
    (mul a b).any (fun c => c.toNat ≤ bound) = true ↔ a.toNat * b.toNat ≤ bound := by
  cases h : mul a b with
  | none =>
    have := mul_eq_none.mp h
    exact iff_of_false nofun (by omega)
  | some c => rw [Option.any_some, decide_eq_true_iff, mul_eq_some.mp h]

theorem toNat_mulCapped (h : a.toNat * b.toNat < UInt64.size) :
    (mulCapped a b).toNat = a.toNat * b.toNat := by
  have hmul : mul a b = some (UInt64.ofNatLT _ h) :=
    mul_eq_some.mpr UInt64.toNat_ofNatLT.symm
  rw [mulCapped, hmul, Option.getD_some, UInt64.toNat_ofNatLT]

theorem mulCapped_eq_max (h : UInt64.size ≤ a.toNat * b.toNat) : mulCapped a b = max := by
  rw [mulCapped, mul_eq_none.mpr h, Option.getD_none]

/-- Of two counts the maximum is the first, unless it is less. -/
instance lawfulMax : Std.LawfulOrderLeftLeaningMax UInt64 where
  max_eq_left a b hle := by
    show (if a ≤ b then b else a) = a
    split
    · exact UInt64.le_antisymm hle ‹_›
    · rfl
  max_eq_right a b hlt := if_pos (UInt64.le_of_lt (UInt64.not_le.1 hlt))

end LoadGenerator.Count
