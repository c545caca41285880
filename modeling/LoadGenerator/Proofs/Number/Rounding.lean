import LoadGenerator.Number.Binary64
import Mathlib.Data.Nat.Log
import Mathlib.Tactic.Ring

/-!
# How far rounding goes

A quotient that is not beyond all numbers is rounded to a number of at least half its size and at
most twice it, give or take a unit (`ofUnits_bounds`). That is far less than rounding keeps, and
enough to tell that a number is not so large that what is written for it could not be read.
-/

namespace LoadGenerator

theorem roundDiv_bounds (num den : Nat) :
    num / den ≤ roundDiv num den ∧ roundDiv num den ≤ num / den + 1 := by
  unfold roundDiv
  simp only
  split <;> omega

namespace Binary64

variable {num den n : Nat} {x y : Binary64}

theorem one_pos : 0 < one := by
  unfold one
  generalize 1074 = k
  exact Nat.two_pow_pos k

theorem two_pow_le_one {k : Nat} (h : k ≤ 1074) : 2 ^ k ≤ one := by
  unfold one
  generalize 1074 = scale at h ⊢
  exact Nat.pow_le_pow_right (by decide) h

theorem mul_one_lt {k : Nat} (h : n < 2 ^ k) : n * one < 2 ^ (k + 1074) := by
  unfold one
  generalize 1074 = scale
  rw [Nat.pow_add]
  exact Nat.mul_lt_mul_of_pos_right h (Nat.two_pow_pos scale)

/-- The power that is taken out of a number leaves 53 bits of it. -/
theorem scaleOf_bounds (n : Nat) : n < 2 ^ 53 * 2 ^ scaleOf n ∧
    (scaleOf n = 0 ∨ 2 ^ 52 * 2 ^ scaleOf n ≤ n) := by
  have hlt : n < 2 ^ (n.log2 + 1) := Nat.lt_log2_self
  rw [← Nat.pow_add, ← Nat.pow_add]
  unfold scaleOf
  constructor
  · exact Nat.lt_of_lt_of_le hlt (Nat.pow_le_pow_right (by decide) (by omega))
  · by_cases hsmall : n.log2 ≤ 52
    · exact .inl (by omega)
    · right
      have hne : n ≠ 0 := by
        rintro rfl
        exact hsmall (by decide)
      rw [show 52 + (n.log2 - 52) = n.log2 by omega]
      exact Nat.log2_self_le hne

theorem ofUnits_zero (den : Nat) : ofUnits 0 den = some zero := by
  have hdiv : ∀ m, roundDiv 0 m = 0 := fun m => by
    unfold roundDiv
    simp
  unfold ofUnits
  simp only [hdiv, Nat.zero_div]
  rfl

theorem ofUnits_isSome {k : Nat} (h : num / den < 2 ^ k) (hk : k ≤ 2090) :
    (ofUnits num den).isSome = true := by
  have hscale : scaleOf (num / den) + 1 ≤ 2045 := by
    rcases (scaleOf_bounds (num / den)).2 with hzero | hle
    · omega
    · have hlt := Nat.lt_of_le_of_lt hle h
      rw [← Nat.pow_add, Nat.pow_lt_pow_iff_right (by decide)] at hlt
      omega
  unfold ofUnits ofParts
  simp only
  split_ifs <;> rfl

/-- The parts are kept, or it is the least number with one bit more. -/
theorem ofParts_units {scale : Nat} (h : ofParts n scale = some x) : x.negative = false ∧
    (x.units = 2 ^ scale * n ∨ x.units = 2 ^ 53 * 2 ^ scale ∧ (scale = 0 → 2 ^ 53 ≤ n)) := by
  unfold ofParts at h
  split_ifs at h with hfits hnext
  · cases h
    exact ⟨rfl, .inl (Nat.mul_comm _ _)⟩
  · cases h
    refine ⟨rfl, .inr ⟨?_, fun hzero => ?_⟩⟩
    · show 2 ^ 52 * 2 ^ (scale + 1) = 2 ^ 53 * 2 ^ scale
      rw [Nat.pow_succ]
      omega
    · by_contra hsmall
      exact hfits ⟨Nat.lt_of_not_le hsmall, .inl hzero, by omega⟩

theorem ofUnits_bounds (h : ofUnits num den = some x) :
    x.negative = false ∧ num / den ≤ 2 * x.units ∧ x.units ≤ 2 * (num / den) + 2 := by
  obtain ⟨hlt, hle⟩ := scaleOf_bounds (num / den)
  obtain ⟨hlow, hhigh⟩ := roundDiv_bounds num (den * 2 ^ scaleOf (num / den))
  obtain ⟨hnegative, hunits⟩ := ofParts_units (n := roundDiv num (den * 2 ^ scaleOf (num / den))) h
  have hone : scaleOf (num / den) = 0 → 2 ^ scaleOf (num / den) = 1 := fun h => by
    rw [h, Nat.pow_zero]
  rw [← Nat.div_div_eq_div_mul] at hlow hhigh
  have hsplit := Nat.div_add_mod (num / den) (2 ^ scaleOf (num / den))
  have hrest := Nat.mod_lt (num / den) (Nat.two_pow_pos (scaleOf (num / den)))
  generalize roundDiv num (den * 2 ^ scaleOf (num / den)) = rounded at *
  generalize num / den = q at *
  refine ⟨hnegative, ?_⟩
  rcases hunits with hunits | ⟨hunits, hbig⟩
  · have hup := Nat.mul_le_mul_left (2 ^ scaleOf q) hhigh
    have hdown := Nat.mul_le_mul_left (2 ^ scaleOf q) hlow
    rw [Nat.mul_add, Nat.mul_one] at hup
    rcases hle with hzero | hle
    · have := hone hzero
      omega
    · omega
  · rcases hle with hzero | hle
    · -- nothing is taken out, so it is rounding that has gone beyond 53 bits
      have hrounded := hbig hzero
      have hpower := hone hzero
      rw [hpower, Nat.div_one] at hhigh
      omega
    · omega

/-- What is beyond all numbers is taken for zero. -/
theorem getD_ofUnits_bounds (num den : Nat) : ((ofUnits num den).getD zero).negative = false ∧
    ((ofUnits num den).getD zero).units ≤ 2 * (num / den) + 2 := by
  cases h : ofUnits num den with
  | none => exact ⟨rfl, by simp [zero, units]⟩
  | some x =>
    obtain ⟨hnegative, -, hle⟩ := ofUnits_bounds h
    exact ⟨hnegative, hle⟩

theorem le_getD_ofUnits {k : Nat} (h : num / den < 2 ^ k) (hk : k ≤ 2090) :
    num / den ≤ 2 * ((ofUnits num den).getD zero).units := by
  obtain ⟨x, hx⟩ := Option.isSome_iff_exists.1 (ofUnits_isSome h hk)
  rw [hx]
  exact (ofUnits_bounds hx).2.1

/-! ### Operations -/

theorem units_add_le (x y : Binary64) :
    ((x.add y).getD zero).units ≤ 2 * (x.units + y.units) + 2 := by
  have hle := (getD_ofUnits_bounds (x.units + y.units) 1).2
  rwa [Nat.div_one] at hle

theorem le_units_add {k : Nat} (h : x.units + y.units < 2 ^ k) (hk : k ≤ 2090) :
    x.units + y.units ≤ 2 * ((x.add y).getD zero).units := by
  rw [← Nat.div_one (x.units + y.units)] at h ⊢
  exact le_getD_ofUnits h hk

theorem negative_add (x y : Binary64) : ((x.add y).getD zero).negative = false := by
  unfold add
  exact (getD_ofUnits_bounds _ _).1

theorem negative_div (x y : Binary64) : ((x.div y).getD zero).negative = false := by
  unfold div
  exact (getD_ofUnits_bounds _ _).1

/-- A product is not beyond all numbers if the factors are moderate. -/
theorem exists_mul {i j : Nat} (hx : x.units ≤ 2 ^ i * one) (hy : y.units ≤ 2 ^ j * one)
    (h : i + j ≤ 1000) : ∃ z, x.mul y = some z := by
  refine Option.isSome_iff_exists.1 (ofUnits_isSome (k := i + j + 1 + 1074) ?_ (by omega))
  have hpower : 2 ^ i * 2 ^ j < 2 ^ (i + j + 1) := by
    rw [← Nat.pow_add]
    exact Nat.pow_lt_pow_right (by decide) (Nat.lt_succ_self _)
  rw [Nat.div_lt_iff_lt_mul one_pos]
  calc x.units * y.units ≤ 2 ^ i * one * (2 ^ j * one) := Nat.mul_le_mul hx hy
    _ = 2 ^ i * 2 ^ j * one * one := by ring
    _ < 2 ^ (i + j + 1 + 1074) * one := Nat.mul_lt_mul_of_pos_right (mul_one_lt hpower) one_pos

/-! ### Counts -/

theorem units_ofQuotient_le (n : Nat) :
    ((ofQuotient n 1).getD zero).units ≤ (2 * n + 2) * one := by
  have hone := one_pos
  have hle := (getD_ofUnits_bounds (n * one) 1).2
  rw [Nat.div_one] at hle
  calc ((ofQuotient n 1).getD zero).units ≤ 2 * (n * one) + 2 := hle
    _ ≤ 2 * (n * one) + 2 * one := by omega
    _ = (2 * n + 2) * one := by rw [Nat.add_mul, Nat.mul_assoc]

theorem units_ofCount_le (n : UInt64) : (ofCount n).units ≤ 2 ^ 65 * one := by
  have hn := n.toNat_lt
  exact Nat.le_trans (units_ofQuotient_le n.toNat) (Nat.mul_le_mul_right _ (by omega))

theorem le_units_ofCount (n : UInt64) : n.toNat * one ≤ 2 * (ofCount n).units := by
  have hlt := mul_one_lt n.toNat_lt
  rw [← Nat.div_one (n.toNat * one)] at hlt ⊢
  exact le_getD_ofUnits hlt (by decide)

theorem one_le_units_ofCount {n : UInt64} (h : n ≠ 0) : one ≤ 2 * (ofCount n).units := by
  have hn : 0 < n.toNat := Nat.pos_of_ne_zero fun hzero => h (UInt64.toNat_inj.1 hzero)
  exact Nat.le_trans (Nat.le_mul_of_pos_left _ hn) (le_units_ofCount n)

end Binary64

end LoadGenerator
