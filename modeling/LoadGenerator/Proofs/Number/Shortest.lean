import LoadGenerator.Number.Decimal
import LoadGenerator.Proofs.Number.Rounding
import LoadGenerator.Proofs.Text.Numerals
import Mathlib.Tactic.Ring

/-!
# What the shortest decimal form can be

The search for the shortest decimal form looks at no more than 18 digits from the leading one on, so
what it finds has a significand of 64 bits, and a number of moderate size has a moderate exponent
(`Modest.shortest`). A hit on a grid is never zero.
-/

namespace LoadGenerator.Decimal

variable {x : Binary64} {k : Int} {d : Decimal}

/-! ### The leading digit -/

/-- The number is below the power of ten. -/
def Below (units : Nat) (k : Int) : Prop :=
  units * lower k < Binary64.one * upper k

theorem stepsToOne_spec (fuel : Nat) {steps units : Nat} (hsteps : 1 ≤ steps)
    (h : units * 10 ^ (steps - 1) < Binary64.one) :
    1 ≤ stepsToOne fuel steps units ∧ stepsToOne fuel steps units ≤ steps + fuel ∧
      units * 10 ^ (stepsToOne fuel steps units - 1) < Binary64.one := by
  induction fuel generalizing steps with
  | zero => exact ⟨hsteps, Nat.le_refl _, h⟩
  | succ fuel ih =>
    unfold stepsToOne
    split
    · exact ⟨hsteps, Nat.le_add_right _ _, h⟩
    · next hlt =>
      obtain ⟨hleast, hmost, hbelow⟩ := ih (Nat.le_add_left 1 steps) (Nat.lt_of_not_le hlt)
      exact ⟨hleast, by omega, hbelow⟩

theorem leadingExponent_spec (x : Binary64) : Below x.units (leadingExponent x + 1) ∧
    -325 ≤ leadingExponent x ∧
    (0 ≤ leadingExponent x → Binary64.one * 10 ^ (leadingExponent x).toNat ≤ x.units) := by
  have hone := Binary64.one_pos
  have hzero : Nat.pow 10 0 = 1 := rfl
  unfold leadingExponent Below
  split
  · next hle =>
    have hn : 0 < x.units / Binary64.one := Nat.div_pos hle hone
    have hsplit := Nat.lt_mul_div_succ x.units hone
    have hfloor := Nat.mul_div_le x.units Binary64.one
    generalize x.units / Binary64.one = n at *
    have hlength : 0 < (Numeral.write n).length := List.length_pos_iff.2 Numeral.write_ne_nil
    have hlt : n < 10 ^ (Numeral.write n).length :=
      (Nat.length_toDigits_le_iff (by decide) hlength).1 (Nat.le_refl _)
    have hge : 10 ^ ((Numeral.write n).length - 1) ≤ n := by
      rcases Nat.eq_zero_or_pos ((Numeral.write n).length - 1) with hsingle | hpos
      · rw [hsingle]
        exact hn
      · by_contra hsmall
        have := Numeral.length_write_le hpos (Nat.lt_of_not_le hsmall)
        omega
    generalize (Numeral.write n).length = length at *
    have hlead : ((length : Int) - 1 + 1).toNat = length ∧ (-((length : Int) - 1 + 1)).toNat = 0 ∧
        ((length : Int) - 1).toNat = length - 1 := by omega
    unfold lower upper
    rw [hlead.1, hlead.2.1, hlead.2.2, hzero, Nat.mul_one]
    refine ⟨?_, by omega, fun _ => ?_⟩
    · calc x.units < Binary64.one * (n + 1) := hsplit
        _ ≤ Binary64.one * 10 ^ length := Nat.mul_le_mul_left _ hlt
    · exact Nat.le_trans (Nat.mul_le_mul_left _ hge) hfloor
  · next hlt =>
    have hstart : x.units * 10 ^ (1 - 1) < Binary64.one := by simpa using hlt
    obtain ⟨hleast, hmost, hbelow⟩ := stepsToOne_spec 324 (Nat.le_refl 1) hstart
    generalize stepsToOne 324 1 x.units = steps at *
    have hlead : (-(steps : Int) + 1).toNat = 0 ∧ (-(-(steps : Int) + 1)).toNat = steps - 1 := by
      omega
    unfold lower upper
    rw [hlead.1, hlead.2, hzero, Nat.mul_one]
    exact ⟨hbelow, by omega, fun h => by omega⟩

/-! ### The search -/

/-- A number below a power of ten has so many digits down to a grid. -/
theorem div_lt_of_below {units : Nat} (h : Below units k) (digits : Nat) :
    units * lower (k - digits) / (Binary64.one * upper (k - digits)) < 10 ^ digits := by
  have hpos : 0 < Binary64.one * upper (k - digits) :=
    Nat.mul_pos Binary64.one_pos (Nat.pow_pos (by decide))
  have hk : 0 < upper k := Nat.pow_pos (by decide)
  -- both sides are the same power of ten
  have hpower : upper (k - digits) * 10 ^ digits * lower k = upper k * lower (k - digits) := by
    show 10 ^ (k - digits).toNat * 10 ^ digits * 10 ^ (-k).toNat =
      10 ^ k.toNat * 10 ^ (-(k - digits)).toNat
    rw [← Nat.pow_add, ← Nat.pow_add, ← Nat.pow_add]
    congr 1
    omega
  rw [Nat.div_lt_iff_lt_mul hpos]
  refine Nat.lt_of_mul_lt_mul_right (a := upper k) ?_
  calc units * lower (k - digits) * upper k
      = units * (upper k * lower (k - digits)) := by ring
    _ = units * lower k * (upper (k - digits) * 10 ^ digits) := by rw [← hpower]; ring
    _ < Binary64.one * upper k * (upper (k - digits) * 10 ^ digits) :=
        Nat.mul_lt_mul_of_pos_right h
          (Nat.mul_pos (Nat.pow_pos (by decide)) (Nat.pow_pos (by decide)))
    _ = 10 ^ digits * (Binary64.one * upper (k - digits)) * upper k := by ring

theorem units_pos (hx : x.significand ≠ 0) : 0 < x.units :=
  Nat.mul_pos (Nat.pos_of_ne_zero hx) (Nat.two_pow_pos _)

/-- The interval of the numbers that round to `x` ends above zero. -/
theorem reach_le (hx : x.significand ≠ 0) : (reach x).1 ≤ x.units := by
  have hunit : 2 ^ x.scale ≤ x.units := Nat.le_mul_of_pos_left _ (Nat.pos_of_ne_zero hx)
  unfold reach
  simp only
  split
  · exact Nat.le_trans (Nat.pow_le_pow_right (by decide) (Nat.sub_le _ _)) hunit
  · exact hunit

/-- Zero rounds to no number but zero. -/
theorem not_roundsTo_zero (hx : x.significand ≠ 0) : roundsTo x ⟨0, k⟩ = false := by
  have hunits := units_pos hx
  have hreach := reach_le hx
  have hlow : 0 < (2 * x.units - (reach x).1) * lower k :=
    Nat.mul_pos (by omega) (Nat.pow_pos (by decide))
  unfold roundsTo
  simp only [Nat.zero_mul]
  split
  · simp [Nat.not_le.2 hlow]
  · simp

theorem onGrid?_spec (hx : x.significand ≠ 0) (h : onGrid? x k = some d) :
    d.exponent = k ∧ d.significand ≠ 0 ∧
      d.significand ≤ x.units * lower k / (Binary64.one * upper k) + 1 := by
  have hzero := not_roundsTo_zero (k := k) hx
  obtain ⟨hlow, hhigh⟩ := roundDiv_bounds (x.units * lower k) (Binary64.one * upper k)
  unfold onGrid? at h
  simp only at h
  generalize x.units * lower k / (Binary64.one * upper k) = q at *
  have hbelow : roundsTo x ⟨q, k⟩ = true → q ≠ 0 := by
    rintro hq rfl
    rw [hzero] at hq
    cases hq
  split at h
  · next hq _ =>
    cases h
    exact ⟨rfl, Nat.ne_of_gt (Nat.lt_of_lt_of_le (Nat.pos_of_ne_zero (hbelow hq)) hlow), hhigh⟩
  · next hq _ =>
    cases h
    exact ⟨rfl, hbelow hq, Nat.le_succ q⟩
  · cases h
    exact ⟨rfl, Nat.succ_ne_zero q, Nat.le_refl _⟩
  · cases h

/-- What the search finds from some number of digits on: never more than 18 digits. -/
theorem search_spec {lead : Int} (fuel : Nat) {digits : Nat} (hx : x.significand ≠ 0)
    (hbelow : Below x.units (lead + 1))
    (hlead : 0 ≤ lead → Binary64.one * 10 ^ lead.toNat ≤ x.units)
    (hdigits : 1 ≤ digits) (hfuel : digits + fuel = 18) :
    (search x lead fuel digits).significand ≤ 10 ^ 18 ∧
      lead - 17 ≤ (search x lead fuel digits).exponent ∧
      (search x lead fuel digits).exponent ≤ lead ∧
      ((search x lead fuel digits).significand = 0 →
        (search x lead fuel digits).exponent ≤ 0) := by
  have hgrid : lead - digits + 1 = lead + 1 - digits := by omega
  have hfloor := div_lt_of_below hbelow digits
  have hpower : 10 ^ digits ≤ 10 ^ 18 := Nat.pow_le_pow_right (by decide) (by omega)
  rw [← hgrid] at hfloor
  induction fuel generalizing digits with
  | zero =>
    simp only [search]
    refine ⟨Nat.le_of_lt (Nat.lt_of_lt_of_le hfloor hpower), by omega, by omega, fun hzero => ?_⟩
    -- a whole number with more than 18 digits has its leading one on the last grid
    by_contra hpos
    have hexact := hlead (by omega)
    have hle : Binary64.one * 10 ^ (lead - digits + 1).toNat ≤ x.units :=
      Nat.le_trans (Nat.mul_le_mul_left _ (Nat.pow_le_pow_right (by decide) (by omega))) hexact
    have hlower : lower (lead - digits + 1) = 1 := by
      unfold lower
      rw [show (-(lead - digits + 1)).toNat = 0 by omega]
    rw [hlower, Nat.mul_one] at hzero
    have hstep : 0 < Binary64.one * upper (lead - digits + 1) :=
      Nat.mul_pos Binary64.one_pos (Nat.pow_pos (by decide))
    exact absurd hzero (Nat.ne_of_gt (Nat.div_pos hle hstep))
  | succ fuel ih =>
    unfold search
    split
    · next d hd =>
      obtain ⟨hexponent, hne, hle⟩ := onGrid?_spec hx hd
      exact ⟨by omega, by omega, by omega, fun hzero => absurd hzero hne⟩
    · have hgrid' : lead - (digits + 1 : Nat) + 1 = lead + 1 - (digits + 1 : Nat) := by omega
      refine ih (Nat.le_add_left ..) (by omega) hgrid' ?_ ?_
      · rw [hgrid']
        exact div_lt_of_below hbelow _
      · exact Nat.pow_le_pow_right (by decide) (by omega)

theorem trimZeros_spec (fuel : Nat) (d : Decimal) : (d.trimZeros fuel).significand ≤ d.significand ∧
    ((d.trimZeros fuel).significand = 0 → d.trimZeros fuel = d) ∧
    d.exponent ≤ (d.trimZeros fuel).exponent ∧ (d.trimZeros fuel).exponent ≤ d.exponent + fuel := by
  induction fuel generalizing d with
  | zero => exact ⟨Nat.le_refl _, fun _ => rfl, by simp [trimZeros], by simp [trimZeros]⟩
  | succ fuel ih =>
    unfold trimZeros
    split
    · next hzeros =>
      obtain ⟨hle, hzero, hleast, hmost⟩ := ih ⟨d.significand / 10, d.exponent + 1⟩
      simp only at hle hleast hmost
      refine ⟨by omega, fun h => ?_, by omega, by omega⟩
      rw [hzero h] at h
      simp only at h
      omega
    · exact ⟨Nat.le_refl _, fun _ => rfl, Int.le_refl _, by omega⟩

/-- A decimal number with a significand of 64 bits that is neither large nor tiny. -/
structure Moderate (d : Decimal) : Prop where
  significand_le : d.significand ≤ 10 ^ 18
  least : -400 ≤ d.exponent
  most : d.exponent ≤ 50
  zero : d.significand = 0 → d.exponent ≤ 0

/-- A number without a sign that is not large. -/
structure Modest (x : Binary64) : Prop where
  negative : x.negative = false
  units_lt : x.units < Binary64.one * 10 ^ 32

theorem Modest.shortest (h : Modest x) : Moderate (shortest x) := by
  unfold Decimal.shortest
  split
  · exact ⟨by decide, by decide, by decide, fun _ => Int.le_refl _⟩
  · next hzero =>
    have hne : x.significand ≠ 0 := by simpa [Binary64.isZero] using hzero
    obtain ⟨hbelow, hleast, hlead⟩ := leadingExponent_spec x
    have hmost : leadingExponent x < 32 := by
      by_contra hlarge
      have hpower : 10 ^ 32 ≤ 10 ^ (leadingExponent x).toNat :=
        Nat.pow_le_pow_right (by decide) (by omega)
      exact absurd (Nat.le_trans (Nat.mul_le_mul_left _ hpower) (hlead (by omega)))
        (Nat.not_le.2 h.units_lt)
    obtain ⟨hle, hlow, hhigh, hnone⟩ :=
      search_spec 17 hne hbelow hlead (Nat.le_refl 1) rfl
    obtain ⟨htrim, hsame, hup, hdown⟩ :=
      trimZeros_spec 17 (search x (leadingExponent x) 17 1)
    refine ⟨Nat.le_trans htrim hle, by omega, by omega, fun h => ?_⟩
    have heq := hsame h
    rw [heq] at h ⊢
    exact hnone h

end LoadGenerator.Decimal
