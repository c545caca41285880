import LoadGenerator.Proofs.Json.Reals
import LoadGenerator.Proofs.Number.Shortest

/-!
# Written numbers are read

Whichever way a moderate decimal number is spelled out, some number is read from it
(`spells_decimal`), and so from what is written for a floating-point number that is not large
(`spells_write`). It need not be the number that was written: scaling rounds once more.
-/

namespace LoadGenerator.Json

open Numeral

variable {d : Decimal} {x : Binary64} {digits : List Char} {n k : Nat} {e : Int}

/-! ### Scaling -/

theorem units_powerOfTen_le (h : k ≤ 50) : (powerOfTen k).units ≤ 2 ^ 168 * Binary64.one := by
  have hpower : Nat.pow 10 k ≤ 10 ^ 50 := Nat.pow_le_pow_right (by decide) h
  exact Nat.le_trans (Binary64.units_ofQuotient_le _) (Nat.mul_le_mul_right _ (by omega))

/-- Scaling by a moderate power of ten does not lead beyond all numbers. -/
theorem exists_scaled (he : e ≤ 50) : ∃ x, scaled n e = some x := by
  unfold scaled
  split_ifs with hneg hmost
  · exact ⟨_, rfl⟩
  · exact Binary64.exists_mul (Binary64.units_ofCount_le _)
      (units_powerOfTen_le (by omega)) (by decide)
  · exact absurd (Int.le_trans he (by decide)) hmost

/-! ### The ways of spelling -/

theorem isPlain_zeros (h : n = 0 → k = 0) :
    IsPlain (Numeral.write n ++ List.replicate k '0') := by
  have hplain : IsPlain (Numeral.write n) := isPlain_write
  rcases Nat.eq_zero_or_pos n with hn | hn
  · rw [h hn, List.replicate_zero, List.append_nil]
    exact hplain
  · refine ⟨by simp [hplain.ne_nil], hplain.allDigits.append (allDigits_zeros k), fun hzero => ?_⟩
    obtain ⟨c, digits, hwrite, -⟩ := exists_write_eq_cons (n := n)
    have hhead := head?_write_ne hn
    rw [hwrite] at hzero hhead
    exact absurd hzero hhead

theorem spells_whole (hplain : IsPlain (digits ++ List.replicate k '0'))
    (hlength : digits.length + k ≤ 16) :
    ∃ x, Spells realValue (digits ++ List.replicate k '0' ++ ['.', '0']) x := by
  refine spells_positional hplain (allDigits_zeros 1) (List.cons_ne_nil _ _) ?_
  have hsize : 10 ^ 17 ≤ UInt64.size := by decide
  have hlt : valueFrom 0 (digits ++ List.replicate k '0' ++ ['0']) < _ :=
    valueFrom_lt (hplain.allDigits.append (allDigits_zeros 1))
  rw [List.length_append, List.length_append, List.length_replicate, List.length_singleton,
    Nat.zero_add, Nat.one_mul] at hlt
  exact Nat.lt_of_lt_of_le hlt
    (Nat.le_trans (Nat.pow_le_pow_right (by decide) (by omega)) hsize)

theorem spells_point (hplain : IsPlain digits) (hfits : valueFrom 0 digits < UInt64.size)
    (hk : k + 1 < digits.length) :
    ∃ x, Spells realValue (digits.take (k + 1) ++ '.' :: digits.drop (k + 1)) x := by
  refine spells_positional (hplain.of_start (List.take_prefix _ _) ?_)
    (fun c hc => hplain.allDigits c (List.drop_subset _ _ hc)) ?_ ?_
  · simpa using hplain.ne_nil
  · rw [Ne, List.drop_eq_nil_iff]
    omega
  · rwa [List.take_append_drop]

theorem spells_fraction (hplain : IsPlain digits) (hfits : valueFrom 0 digits < UInt64.size) :
    ∃ x, Spells realValue ('0' :: '.' :: List.replicate k '0' ++ digits) x := by
  have hzero : IsPlain ['0'] := isPlain_write (n := 0)
  have hplaces : AllDigits (List.replicate k '0' ++ digits) :=
    (allDigits_zeros k).append hplain.allDigits
  have hsize : valueFrom 0 (['0'] ++ (List.replicate k '0' ++ digits)) < UInt64.size := by
    rw [valueFrom_append, valueFrom_append, valueFrom_zeros]
    simpa using hfits
  exact spells_positional hzero hplaces (by simp [hplain.ne_nil]) hsize

/-- The mark in front of an exponent says which sign it has. -/
theorem exists_mark (lead : Int) : ∃ up,
    (if lead < 0 then ['-'] else realLayout.plus, up) ∈ marks ∧
      (if up = true then (lead.natAbs : Int) else -lead.natAbs) = lead := by
  by_cases hneg : lead < 0
  · refine ⟨false, ?_, ?_⟩
    · rw [if_pos hneg]
      simp [marks]
    · rw [if_neg Bool.false_ne_true]
      omega
  · refine ⟨true, ?_, ?_⟩
    · rw [if_neg hneg]
      simp [marks, realLayout]
    · rw [if_pos rfl]
      omega

theorem spells_power {lead : Int} (hplain : IsPlain digits)
    (hfits : valueFrom 0 digits < UInt64.size) (hlead : lead.natAbs ≤ greatestExponent)
    (hscaled : scaled (valueFrom 0 digits) (lead - (digits.length - 1 : Nat)) = some x) :
    Spells realValue (digits.take 1 ++ (if digits.length = 1 then [] else '.' :: digits.drop 1) ++
      'e' :: (if lead < 0 then ['-'] else realLayout.plus) ++ Numeral.write lead.natAbs) x := by
  obtain ⟨up, hmark, hsign⟩ := exists_mark lead
  have hwhole := hplain.of_start (List.take_prefix 1 digits) (by simpa using hplain.ne_nil)
  have hplaces : AllDigits (digits.drop 1) := fun c hc =>
    hplain.allDigits c (List.drop_subset _ _ hc)
  have hsingle : digits.length = 1 ↔ digits.drop 1 = [] := by
    have := List.length_pos_iff.2 hplain.ne_nil
    rw [List.drop_eq_nil_iff]
    omega
  have hexponent : (if up = true then (valueFrom 0 (Numeral.write lead.natAbs) : Int)
      else -valueFrom 0 (Numeral.write lead.natAbs)) - (digits.drop 1).length =
        lead - (digits.length - 1 : Nat) := by
    rw [valueFrom_write, hsign, List.length_drop]
  rw [← valueFrom_write (n := lead.natAbs)] at hlead
  have hspells := spells_exponential (x := x) hwhole hplaces (by rwa [List.take_append_drop])
    hmark allDigits_write write_ne_nil hlead (by rwa [hexponent, List.take_append_drop])
  simpa [hsingle] using hspells

theorem spells_decimal (h : Decimal.Moderate d) :
    ∃ x, Spells realValue (Decimal.spell realLayout d) x := by
  have hplain : IsPlain (Numeral.write d.significand) := isPlain_write
  have hvalue : valueFrom 0 (Numeral.write d.significand) < UInt64.size := by
    rw [valueFrom_write]
    exact Nat.lt_of_le_of_lt h.significand_le (by decide)
  have hlength : (Numeral.write d.significand).length ≤ 19 :=
    length_write_le (by decide) (Nat.lt_of_le_of_lt h.significand_le (by decide))
  have hpos : 0 < (Numeral.write d.significand).length := List.length_pos_iff.2 hplain.ne_nil
  have hzeros : IsPlain
      (Numeral.write d.significand ++ List.replicate d.exponent.toNat '0') :=
    isPlain_zeros fun hn => by have := h.zero hn; omega
  have hleast := h.least
  have hmost := h.most
  obtain ⟨x, hscaled⟩ := exists_scaled (n := d.significand) hmost
  rw [← valueFrom_write (n := d.significand)] at hscaled
  unfold Decimal.spell
  simp only
  generalize Numeral.write d.significand = digits at *
  generalize d.exponent = e at *
  by_cases hposition : realLayout.leastPositional ≤ e + digits.length - 1 ∧
      e + digits.length - 1 ≤ realLayout.greatestPositional
  · rw [if_pos hposition]
    simp only [realLayout] at hposition
    split_ifs with hwhole hpoint
    · exact spells_whole hzeros (by omega)
    · exact spells_point hplain hvalue (by omega)
    · exact spells_fraction hplain hvalue
  · rw [if_neg hposition]
    refine ⟨x, spells_power hplain hvalue ?_ ?_⟩
    · unfold greatestExponent
      omega
    · rwa [show e + digits.length - 1 - (digits.length - 1 : Nat) = e by omega]

/-! ### Floating-point numbers -/

theorem spells_write (h : Decimal.Modest x) :
    ∃ y, Spells realValue (Decimal.write realLayout x) y := by
  have hsign : Decimal.sign x = [] := by
    unfold Decimal.sign
    rw [h.negative]
    rfl
  unfold Decimal.write
  rw [hsign, List.nil_append]
  exact spells_decimal h.shortest

end LoadGenerator.Json
