import LoadGenerator.Calendar
import Mathlib.Tactic.IntervalCases

/-!
# Days and dates

Every day has a date on the calendar, from which it is found again (`Date.toDays_ofDays`). Four
centuries are cut into centuries, these into four years and these into years, and each cut leaves a
day that fits into the next part; only the last part may have a day more, which is the leap day
(`Date.yearOfEra_spec`).
-/

namespace LoadGenerator.Date

/-- The days of four centuries before a year, which starts in March. -/
def daysBeforeYear (year : Nat) : Nat :=
  365 * year + year / 4 - year / 100

/-- The year and the day in it are those of the day of the four centuries; the last day of a leap
year is the 29th of February. -/
theorem yearOfEra_spec {day : Nat} (h : day < 146097) :
    (yearOfEra day).1 < 400 ∧ (yearOfEra day).2 ≤ 365 ∧
      daysBeforeYear (yearOfEra day).1 + (yearOfEra day).2 = day ∧
      ((yearOfEra day).2 = 365 → isLeap ((yearOfEra day).1 + 1 : Nat) = true) := by
  unfold yearOfEra
  simp only
  generalize hcentury : min (day / 36524) 3 = century
  generalize hinCentury : day - century * 36524 = inCentury
  generalize hfourth : inCentury / 1461 = fourth
  generalize hinFourth : inCentury - fourth * 1461 = inFourth
  generalize hyear : min (inFourth / 365) 3 = year
  have h₁ : century ≤ 3 ∧ day = century * 36524 + inCentury ∧ inCentury ≤ 36524 ∧
      (century < 3 → inCentury < 36524) := by omega
  have h₂ : fourth ≤ 24 ∧ inCentury = fourth * 1461 + inFourth ∧ inFourth < 1461 := by omega
  have h₃ : year ≤ 3 ∧ inFourth = year * 365 + (inFourth - year * 365) ∧
      inFourth - year * 365 ≤ 365 ∧ (inFourth - year * 365 = 365 → year = 3) := by omega
  generalize inFourth - year * 365 = inYear at h₃ ⊢
  have hdays : daysBeforeYear (100 * century + 4 * fourth + year) =
      century * 36524 + fourth * 1461 + year * 365 := by
    have hfours : (100 * century + 4 * fourth + year) / 4 = 25 * century + fourth := by omega
    have hhundreds : (100 * century + 4 * fourth + year) / 100 = century := by omega
    unfold daysBeforeYear
    rw [hfours, hhundreds]
    omega
  refine ⟨by omega, h₃.2.2.1, by omega, fun hlast => ?_⟩
  unfold isLeap
  simp only [Bool.and_eq_true, Bool.or_eq_true, beq_iff_eq, bne_iff_ne]
  omega

theorem month_spec {day : Nat} (h : day ≤ 365) : monthOf day ≤ 11 ∧ daysBefore (monthOf day) ≤ day ∧
    day - daysBefore (monthOf day) + 1 ≤
      (if monthOf day = 11 then (if day = 365 then 29 else 28)
        else if monthOf day ∈ [1, 3, 6, 8] then 30 else 31) := by
  have hall : ∀ day < 366, monthOf day ≤ 11 ∧ daysBefore (monthOf day) ≤ day ∧
      day - daysBefore (monthOf day) + 1 ≤
        (if monthOf day = 11 then (if day = 365 then 29 else 28)
          else if monthOf day ∈ [1, 3, 6, 8] then 30 else 31) := by
    decide +kernel
  exact hall day (by omega)

theorem isLeap_era (era : Int) (year : Int) : isLeap (era * 400 + year) = isLeap year := by
  have h₄ : (era * 400 + year) % 4 = year % 4 := by omega
  have h₁₀₀ : (era * 400 + year) % 100 = year % 100 := by omega
  have h₄₀₀ : (era * 400 + year) % 400 = year % 400 := by omega
  unfold isLeap
  rw [h₄, h₁₀₀, h₄₀₀]

/-- The parts of a date: four centuries, a year in them and a day in that, both from March on. -/
theorem ofDays_parts (days : Int) : ∃ (era : Int) (year day : Nat), year < 400 ∧ day ≤ 365 ∧
    (day = 365 → isLeap (era * 400 + year + 1) = true) ∧
    days = era * 146097 + daysBeforeYear year + day - 719468 ∧
    ofDays days = {
      year := era * 400 + year + if monthOf day < 10 then 0 else 1
      month := if monthOf day < 10 then monthOf day + 3 else monthOf day - 9
      day := day - daysBefore (monthOf day) + 1 } := by
  have hnonneg : 0 ≤ (days + epoch) % daysPerEra := Int.emod_nonneg _ (by decide)
  have hlt : (days + epoch) % daysPerEra < 146097 := Int.emod_lt_of_pos _ (by decide)
  have hsplit := Int.mul_ediv_add_emod (days + epoch) daysPerEra
  obtain ⟨hyear, hday, hsum, hleap⟩ :=
    yearOfEra_spec (show ((days + epoch) % daysPerEra).toNat < 146097 by omega)
  refine ⟨(days + epoch) / daysPerEra, _, _, hyear, hday, fun hlast => ?_, ?_, rfl⟩
  · rw [Int.add_assoc, isLeap_era]
    exact hleap hlast
  · have hepoch : epoch = 719468 := rfl
    have hera : daysPerEra = 146097 := rfl
    rw [hera] at hsplit hsum hnonneg ⊢
    omega

theorem isValid_ofDays (days : Int) : (ofDays days).IsValid := by
  obtain ⟨era, year, day, -, hday, hleap, -, heq⟩ := ofDays_parts days
  obtain ⟨hmonth, -, hlast⟩ := month_spec hday
  rw [heq]
  generalize monthOf day = month at hmonth hlast ⊢
  have hfirst : 1 ≤ day - daysBefore month + 1 := Nat.le_add_left 1 _
  generalize day - daysBefore month + 1 = dayOfMonth at hfirst hlast ⊢
  have hdays : dayOfMonth ≤ daysInMonth (era * 400 + year + if month < 10 then 0 else 1)
      (if month < 10 then month + 3 else month - 9) := by
    refine Nat.le_trans hlast ?_
    rcases Nat.lt_or_eq_of_le hmonth with hmonth | rfl
    · interval_cases month <;> simp [daysInMonth]
    · -- February is the last month
      by_cases hlastDay : day = 365
      · simp [daysInMonth, hlastDay, hleap hlastDay]
      · cases h : isLeap (era * 400 + year + 1) <;> simp [daysInMonth, hlastDay, h]
  refine ⟨?_, ?_, hfirst, hdays⟩
  · show 1 ≤ if month < 10 then month + 3 else month - 9
    split <;> omega
  · show (if month < 10 then month + 3 else month - 9) ≤ 12
    split <;> omega

theorem toDays_ofDays (days : Int) : (ofDays days).toDays = days := by
  obtain ⟨era, year, day, hyear, hday, -, hdays, heq⟩ := ofDays_parts days
  obtain ⟨hmonth, hfirst, -⟩ := month_spec hday
  rw [heq]
  generalize monthOf day = month at hmonth hfirst ⊢
  have hepoch : epoch = 719468 := rfl
  have hera : daysPerEra = 146097 := rfl
  have hyears : ((daysBeforeYear year : Nat) : Int) = 365 * year + year / 4 - year / 100 := by
    unfold daysBeforeYear
    omega
  unfold toDays
  rw [hepoch, hera]
  by_cases hmarch : month < 10
  · have hlate : ¬ month + 3 ≤ 2 := by omega
    simp only [if_pos hmarch, if_neg hlate, Nat.add_sub_cancel]
    omega
  · have hearly : month - 9 ≤ 2 := by omega
    have hback : month - 9 + 9 = month := by omega
    simp only [if_neg hmarch, if_pos hearly, hback, Int.add_sub_cancel]
    omega

/-- The years of the days that a moment in time can have. -/
theorem year_ofDays {days : Int} (h : -96465292 ≤ days ∧ days ≤ 95026236) :
    -262143 ≤ (ofDays days).year ∧ (ofDays days).year ≤ 262142 := by
  obtain ⟨era, year, day, hyear, hday, -, hdays, heq⟩ := ofDays_parts days
  have hmonth : monthOf day < 10 ↔ day < 306 := by
    unfold monthOf
    omega
  have hyears : ((daysBeforeYear year : Nat) : Int) = 365 * year + year / 4 - year / 100 := by
    unfold daysBeforeYear
    omega
  rw [heq]
  show -262143 ≤ era * 400 + year + (if monthOf day < 10 then 0 else 1) ∧
    era * 400 + year + (if monthOf day < 10 then 0 else 1) ≤ 262142
  have hera : era ≤ 654 ∨ era = 655 := by omega
  simp only [hmonth]
  rcases hera with hera | rfl <;> split <;> omega

end LoadGenerator.Date
