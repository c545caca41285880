import LoadGenerator.Proofs.Text.Numerals
import LoadGenerator.Proofs.Text.Trimming
import LoadGenerator.Proofs.Timestamp.Calendar
import LoadGenerator.Timestamp.Reader

/-!
# Moments in time read back

What is written for a moment in time is read (`Timestamp.read_write`): a year with or without a
sign, a fraction of any length that is written, and a leap second. It is read as that moment if the
moment is proper; if not, what is written is the next second, as there is no second 60 but the last
of a minute (`carried`).
-/

namespace LoadGenerator.Timestamp

open Numeral

variable {cs rest digits : List Char} {most value n : Nat}

/-! ### Digits -/

theorem leadingDigits_append (hdigits : AllDigits digits) (hlength : digits.length ≤ most)
    (hrest : digits.length = most ∨ ∀ c ∈ rest.head?, c.isDigit = false) :
    leadingDigits most value (digits ++ rest) = (valueFrom value digits, rest) := by
  induction digits generalizing most value with
  | nil =>
    rw [List.nil_append, valueFrom_nil]
    cases most with
    | zero => rfl
    | succ most =>
      cases rest with
      | nil => rfl
      | cons c rest =>
        have hc : ¬ c.isDigit = true := by
          rw [(hrest.resolve_left nofun) c rfl]
          decide
        simp only [leadingDigits, digit?_of_not_isDigit hc]
  | cons c digits ih =>
    cases most with
    | zero => cases hlength
    | succ most =>
      have hc := hdigits c List.mem_cons_self
      simp only [List.cons_append, leadingDigits, digit?_of_isDigit hc, valueFrom_cons]
      exact ih (fun d hd => hdigits d (List.mem_cons_of_mem _ hd)) (Nat.le_of_succ_le_succ hlength)
        (hrest.imp_left Nat.succ.inj)

theorem number_append (hdigits : AllDigits digits) (hne : digits ≠ [])
    (hlength : digits.length ≤ most)
    (hrest : digits.length = most ∨ ∀ c ∈ rest.head?, c.isDigit = false) :
    number most (digits ++ rest) = .ok (valueFrom 0 digits, rest) := by
  rw [← leadingDigits_append hdigits hlength hrest]
  obtain ⟨c, digits, rfl⟩ := List.exists_cons_of_ne_nil hne
  simp only [List.cons_append, number, digit?_of_isDigit (hdigits c List.mem_cons_self)]

/-- What starts with digits does not start with a blank. -/
theorem trimStart_digits (hdigits : AllDigits digits) (hne : digits ≠ []) (rest : List Char) :
    Text.trimStart (digits ++ rest) = digits ++ rest := by
  refine Text.trimStart_of_head fun c hc => ?_
  obtain ⟨d, digits, rfl⟩ := List.exists_cons_of_ne_nil hne
  cases hc
  exact Text.not_isBlank_of_isDigit (hdigits _ List.mem_cons_self)

/-! ### Parts -/

theorem bounded_padded {least greatest : Nat} (hleast : least ≤ n) (hgreatest : n ≤ greatest)
    (hn : n < 100) (rest : List Char) :
    bounded least greatest (padded 2 n ++ rest) = .ok (n, rest) := by
  have hlength : (padded 2 n).length = 2 := length_padded (by decide) hn
  unfold bounded
  rw [trimStart_digits allDigits_padded padded_ne_nil,
    number_append allDigits_padded padded_ne_nil hlength.le (.inl hlength), valueFrom_padded]
  exact if_pos ⟨hleast, hgreatest⟩

theorem separator_cons {c : Char} (hc : Text.isBlank c = false) (rest : List Char) :
    separator c (c :: rest) = .ok ((), rest) := by
  unfold separator
  rw [Text.trimStart_of_head fun d hd => by cases hd; exact hc]
  exact if_pos rfl

theorem year_write {y : Int} (hy : -262143 ≤ y ∧ y ≤ 262142) (rest : List Char) :
    year (writeYear y ++ '-' :: rest) = .ok (y, '-' :: rest) := by
  have hinRange : Int32.minValue.toInt ≤ y ∧ y ≤ Int32.maxValue.toInt := by
    have hmin : Int32.minValue.toInt = -2147483648 := by decide
    have hmax : Int32.maxValue.toInt = 2147483647 := by decide
    omega
  have hdash : ∀ c ∈ ('-' :: rest).head?, c.isDigit = false := by
    intro c hc
    cases hc
    rfl
  unfold writeYear
  split
  · next hplain =>
    have hlength : (padded 4 y.toNat).length = 4 := length_padded (by decide) (by omega)
    have hnumber := number_append allDigits_padded padded_ne_nil hlength.le (.inr hdash)
    have hne : padded 4 y.toNat ≠ [] := padded_ne_nil
    have htrim := trimStart_digits allDigits_padded hne ('-' :: rest)
    have hvalue : (y.toNat : Int) = y := by omega
    have hlow : -2147483648 ≤ y := by omega
    rw [valueFrom_padded] at hnumber
    obtain ⟨c, digits, hdigits⟩ := List.exists_cons_of_ne_nil hne
    have hc : c.isDigit = true := allDigits_padded c (hdigits ▸ List.mem_cons_self)
    rw [hdigits, List.cons_append] at hnumber htrim ⊢
    simp [year, htrim, ne_of_isDigit hc, hnumber, hvalue, hlow, hinRange, bind, Except.bind, pure,
      Except.pure]
  · next hsigned =>
    have hnumber := number_append allDigits_padded padded_ne_nil
      (show (padded 4 y.natAbs).length ≤ (padded 4 y.natAbs ++ '-' :: rest).length by simp)
      (.inr hdash)
    rw [valueFrom_padded] at hnumber
    rw [List.cons_append]
    generalize padded 4 y.natAbs ++ '-' :: rest = cs at hnumber ⊢
    have hsign : ∀ c, Text.isBlank c = false → Text.trimStart (c :: cs) = c :: cs :=
      fun c hc => Text.trimStart_of_head fun d hd => by cases hd; exact hc
    split
    · have hvalue : -(y.natAbs : Int) = y := by omega
      simp only [year, hsign '-' (by decide), hnumber, hvalue, bind, Except.bind, pure, Except.pure,
        if_pos hinRange]
    · have hvalue : (y.natAbs : Int) = y := by omega
      simp only [year, hsign '+' (by decide), hnumber, hvalue, bind, Except.bind, pure, Except.pure,
        if_pos hinRange]

theorem fraction_padded {k : Nat} (hk : k ≤ 9) (hpos : 0 < k) (hn : n < 10 ^ k)
    (rest : List Char) :
    fraction ('.' :: (padded k n ++ 'Z' :: rest)) = .ok (n * 10 ^ (9 - k), 'Z' :: rest) := by
  have hlength : (padded k n).length = k := length_padded hpos hn
  have hend : ∀ c ∈ ('Z' :: rest).head?, c.isDigit = false := by
    intro c hc
    cases hc
    rfl
  have hnumber := number_append allDigits_padded padded_ne_nil (hlength.trans_le hk) (.inr hend)
  have hdigits : (padded k n ++ 'Z' :: rest).length - ('Z' :: rest).length = k := by
    rw [List.length_append, hlength]
    omega
  rw [valueFrom_padded] at hnumber
  simp only [fraction, hnumber, bind, Except.bind, hdigits]
  rfl

theorem fraction_write (hn : n < 1000000000) (rest : List Char) :
    fraction (writeFraction n ++ 'Z' :: rest) = .ok (n, 'Z' :: rest) := by
  unfold writeFraction
  split_ifs with hzero hmillis hmicros
  · rw [hzero]
    rfl
  · rw [List.cons_append, fraction_padded (by decide) (by decide) (by omega)]
    exact congrArg (fun n => Except.ok (n, 'Z' :: rest)) (by omega)
  · rw [List.cons_append, fraction_padded (by decide) (by decide) (by omega)]
    exact congrArg (fun n => Except.ok (n, 'Z' :: rest)) (by omega)
  · rw [List.cons_append, fraction_padded (by decide) (by decide) (by omega)]
    exact congrArg (fun n => Except.ok (n, 'Z' :: rest)) (by omega)

/-! ### Moments -/

/-- The moment with a second carried from the nanoseconds, unless it is proper. -/
def carried (t : Timestamp) : Timestamp :=
  if h : t.IsProper then t
  else {
    seconds := t.seconds + 1
    nanos := t.nanos - 1000000000
    nanos_lt := by
      have := t.nanos_lt
      omega
    inRange := by
      -- the last second there is is the last of a minute
      have := t.inRange
      unfold IsProper at h
      omega }

variable {t : Timestamp}

theorem carried_of_isProper (h : t.IsProper) : t.carried = t :=
  dif_pos h

theorem seconds_carried (h : ¬ t.IsProper) : t.carried.seconds = t.seconds + 1 := by
  rw [carried, dif_neg h]

theorem nanos_carried (h : ¬ t.IsProper) : t.carried.nanos + 1000000000 = t.nanos := by
  rw [carried, dif_neg h]
  unfold IsProper at h
  dsimp only
  omega

theorem carried_eq_iff : t.carried = t ↔ t.IsProper := by
  refine ⟨fun heq => ?_, carried_of_isProper⟩
  by_contra h
  have := seconds_carried h
  rw [heq] at this
  omega

theorem isProper_carried (t : Timestamp) : t.carried.IsProper := by
  by_cases h : t.IsProper
  · rwa [carried_of_isProper h]
  · have := nanos_carried h
    have := t.nanos_lt
    exact .inl (by omega)

theorem ofParts?_eq (h : t.IsProper) : ofParts? t.seconds t.nanos = some t :=
  (dif_pos ⟨t.nanos_lt, t.inRange⟩).trans (if_pos h)

/-- A clock in UTC shows the 60th second of a minute exactly in a leap second. -/
theorem ofLocal_eq (t : Timestamp) : ofLocal (Date.ofDays (t.seconds / 86400))
    ((t.seconds % 86400).toNat / 3600) ((t.seconds % 86400).toNat / 60 % 60)
    ((t.seconds % 86400).toNat % 60 + t.nanos / 1000000000) (t.nanos % 1000000000) 0 =
      .ok t.carried := by
  have hrange := t.inRange
  have hnanos := t.nanos_lt
  have hyear := Date.year_ofDays (show -96465292 ≤ t.seconds / 86400 ∧
    t.seconds / 86400 ≤ 95026236 by omega)
  have hvalid := Date.isValid_ofDays (t.seconds / 86400)
  have hshown : t.seconds / 86400 * 86400 + ((t.seconds % 86400).toNat / 3600 * 3600 +
      (t.seconds % 86400).toNat / 60 % 60 * 60 +
      min ((t.seconds % 86400).toNat % 60 + t.nanos / 1000000000) 59 : Nat) - 0 =
        t.carried.seconds ∧
      (if (t.seconds % 86400).toNat % 60 + t.nanos / 1000000000 = 60 then
        t.nanos % 1000000000 + 1000000000 else t.nanos % 1000000000) = t.carried.nanos := by
    by_cases h : t.IsProper
    · rw [carried_of_isProper h]
      unfold IsProper at h
      split <;> omega
    · have hseconds := seconds_carried h
      have hcarried := nanos_carried h
      unfold IsProper at h
      split <;> omega
  unfold ofLocal
  rw [if_neg (by simp only [not_or, not_not]; exact ⟨hvalid, by omega, by omega⟩),
    if_neg (by decide)]
  simp only [Date.toDays_ofDays, hshown, ofParts?_eq (isProper_carried t)]

theorem read_write (t : Timestamp) : read t.write = .ok t.carried := by
  have hrange := t.inRange
  have hnanos := t.nanos_lt
  have hyear := Date.year_ofDays (show -96465292 ≤ t.seconds / 86400 ∧
    t.seconds / 86400 ≤ 95026236 by omega)
  obtain ⟨hmonth, hmonth', hday, hday'⟩ := Date.isValid_ofDays (t.seconds / 86400)
  have hlast : (Date.ofDays (t.seconds / 86400)).day ≤ 31 := by
    refine Nat.le_trans hday' ?_
    unfold Date.daysInMonth
    split_ifs <;> decide
  have htime : (t.seconds % 86400).toNat < 86400 := by omega
  have hlocal := ofLocal_eq t
  unfold write
  generalize Date.ofDays (t.seconds / 86400) = date at *
  generalize (t.seconds % 86400).toNat = time at *
  have hmonthText := bounded_padded hmonth hmonth' (by omega)
  have hdayText := bounded_padded hday hlast (by omega)
  have hhour := bounded_padded (Nat.zero_le (time / 3600)) (by omega : _ ≤ 23) (by omega)
  have hminute := bounded_padded (Nat.zero_le (time / 60 % 60)) (by omega : _ ≤ 59) (by omega)
  have hsecond := bounded_padded (Nat.zero_le (time % 60 + t.nanos / 1000000000))
    (by omega : _ ≤ 60) (by omega)
  have hfraction := fraction_write (n := t.nanos % 1000000000) (by omega) []
  have hdash := separator_cons (show Text.isBlank '-' = false by decide)
  have hcolon := separator_cons (show Text.isBlank ':' = false by decide)
  have hT : ∀ rest, dateTimeSeparator ('T' :: rest) = .ok ((), rest) := fun _ => rfl
  have hZ : offset ['Z'] = .ok (0, []) := rfl
  unfold read
  simp only [List.append_assoc, List.cons_append, year_write hyear, hdash, hmonthText,
    hdayText, hT, hhour, hcolon, hminute, hsecond, hfraction, hZ, bind, Except.bind]
  exact hlocal

end LoadGenerator.Timestamp
