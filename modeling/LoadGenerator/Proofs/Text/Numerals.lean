import LoadGenerator.Text.Numeral
import Mathlib.Algebra.Ring.Nat
import Mathlib.Data.List.Induction

/-!
# What a decimal numeral stands for

`Denotes text n` says what a numeral is: one or more digits after an optional sign, whose value is
`n`. A numeral is read exactly if its number is within the limit (`read_eq_ok`). The digits that
`write` gives are the only ones without a sign and without leading zeros (`eq_write_of_plain`).
-/

namespace LoadGenerator.Numeral

/-- The value of digits that follow the digits of `value`. -/
def valueFrom (value : Nat) (digits : List Char) : Nat :=
  Nat.ofDigitChars 10 digits value

def AllDigits (cs : List Char) : Prop :=
  ∀ c ∈ cs, c.isDigit = true

/-- The text is a numeral of the number: digits, perhaps after a plus sign. -/
def Denotes (text : List Char) (n : Nat) : Prop :=
  ∃ digits, (text = digits ∨ text = '+' :: digits) ∧ digits ≠ [] ∧ AllDigits digits ∧
    valueFrom 0 digits = n

/-- Digits of which the first is no zero, unless it is the only one. -/
structure IsPlain (digits : List Char) : Prop where
  ne_nil : digits ≠ []
  allDigits : AllDigits digits
  head : digits.head? = some '0' → digits = ['0']

variable {c : Char} {cs text digits : List Char} {value limit n : Nat}

/-! ### Digits -/

theorem isDigit_iff : c.isDigit = true ↔ '0' ≤ c ∧ c ≤ '9' := by
  simp [Char.isDigit, Char.le_def]

theorem toNat_of_isDigit (h : c.isDigit = true) : 48 ≤ c.toNat ∧ c.toNat ≤ 57 := by
  obtain ⟨hlow, hhigh⟩ := isDigit_iff.1 h
  rw [Char.le_def, UInt32.le_iff_toNat_le] at hlow hhigh
  exact ⟨hlow, hhigh⟩

theorem digit?_of_isDigit (h : c.isDigit = true) : digit? c = some (c.toNat - '0'.toNat) :=
  if_pos (isDigit_iff.1 h)

theorem digit?_of_not_isDigit (h : ¬ c.isDigit = true) : digit? c = none :=
  if_neg fun hc => h (isDigit_iff.2 hc)

theorem ne_of_isDigit {d : Char} (h : c.isDigit = true) (hd : d.isDigit = false) : c ≠ d := by
  rintro rfl
  rw [h] at hd
  cases hd

theorem not_mem_of_allDigits (h : AllDigits digits) (hc : c.isDigit = false) : c ∉ digits :=
  fun hmem => ne_of_isDigit (h c hmem) hc rfl

@[simp] theorem valueFrom_nil : valueFrom value [] = value := by
  simp [valueFrom]

@[simp] theorem valueFrom_cons :
    valueFrom value (c :: cs) = valueFrom (value * 10 + (c.toNat - '0'.toNat)) cs := by
  unfold valueFrom
  rw [Nat.ofDigitChars_cons, Nat.mul_comm]

theorem le_valueFrom : value ≤ valueFrom value cs := by
  induction cs generalizing value with
  | nil => simp
  | cons c cs ih =>
    rw [valueFrom_cons]
    exact Nat.le_trans (by omega) ih

theorem valueFrom_append {digits' : List Char} :
    valueFrom value (digits ++ digits') = valueFrom (valueFrom value digits) digits' :=
  Nat.ofDigitChars_append _

theorem valueFrom_lt (h : AllDigits digits) :
    valueFrom value digits < (value + 1) * 10 ^ digits.length := by
  induction digits generalizing value with
  | nil => simp
  | cons c digits ih =>
    have hc := toNat_of_isDigit (h c (List.mem_cons_self ..))
    have hstep : value * 10 + (c.toNat - '0'.toNat) + 1 ≤ (value + 1) * 10 := by
      show value * 10 + (c.toNat - 48) + 1 ≤ (value + 1) * 10
      omega
    rw [valueFrom_cons, List.length_cons, Nat.pow_succ', ← Nat.mul_assoc]
    exact Nat.lt_of_lt_of_le (ih fun d hd => h d (List.mem_cons_of_mem _ hd))
      (Nat.mul_le_mul_right _ hstep)

theorem allDigits_zeros (k : Nat) : AllDigits (List.replicate k '0') := by
  intro c hc
  rw [List.eq_of_mem_replicate hc]
  rfl

theorem valueFrom_zeros (k : Nat) : valueFrom value (List.replicate k '0') = value * 10 ^ k := by
  induction k generalizing value with
  | zero => simp
  | succ k ih =>
    rw [List.replicate_succ, valueFrom_cons, Nat.sub_self, Nat.add_zero, ih, Nat.pow_succ',
      Nat.mul_assoc]

theorem AllDigits.append {digits' : List Char} (h : AllDigits digits) (h' : AllDigits digits') :
    AllDigits (digits ++ digits') :=
  List.forall_mem_append.2 ⟨h, h'⟩

theorem IsPlain.of_start {part : List Char} (h : IsPlain digits) (hpart : part <+: digits)
    (hne : part ≠ []) : IsPlain part := by
  refine ⟨hne, fun c hc => h.allDigits c (hpart.subset hc), fun hzero => ?_⟩
  obtain ⟨rest, rfl⟩ := hpart
  have hwhole := h.head (by rw [List.head?_append, hzero, Option.some_or])
  obtain ⟨c, part, rfl⟩ := List.exists_cons_of_ne_nil hne
  obtain ⟨rfl, hnil⟩ := List.cons.inj hwhole
  rw [(List.append_eq_nil_iff.1 hnil).1]

theorem valueFrom_le_of_start {part : List Char} (hpart : part <+: digits) :
    valueFrom value part ≤ valueFrom value digits := by
  obtain ⟨rest, rfl⟩ := hpart
  rw [valueFrom_append]
  exact le_valueFrom

/-! ### Reading -/

/-- The limit holds for all of the digits exactly if it holds for their value. -/
theorem readDigits_eq_ok (hvalue : value ≤ limit) : readDigits limit value cs = .ok n ↔
    AllDigits cs ∧ valueFrom value cs = n ∧ n ≤ limit := by
  induction cs generalizing value with
  | nil =>
    simp only [readDigits, Except.ok.injEq, valueFrom_nil]
    constructor
    · rintro rfl
      exact ⟨by simp [AllDigits], rfl, hvalue⟩
    · rintro ⟨-, rfl, -⟩
      rfl
  | cons c cs ih =>
    by_cases hc : c.isDigit = true
    · have hall : AllDigits (c :: cs) ↔ AllDigits cs := by simp [AllDigits, hc]
      rw [hall, valueFrom_cons]
      simp only [readDigits, digit?_of_isDigit hc]
      by_cases hle : value * 10 + (c.toNat - '0'.toNat) ≤ limit
      · rw [if_pos hle]
        exact ih hle
      · rw [if_neg hle]
        refine iff_of_false nofun ?_
        rintro ⟨-, rfl, hn⟩
        exact hle (Nat.le_trans le_valueFrom hn)
    · simp only [readDigits, digit?_of_not_isDigit hc]
      exact iff_of_false nofun fun h => hc (h.1 c (List.mem_cons_self ..))

theorem denotes_plus : Denotes ('+' :: cs) n ↔ cs ≠ [] ∧ AllDigits cs ∧ valueFrom 0 cs = n := by
  constructor
  · rintro ⟨digits, hdigits | hdigits, hne, hall, hn⟩
    · subst hdigits
      exact absurd (List.mem_cons_self ..) (not_mem_of_allDigits hall (by decide))
    · cases hdigits
      exact ⟨hne, hall, hn⟩
  · rintro ⟨hne, hall, hn⟩
    exact ⟨cs, .inr rfl, hne, hall, hn⟩

theorem denotes_of_head_ne (h : cs.head? ≠ some '+') :
    Denotes cs n ↔ cs ≠ [] ∧ AllDigits cs ∧ valueFrom 0 cs = n := by
  constructor
  · rintro ⟨digits, rfl | rfl, hne, hall, hn⟩
    · exact ⟨hne, hall, hn⟩
    · exact absurd rfl h
  · rintro ⟨hne, hall, hn⟩
    exact ⟨cs, .inl rfl, hne, hall, hn⟩

theorem read_eq_ok : read limit text = .ok n ↔ Denotes text n ∧ n ≤ limit := by
  have hzero : 0 ≤ limit := Nat.zero_le limit
  unfold read
  split
  · refine iff_of_false nofun ?_
    rintro ⟨⟨digits, hdigits, hne, -⟩, -⟩
    simp_all
  · refine iff_of_false nofun ?_
    rintro ⟨hdenotes, -⟩
    exact (denotes_plus.1 hdenotes).1 rfl
  · next cs hne =>
    rw [readDigits_eq_ok hzero, denotes_plus]
    have hcs : cs ≠ [] := fun h => hne (by rw [h])
    simp [hcs, and_assoc]
  · next hnil _ hplus =>
    have hhead : text.head? ≠ some '+' := by
      rintro h
      obtain ⟨cs, rfl⟩ := List.head?_eq_some_iff.1 h
      exact hplus cs rfl
    have hne : text ≠ [] := hnil
    rw [readDigits_eq_ok hzero, denotes_of_head_ne hhead]
    simp [hne, and_assoc]

/-- A type of numbers up to the limit has the numeral of each of them. -/
theorem map_read_eq_ok {α : Type} {ofNat : Nat → α} {toNat : α → Nat} {a : α}
    (hof : ofNat (toNat a) = a) (hto : ∀ n ≤ limit, toNat (ofNat n) = n) (ha : toNat a ≤ limit) :
    (read limit text).map ofNat = .ok a ↔ Denotes text (toNat a) := by
  constructor
  · intro h
    cases hread : read limit text with
    | error fault =>
      rw [hread] at h
      cases h
    | ok n =>
      rw [hread] at h
      cases h
      obtain ⟨hdenotes, hn⟩ := read_eq_ok.1 hread
      rwa [hto n hn]
  · intro hdenotes
    rw [read_eq_ok.2 ⟨hdenotes, ha⟩]
    exact congrArg Except.ok hof

theorem readUInt16_eq_ok {p : UInt16} : readUInt16 text = .ok p ↔ Denotes text p.toNat :=
  map_read_eq_ok UInt16.ofNat_toNat
    (fun n hn => UInt16.toNat_ofNat_of_lt' (Nat.lt_of_le_pred (by decide) hn))
    (Nat.le_pred_of_lt p.toNat_lt_size)

theorem readUInt64_eq_ok {m : UInt64} : readUInt64 text = .ok m ↔ Denotes text m.toNat :=
  map_read_eq_ok UInt64.ofNat_toNat
    (fun n hn => UInt64.toNat_ofNat_of_lt' (Nat.lt_of_le_pred (by decide) hn))
    (Nat.le_pred_of_lt m.toNat_lt_size)

/-! ### Writing -/

theorem allDigits_write : AllDigits (write n) := fun _ hc =>
  Nat.isDigit_of_mem_toDigits (by decide) (by decide) hc

theorem write_ne_nil : write n ≠ [] := Nat.toDigits_ne_nil

theorem exists_write_eq_cons : ∃ c digits, write n = c :: digits ∧ c.isDigit = true := by
  obtain ⟨c, digits, hwrite⟩ := List.exists_cons_of_ne_nil (write_ne_nil (n := n))
  exact ⟨c, digits, hwrite, allDigits_write (n := n) c (by simp [hwrite])⟩

theorem valueFrom_write : valueFrom 0 (write n) = n := Nat.ofDigitChars_ten_toDigits

theorem denotes_write : Denotes (write n) n :=
  ⟨write n, .inl rfl, write_ne_nil, allDigits_write, valueFrom_write⟩

theorem digitChar_of_isDigit (h : c.isDigit = true) : Nat.digitChar (c.toNat - '0'.toNat) = c := by
  obtain ⟨hlow, hhigh⟩ := toNat_of_isDigit h
  have hall : ∀ d < 10, Nat.digitChar d = Char.ofNat (d + 48) := by decide
  rw [hall _ (by show c.toNat - 48 < 10; omega)]
  show Char.ofNat (c.toNat - 48 + 48) = c
  rw [Nat.sub_add_cancel hlow, Char.ofNat_toNat]

/-- The first digit that is written is no zero, unless the number is. -/
theorem head?_write_ne (h : 0 < n) : (write n).head? ≠ some '0' := by
  induction n using Nat.strongRecOn with
  | ind n ih =>
    unfold write at ih ⊢
    by_cases hn : n < 10
    · rw [Nat.toDigits_of_lt_base hn]
      have hall : ∀ d < 10, 0 < d → Nat.digitChar d ≠ '0' := by decide
      simpa using hall n hn h
    · rw [Nat.toDigits_of_base_le (by decide) (by omega), List.head?_append,
        List.head?_eq_some_head Nat.toDigits_ne_nil, Option.some_or,
        ← List.head?_eq_some_head Nat.toDigits_ne_nil]
      exact ih (n / 10) (by omega) (by omega)

theorem isPlain_write : IsPlain (write n) := by
  refine ⟨write_ne_nil, allDigits_write, fun hhead => ?_⟩
  rcases Nat.eq_zero_or_pos n with rfl | hn
  · rfl
  · exact absurd hhead (head?_write_ne hn)

/-- A number has no other digits than those that are written for it. -/
theorem eq_write_of_plain (h : IsPlain digits) : digits = write (valueFrom 0 digits) := by
  induction digits using List.reverseRecOn with
  | nil => exact absurd rfl h.ne_nil
  | append_singleton ds d ih =>
    have hd : d.isDigit = true := h.allDigits d (by simp)
    have hlt : d.toNat - '0'.toNat < 10 := by
      have := toNat_of_isDigit hd
      show d.toNat - 48 < 10
      omega
    have hlast : write (d.toNat - '0'.toNat) = [d] := by
      unfold write
      rw [Nat.toDigits_of_lt_base hlt, digitChar_of_isDigit hd]
    by_cases hnil : ds = []
    · subst hnil
      rw [List.nil_append, valueFrom_cons, valueFrom_nil, Nat.zero_mul, Nat.zero_add, hlast]
    · have hhead : ds.head? ≠ some '0' := by
        intro hzero
        have heq := h.head (by rw [List.head?_append, hzero, Option.some_or])
        have hlen := congrArg List.length heq
        simp [hnil] at hlen
      have hds := ih ⟨hnil, fun c hc => h.allDigits c (by simp [hc]), fun hz => absurd hz hhead⟩
      have hpos : 0 < valueFrom 0 ds := by
        rcases Nat.eq_zero_or_pos (valueFrom 0 ds) with hz | hpos
        · rw [hz] at hds
          exact absurd (by rw [hds]; rfl) hhead
        · exact hpos
      have hvalue : valueFrom 0 (ds ++ [d]) = 10 * valueFrom 0 ds + (d.toNat - '0'.toNat) := by
        unfold valueFrom
        rw [Nat.ofDigitChars_append, Nat.ofDigitChars_cons, Nat.ofDigitChars_nil]
      calc ds ++ [d] = write (valueFrom 0 ds) ++ write (d.toNat - '0'.toNat) := by
            rw [← hds, hlast]
        _ = write (valueFrom 0 (ds ++ [d])) := by
            rw [hvalue]
            exact Nat.toDigits_append_toDigits (by decide) hpos hlt

/-! ### Padding -/

theorem length_write_le {k : Nat} (hk : 0 < k) (h : n < 10 ^ k) : (write n).length ≤ k :=
  (Nat.length_toDigits_le_iff (by decide) hk).2 h

variable {width : Nat}

theorem allDigits_padded : AllDigits (padded width n) :=
  (allDigits_zeros _).append allDigits_write

theorem valueFrom_padded : valueFrom 0 (padded width n) = n := by
  unfold padded
  rw [valueFrom_append, valueFrom_zeros, Nat.zero_mul, valueFrom_write]

theorem length_padded (hwidth : 0 < width) (h : n < 10 ^ width) :
    (padded width n).length = width := by
  have hlength := length_write_le hwidth h
  unfold padded
  rw [List.length_append, List.length_replicate]
  omega

theorem padded_ne_nil : padded width n ≠ [] := by
  unfold padded
  simp [write_ne_nil]

end LoadGenerator.Numeral
