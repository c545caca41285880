import LoadGenerator.Proofs.Json.Values

/-!
# Real numbers as they may be written

Digits on both sides of a point are read as the number that they make with a power of ten
(`spells_positional`), and so are digits with an exponent, as long as the result is not beyond all
numbers (`spells_exponential`). Only a power with a positive exponent can lead there.
-/

namespace LoadGenerator.Json

variable {whole places digits rest text : List Char} {value n : Nat} {before e : Int} {up : Bool}
  {positive : Bool} {x : Binary64}

/-! ### Parts of a number -/

theorem afterInteger_point (positive : Bool) (n : Nat) (rest : List Char) :
    afterInteger positive n ('.' :: rest) = decimals positive n 0 rest := by
  have hpoint : isDigit '.' = false := by decide
  simp [afterInteger, hpoint]

theorem afterInteger_letter (positive : Bool) (n : Nat) (rest : List Char) :
    afterInteger positive n ('e' :: rest) = exponentOrEnd positive n 0 ('e' :: rest) := by
  have hdigit : isDigit 'e' = false := by decide
  have hletter : isExponentLetter 'e' = true := by decide
  simp [afterInteger, hdigit, hletter]

theorem decimals_append (hplaces : Numeral.AllDigits places) (hne : places ≠ [])
    (hfits : Numeral.valueFrom n places < UInt64.size) (hrest : startsWithDigit rest = false) :
    decimals positive n before (places ++ rest) =
      exponentOrEnd positive (Numeral.valueFrom n places) (before - places.length) rest := by
  have hsome : places.length ≠ 0 := fun h => hne (List.length_eq_zero_iff.1 h)
  simp [decimals, fittingDigits_append hplaces hfits hrest, hrest, hsome]

theorem EndsValue.exponentOrEnd (h : EndsValue rest) (positive : Bool) (n : Nat) (before : Int) :
    exponentOrEnd positive n before rest = real positive n before rest := by
  cases rest with
  | nil => rfl
  | cons c rest =>
    obtain ⟨-, -, hletter⟩ := endsNumber (h c rfl)
    simp [Json.exponentOrEnd, hletter]

theorem exponentDigits_append (hdigits : Numeral.AllDigits digits)
    (hfits : Numeral.valueFrom value digits ≤ greatestExponent)
    (hrest : startsWithDigit rest = false) :
    exponentDigits positive n before up value (digits ++ rest) =
      real positive n (if up then before + Numeral.valueFrom value digits
        else before - Numeral.valueFrom value digits) rest := by
  induction digits generalizing value with
  | nil =>
    cases rest with
    | nil => simp [exponentDigits]
    | cons c rest =>
      have hc : Numeral.digit? c = none := by
        simpa [startsWithDigit, isDigit] using hrest
      simp [exponentDigits, hc]
  | cons c digits ih =>
    rw [Numeral.valueFrom_cons] at hfits ⊢
    have hstep : value * 10 + (c.toNat - '0'.toNat) ≤ greatestExponent :=
      Nat.le_trans Numeral.le_valueFrom hfits
    rw [List.cons_append, exponentDigits,
      Numeral.digit?_of_isDigit (hdigits c (List.mem_cons_self ..))]
    simp only [if_pos hstep]
    exact ih (fun d hd => hdigits d (List.mem_cons_of_mem _ hd)) hfits

/-- The mark of an exponent, and whether it is positive. -/
def marks : List (List Char × Bool) :=
  [([], true), (['+'], true), (['-'], false)]

theorem exponentOrEnd_append {mark : List Char} (hmark : (mark, up) ∈ marks)
    (hdigits : Numeral.AllDigits digits) (hne : digits ≠ [])
    (hfits : Numeral.valueFrom 0 digits ≤ greatestExponent)
    (hrest : startsWithDigit rest = false) :
    exponentOrEnd positive n before ('e' :: (mark ++ (digits ++ rest))) =
      real positive n (if up then before + Numeral.valueFrom 0 digits
        else before - Numeral.valueFrom 0 digits) rest := by
  rw [← exponentDigits_append hdigits hfits hrest]
  obtain ⟨c, digits, rfl⟩ := List.exists_cons_of_ne_nil hne
  have hc := hdigits c (List.mem_cons_self ..)
  have hdigit : isDigit c = true := by
    simp [isDigit, Numeral.digit?_of_isDigit hc]
  have hletter : isExponentLetter 'e' = true := by decide
  simp only [exponentOrEnd, hletter, if_true]
  simp only [marks, List.mem_cons, List.not_mem_nil, or_false, Prod.mk.injEq] at hmark
  rcases hmark with ⟨rfl, rfl⟩ | ⟨rfl, rfl⟩ | ⟨rfl, rfl⟩
  · simp [exponent, Numeral.ne_of_isDigit hc, hdigit]
  · simp [exponent, hdigit]
  · simp [exponent, hdigit]

theorem real_eq (h : scaled n e = some x) (rest : List Char) :
    real true n e rest = .ok (.real x, rest) := by
  unfold real
  rw [h]
  rfl

/-! ### Whole numbers -/

theorem spells_real (hne : whole ≠ []) (hwhole : Numeral.AllDigits whole)
    (h : ∀ rest, EndsValue rest → unsigned true (whole ++ (text ++ rest)) = .ok (.real x, rest)) :
    Spells realValue (whole ++ text) x := by
  intro blanks rest hblanks hrest
  have hread := h rest hrest
  obtain ⟨c, whole, rfl⟩ := List.exists_cons_of_ne_nil hne
  have hc := hwhole c (List.mem_cons_self ..)
  have hdigit : isDigit c = true := by
    simp [isDigit, Numeral.digit?_of_isDigit hc]
  have hnumber : number (c :: (whole ++ (text ++ rest))) = .ok (.real x, rest) := by
    unfold number
    simpa [Numeral.ne_of_isDigit hc] using hread
  unfold realValue numberValue
  rw [List.append_assoc, List.cons_append, onFirst_eq hblanks (not_isBlank_of_isDigit hc),
    if_pos (.inr hdigit), hnumber]
  rfl

theorem spells_positional (hwhole : Numeral.IsPlain whole) (hplaces : Numeral.AllDigits places)
    (hne : places ≠ []) (hfits : Numeral.valueFrom 0 (whole ++ places) < UInt64.size) :
    ∃ x, Spells realValue (whole ++ '.' :: places) x := by
  rw [Numeral.valueFrom_append] at hfits
  have hneg : (0 : Int) - places.length < 0 := by
    have := List.length_pos_iff.2 hne
    omega
  obtain ⟨x, hx⟩ : ∃ x, scaled (Numeral.valueFrom (Numeral.valueFrom 0 whole) places)
      (0 - places.length) = some x := ⟨_, if_pos hneg⟩
  refine ⟨x, spells_real hwhole.ne_nil hwhole.allDigits fun rest hrest => ?_⟩
  rw [List.cons_append, unsigned_digits hwhole (Nat.lt_of_le_of_lt Numeral.le_valueFrom hfits) rfl,
    afterInteger_point, decimals_append hplaces hne hfits hrest.startsWithDigit,
    hrest.exponentOrEnd]
  exact real_eq hx rest

theorem spells_exponential {mark : List Char} (hwhole : Numeral.IsPlain whole)
    (hplaces : Numeral.AllDigits places)
    (hfits : Numeral.valueFrom 0 (whole ++ places) < UInt64.size) (hmark : (mark, up) ∈ marks)
    (hdigits : Numeral.AllDigits digits) (hne : digits ≠ [])
    (hexponent : Numeral.valueFrom 0 digits ≤ greatestExponent)
    (hscaled : scaled (Numeral.valueFrom 0 (whole ++ places))
      ((if up then (Numeral.valueFrom 0 digits : Int) else -Numeral.valueFrom 0 digits) -
        places.length) = some x) :
    Spells realValue
      (whole ++ ((if places = [] then [] else '.' :: places) ++ 'e' :: (mark ++ digits))) x := by
  rw [Numeral.valueFrom_append] at hfits hscaled
  refine spells_real hwhole.ne_nil hwhole.allDigits fun rest hrest => ?_
  have hdigit := hrest.startsWithDigit
  have hfirst : Numeral.valueFrom 0 whole < UInt64.size :=
    Nat.lt_of_le_of_lt Numeral.le_valueFrom hfits
  by_cases hnone : places = []
  · subst hnone
    rw [if_pos rfl, List.nil_append, List.cons_append, List.append_assoc,
      unsigned_digits hwhole hfirst rfl, afterInteger_letter,
      exponentOrEnd_append hmark hdigits hne hexponent hdigit]
    refine real_eq ?_ rest
    rw [← hscaled]
    cases up <;> simp
  · rw [if_neg hnone, List.append_assoc, List.cons_append, List.cons_append, List.append_assoc,
      unsigned_digits hwhole hfirst rfl, afterInteger_point,
      decimals_append hplaces hnone hfits rfl,
      exponentOrEnd_append hmark hdigits hne hexponent hdigit]
    refine real_eq ?_ rest
    rw [← hscaled]
    congr 1
    split <;> omega

end LoadGenerator.Json
