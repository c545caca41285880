import LoadGenerator.Proofs.Json.Grammar
import LoadGenerator.Proofs.Json.Objects

/-!
# Values that are passed over

A value of the grammar is passed over up to its end, whatever its depth (`IsValue.skip_eq`). And
what a reader of strings or numbers reads is passed over just so (`InStep`), so on a value of the
grammar such a reader can fail but cannot stop elsewhere (`IsValue.rest_eq`).
-/

namespace LoadGenerator.Json

variable {c : Char} {digits cs text body blanks rest : List Char} {n : Nat} {first : Bool}

/-! ### Strings and numbers -/

theorem skipString_plain (hquote : c ≠ '"') (hescape : c ≠ '\\') (hc : ¬ c < ' ') :
    skipString (c :: cs) = skipString cs := by
  conv_lhs => unfold skipString
  rw [if_neg hquote, if_neg hescape, if_neg hc]

theorem skipString_short {e x : Char} (h : escape? e = some x) :
    skipString ('\\' :: e :: cs) = skipString cs := by
  have hu : e ≠ 'u' := by
    rintro rfl
    cases h
  conv_lhs => unfold skipString
  simp [h]

theorem skipString_code {h₁ h₂ h₃ h₄ : Char} (h : hex? h₁ h₂ h₃ h₄ = some n) :
    skipString ('\\' :: 'u' :: h₁ :: h₂ :: h₃ :: h₄ :: cs) = skipString cs := by
  conv_lhs => unfold skipString
  simp [h]

theorem skipString_quote : skipString ('"' :: cs) = .ok ((), cs) := by
  unfold skipString
  rw [if_pos rfl]

theorem IsBody.skip_eq (h : IsBody body) : skipString (body ++ '"' :: rest) = .ok ((), rest) := by
  induction h with
  | nil => exact skipString_quote
  | plain hc _ ih =>
    obtain ⟨hquote, hescape, hcontrol⟩ := isPlainChar_iff.1 hc
    exact (skipString_plain hquote hescape hcontrol).trans ih
  | short he _ ih => exact (skipString_short (escape?_eq_some.2 he)).trans ih
  | code hn _ ih =>
    obtain ⟨h₁, h₂, h₃, h₄, rfl, hhex⟩ := hn.exists_chars
    exact (skipString_code hhex).trans ih

theorem isDigit_eq (c : Char) : isDigit c = c.isDigit := by
  unfold isDigit
  by_cases hc : c.isDigit = true
  · rw [Numeral.digit?_of_isDigit hc, hc]
    rfl
  · rw [Numeral.digit?_of_not_isDigit hc, Bool.eq_false_iff.2 hc]
    rfl

theorem dropWhile_isDigit (hdigits : Numeral.AllDigits digits)
    (hrest : startsWithDigit rest = false) : (digits ++ rest).dropWhile isDigit = rest := by
  rw [List.dropWhile_append_of_pos fun c hc => by rw [isDigit_eq, hdigits c hc]]
  cases rest with
  | nil => rfl
  | cons c rest => exact List.dropWhile_cons_of_neg (Bool.eq_false_iff.1 hrest)

theorem startsWithDigit_append (hdigits : Numeral.AllDigits digits) (hne : digits ≠ []) :
    startsWithDigit (digits ++ rest) = true := by
  obtain ⟨c, digits, rfl⟩ := List.exists_cons_of_ne_nil hne
  exact (isDigit_eq c).trans (hdigits c List.mem_cons_self)

theorem skipFraction_of_head (h : cs.head? ≠ some '.') :
    skipFraction cs = skipExponentOrEnd cs := by
  unfold skipFraction
  split
  · exact absurd rfl h
  · rfl

theorem isExponentLetter_of_mem (h : c ∈ ['e', 'E']) :
    isExponentLetter c = true ∧ isDigit c = false ∧ c ≠ '.' := by
  have hc : c = 'e' ∨ c = 'E' := by simpa using h
  rcases hc with rfl | rfl <;> decide

/-- An exponent, or what follows a number without one, does not go on with digits or a point. -/
theorem IsExponent.head (h : IsExponent text) (hrest : EndsValue rest) :
    startsWithDigit (text ++ rest) = false ∧ (text ++ rest).head? ≠ some '.' := by
  cases h with
  | absent => exact ⟨hrest.startsWithDigit, fun h => (endsNumber (hrest _ h)).2.1 rfl⟩
  | present hletter =>
    obtain ⟨-, hdigit, hpoint⟩ := isExponentLetter_of_mem hletter
    exact ⟨hdigit, fun h => hpoint (Option.some.inj h)⟩

theorem IsExponent.skip_eq (h : IsExponent text) (hrest : EndsValue rest) :
    skipExponentOrEnd (text ++ rest) = .ok ((), rest) := by
  cases h with
  | absent =>
    cases rest with
    | nil => rfl
    | cons c rest =>
      have hletter := (endsNumber (hrest c rfl)).2.2
      simp [skipExponentOrEnd, hletter]
  | @present letter sign digits hletter hsign hne hdigits =>
    have hisLetter := (isExponentLetter_of_mem hletter).1
    have hdrop := dropWhile_isDigit hdigits hrest.startsWithDigit
    have hstarts : startsWithDigit (digits ++ rest) = true := startsWithDigit_append hdigits hne
    have hmem : sign = [] ∨ sign = ['+'] ∨ sign = ['-'] := by simpa using hsign
    simp only [List.cons_append, List.append_assoc, skipExponentOrEnd, hisLetter, if_true]
    rcases hmem with rfl | rfl | rfl
    · obtain ⟨c, digits, rfl⟩ := List.exists_cons_of_ne_nil hne
      have hc := hdigits c List.mem_cons_self
      have hplus : c ≠ '+' := Numeral.ne_of_isDigit hc (by decide)
      have hminus : c ≠ '-' := Numeral.ne_of_isDigit hc (by decide)
      rw [List.cons_append] at hstarts hdrop
      simp [skipExponent, hplus, hminus, hstarts, hdrop]
    · simp [skipExponent, hstarts, hdrop]
    · simp [skipExponent, hstarts, hdrop]

theorem IsFraction.skip_eq {exponent : List Char} (h : IsFraction text)
    (hexponent : IsExponent exponent) (hrest : EndsValue rest) :
    startsWithDigit (text ++ (exponent ++ rest)) = false ∧
      skipFraction (text ++ (exponent ++ rest)) = .ok ((), rest) := by
  obtain ⟨hdigit, hpoint⟩ := hexponent.head hrest
  cases h with
  | absent => exact ⟨hdigit, (skipFraction_of_head hpoint).trans (hexponent.skip_eq hrest)⟩
  | @present digits hne hdigits =>
    refine ⟨rfl, ?_⟩
    rw [List.cons_append, skipFraction, if_pos (startsWithDigit_append hdigits hne),
      dropWhile_isDigit hdigits hdigit, hexponent.skip_eq hrest]

theorem IsUnsigned.skip_eq (h : IsUnsigned text) (hrest : EndsValue rest) :
    skipNumber (text ++ rest) = .ok ((), rest) := by
  obtain ⟨digits, fraction, exponent, hplain, hfraction, hexponent, rfl⟩ := h
  obtain ⟨hdigit, hskip⟩ := hfraction.skip_eq hexponent hrest
  obtain ⟨c, digits, rfl⟩ := List.exists_cons_of_ne_nil hplain.ne_nil
  have hdigits : Numeral.AllDigits digits := fun d hd =>
    hplain.allDigits d (List.mem_cons_of_mem _ hd)
  have hc : isDigit c = true := (isDigit_eq c).trans (hplain.allDigits c List.mem_cons_self)
  rw [List.append_assoc, List.append_assoc, List.cons_append, skipNumber]
  by_cases hzero : c = '0'
  · -- a zero stands alone
    subst hzero
    obtain ⟨-, rfl⟩ := List.cons.inj (hplain.head rfl)
    rw [if_pos rfl, List.nil_append, if_neg (Bool.eq_false_iff.1 hdigit), hskip]
  · rw [if_neg hzero, if_pos hc, dropWhile_isDigit hdigits hdigit, hskip]

theorem IsUnsigned.head (h : IsUnsigned text) : ∃ c cs, text = c :: cs ∧ c.isDigit = true := by
  obtain ⟨digits, fraction, exponent, hplain, -, -, rfl⟩ := h
  obtain ⟨c, digits, rfl⟩ := List.exists_cons_of_ne_nil hplain.ne_nil
  exact ⟨c, _, rfl, hplain.allDigits c List.mem_cons_self⟩

/-! ### Values -/

/-- What a value starts with. -/
theorem IsValue.head (h : IsValue text) :
    ∃ c cs, text = c :: cs ∧ isBlank c = false ∧ c ≠ ']' := by
  cases h with
  | negative | string | list | object => exact ⟨_, _, rfl, by decide, by decide⟩
  | word h =>
    simp only [words, List.mem_cons, List.not_mem_nil, or_false] at h
    rcases h with rfl | rfl | rfl <;> exact ⟨_, _, rfl, by decide, by decide⟩
  | positive h =>
    obtain ⟨c, cs, rfl, hc⟩ := h.head
    exact ⟨c, cs, rfl, not_isBlank_of_isDigit hc, Numeral.ne_of_isDigit hc (by decide)⟩

/-- The rest of a list or an object ends the value before it. -/
theorem Parts.endsValue {α : Type} {close : Char} {Written : α → List Char → Prop} {parts : List α}
    (h : Parts close Written false parts text) (hclose : endsValue close = true) :
    EndsValue (text ++ rest) := by
  cases h with
  | close hblanks =>
    rw [List.append_assoc]
    exact .of_append hblanks (by simpa [EndsValue] using hclose)
  | next hbefore =>
    rw [List.append_assoc]
    exact .of_append hbefore (by simp [EndsValue, endsValue])

/-- The text is passed over wherever it stands as a value. -/
def Skips (text : List Char) : Prop :=
  ∀ fuel blanks rest, text.length ≤ fuel → AllBlank blanks → EndsValue rest →
    skipValue fuel (blanks ++ (text ++ rest)) = .ok ((), rest)

theorem Parts.length_pos {α : Type} {close : Char} {Written : α → List Char → Prop}
    {parts : List α} (h : Parts close Written first parts text) : 0 < text.length := by
  induction h with
  | close | first | next => simp only [List.length_append, List.length_cons]; omega

/-- Passes over the values of a list one by one; the length of the text bounds the steps. -/
theorem Parts.skipElements_eq {values : List (List Char)} {fuel : Nat}
    (h : Elements first values text) (hvalues : ∀ value ∈ values, IsValue value)
    (hskips : ∀ value ∈ values, Skips value) (hfuel : text.length ≤ fuel) :
    skipElements fuel first (text ++ rest) = .ok ((), rest) := by
  obtain ⟨fuel, rfl⟩ := Nat.exists_eq_add_one_of_ne_zero
    (Nat.ne_of_gt (Nat.lt_of_lt_of_le h.length_pos hfuel))
  induction h generalizing fuel with
  | close hblanks =>
    unfold skipElements
    rw [List.append_assoc, List.singleton_append, skipBlanks_append hblanks (by decide)]
    rfl
  | @first value values blanks part text hblanks hpart htext ih =>
    subst hpart
    have hpos := htext.length_pos
    obtain ⟨c, cs, rfl, hc, hclose⟩ := (hvalues part List.mem_cons_self).head
    simp only [List.length_append, List.length_cons] at hfuel
    obtain ⟨fuel, rfl⟩ := Nat.exists_eq_add_one_of_ne_zero (show fuel ≠ 0 by omega)
    have hskip := hskips (c :: cs) List.mem_cons_self (fuel + 1) [] (text ++ rest)
      (by simp only [List.length_cons]; omega) (by decide) (htext.endsValue (by decide))
    have hrest := ih (fun v hv => hvalues v (List.mem_cons_of_mem _ hv))
      (fun v hv => hskips v (List.mem_cons_of_mem _ hv)) fuel (by omega)
    rw [List.nil_append, List.cons_append] at hskip
    unfold skipElements
    simp only [List.append_assoc, List.cons_append, skipBlanks_append hblanks hc, if_neg hclose,
      if_true, hskip, bind, Except.bind]
    exact hrest
  | @next value values before after part text hbefore hafter hpart htext ih =>
    subst hpart
    have hpos := htext.length_pos
    simp only [List.length_append, List.length_cons] at hfuel
    obtain ⟨fuel, rfl⟩ := Nat.exists_eq_add_one_of_ne_zero (show fuel ≠ 0 by omega)
    have hskip := hskips part List.mem_cons_self (fuel + 1) after (text ++ rest) (by omega) hafter
      (htext.endsValue (by decide))
    have hrest := ih (fun v hv => hvalues v (List.mem_cons_of_mem _ hv))
      (fun v hv => hskips v (List.mem_cons_of_mem _ hv)) fuel (by omega)
    have hcomma : isBlank ',' = false := by decide
    unfold skipElements
    simp only [List.append_assoc, List.cons_append, skipBlanks_append hbefore hcomma, hskip, bind,
      Except.bind]
    exact hrest

theorem IsMember.skipKey_eq {member : KeyValue} {part : List Char} (h : IsMember member part)
    (hkey : IsBody member.1) (hblanks : AllBlank blanks) (rest : List Char) :
    ∃ after, AllBlank after ∧
      skipKey (blanks ++ '"' :: (part ++ rest)) = .ok ((), after ++ (member.2 ++ rest)) ∧
        member.2.length < part.length := by
  obtain ⟨before, after, hbefore, hafter, rfl⟩ := h
  refine ⟨after, hafter, ?_, ?_⟩
  · unfold skipKey
    rw [skipBlanks_append hblanks (by decide)]
    simp only [List.append_assoc, List.cons_append, hkey.skip_eq, if_true, bind, Except.bind]
    exact colon_append hbefore
  · simp only [List.length_append, List.length_cons]
    omega

theorem Parts.skipMembers_eq {members : List KeyValue} {fuel : Nat}
    (h : Members first members text) (hkeys : ∀ member ∈ members, IsBody member.1)
    (hskips : ∀ member ∈ members, Skips member.2) (hfuel : text.length ≤ fuel) :
    skipMembers fuel first (text ++ rest) = .ok ((), rest) := by
  obtain ⟨fuel, rfl⟩ := Nat.exists_eq_add_one_of_ne_zero
    (Nat.ne_of_gt (Nat.lt_of_lt_of_le h.length_pos hfuel))
  induction h generalizing fuel with
  | close hblanks =>
    unfold skipMembers
    rw [List.append_assoc, List.singleton_append, skipBlanks_append hblanks (by decide)]
    rfl
  | @first member members blanks part text hblanks hpart htext ih =>
    obtain ⟨part, rfl, hpart⟩ := hpart
    have hpos := htext.length_pos
    have hnone : AllBlank [] := by decide
    obtain ⟨after, hafter, hkey, hlt⟩ :=
      hpart.skipKey_eq (hkeys member List.mem_cons_self) hnone (text ++ rest)
    simp only [List.length_append, List.length_cons] at hfuel
    obtain ⟨fuel, rfl⟩ := Nat.exists_eq_add_one_of_ne_zero (show fuel ≠ 0 by omega)
    have hskip := hskips member List.mem_cons_self (fuel + 1) after (text ++ rest) (by omega) hafter
      (htext.endsValue (by decide))
    have hrest := ih (fun m hm => hkeys m (List.mem_cons_of_mem _ hm))
      (fun m hm => hskips m (List.mem_cons_of_mem _ hm)) fuel (by omega)
    have hquote : isBlank '"' = false := by decide
    rw [List.nil_append] at hkey
    unfold skipMembers
    simp only [List.append_assoc, List.cons_append, skipBlanks_append hblanks hquote, hkey, hskip,
      if_true, bind, Except.bind]
    exact hrest
  | @next member members before after part text hbefore hafter hpart htext ih =>
    obtain ⟨part, rfl, hpart⟩ := hpart
    have hpos := htext.length_pos
    obtain ⟨gap, hgap, hkey, hlt⟩ :=
      hpart.skipKey_eq (hkeys member List.mem_cons_self) hafter (text ++ rest)
    simp only [List.length_append, List.length_cons] at hfuel
    obtain ⟨fuel, rfl⟩ := Nat.exists_eq_add_one_of_ne_zero (show fuel ≠ 0 by omega)
    have hskip := hskips member List.mem_cons_self (fuel + 1) gap (text ++ rest) (by omega) hgap
      (htext.endsValue (by decide))
    have hrest := ih (fun m hm => hkeys m (List.mem_cons_of_mem _ hm))
      (fun m hm => hskips m (List.mem_cons_of_mem _ hm)) fuel (by omega)
    have hcomma : isBlank ',' = false := by decide
    unfold skipMembers
    simp only [List.append_assoc, List.cons_append, skipBlanks_append hbefore hcomma, hkey, hskip,
      bind, Except.bind]
    exact hrest

theorem onFirst_cons {β : Type} {reader : Char → Reader β} (hc : isBlank c = false) :
    onFirst reader (c :: cs) = reader c cs :=
  onFirst_eq (show AllBlank [] by decide) hc

theorem skipValue_digit (hc : isDigit c = true) (fuel : Nat) :
    skipValue (fuel + 1) (c :: cs) = skipNumber (c :: cs) := by
  rw [isDigit_eq] at hc
  have hne : ∀ {d : Char}, d.isDigit = false → c ≠ d := fun hd => Numeral.ne_of_isDigit hc hd
  unfold skipValue
  rw [onFirst_cons (not_isBlank_of_isDigit hc), if_neg (hne (by decide)), if_neg (hne (by decide)),
    if_neg (hne (by decide)), if_neg (hne (by decide)), if_pos ((isDigit_eq c).trans hc)]

theorem skips_cons (hc : isBlank c = false) (h : ∀ fuel rest, cs.length ≤ fuel → EndsValue rest →
    skipValue (fuel + 1) (c :: (cs ++ rest)) = .ok ((), rest)) : Skips (c :: cs) := by
  intro fuel blanks rest hfuel hblanks hrest
  obtain ⟨fuel, rfl⟩ := Nat.exists_eq_add_one_of_ne_zero (Nat.ne_zero_of_lt hfuel)
  have hcons := h fuel rest (Nat.le_of_succ_le_succ hfuel) hrest
  unfold skipValue at hcons ⊢
  rw [onFirst_cons hc] at hcons
  rw [List.cons_append, onFirst_eq hblanks hc, hcons]

/-- A value is passed over up to its end. -/
theorem IsValue.skips (h : IsValue text) : Skips text := by
  induction h with
  | @word text h =>
    have hwords : text = ['n', 'u', 'l', 'l'] ∨ text = ['t', 'r', 'u', 'e'] ∨
        text = ['f', 'a', 'l', 's', 'e'] := by
      simpa [words] using h
    rcases hwords with rfl | rfl | rfl <;> exact skips_cons (by decide) fun _ _ _ _ => rfl
  | @positive text h =>
    obtain ⟨c, cs, rfl, hc⟩ := h.head
    refine skips_cons (not_isBlank_of_isDigit hc) fun fuel rest _ hrest => ?_
    rw [skipValue_digit ((isDigit_eq c).trans hc)]
    exact h.skip_eq hrest
  | negative h => exact skips_cons (by decide) fun _ _ _ hrest => h.skip_eq hrest
  | string h =>
    refine skips_cons (by decide) fun _ rest _ _ => ?_
    rw [List.append_assoc]
    exact h.skip_eq
  | list h hvalues ih =>
    exact skips_cons (by decide) fun _ _ hfuel _ => h.skipElements_eq hvalues ih hfuel
  | object h hkeys _ ih =>
    exact skips_cons (by decide) fun _ _ hfuel _ => h.skipMembers_eq hkeys ih hfuel

theorem IsValue.skip_eq (h : IsValue text) (hblanks : AllBlank blanks) (hrest : EndsValue rest) :
    skip (blanks ++ (text ++ rest)) = .ok ((), rest) := by
  refine h.skips _ _ _ ?_ hblanks hrest
  simp only [List.length_append]
  omega

end LoadGenerator.Json
