import LoadGenerator.Proofs.Json.Agreement

/-!
# What is read is of the grammar

The converse of what is said about values that may be written: where a reader of strings, counts or
names has read something, a text of the grammar stands for it (`stringValue_sound`, `count_sound`,
`enumeration_sound`), and what `skip` passes over is a value (`skip_sound`). So nothing is read that
is not JSON.
-/

namespace LoadGenerator.Json

variable {c : Char} {cs s text tail rest : List Char} {positive : Bool} {number : Number}
  {digits taken value n : Nat}

/-! ### Blanks, words and strings -/

theorem exists_blanks (cs : List Char) :
    ∃ blanks, AllBlank blanks ∧ cs = blanks ++ skipBlanks cs :=
  ⟨cs.takeWhile isBlank, List.all_eq_true.1 List.all_takeWhile,
    List.takeWhile_append_dropWhile.symm⟩

theorem exists_blanks_of_skipBlanks (h : skipBlanks cs = text) :
    ∃ blanks, AllBlank blanks ∧ cs = blanks ++ text := by
  rw [← h]
  exact exists_blanks cs

theorem word_sound {expected : List Char} {u : Unit} (h : word expected cs = .ok (u, rest)) :
    cs = expected ++ rest := by
  induction expected generalizing cs with
  | nil =>
    cases h
    rfl
  | cons e expected ih =>
    cases cs with
    | nil => cases h
    | cons c cs =>
      unfold word at h
      split_ifs at h with hc
      · rw [hc, ih h]
        rfl
      · cases h

theorem colon_sound {u : Unit} (h : colon cs = .ok (u, rest)) :
    ∃ blanks, AllBlank blanks ∧ cs = blanks ++ ':' :: rest := by
  unfold colon at h
  split at h
  · cases h
  · next c tail hfirst =>
    split_ifs at h with hc
    · subst hc
      cases h
      exact exists_blanks_of_skipBlanks hfirst
    · cases h

theorem skipString_sound {u : Unit} (h : skipString cs = .ok (u, rest)) :
    ∃ body, IsBody body ∧ cs = body ++ '"' :: rest := by
  -- one case for each way through `skipString`
  fun_induction skipString cs with
  | case1 | case3 | case8 | case9 => cases h
  | case5 | case6 => exact absurd h failHex_ne_ok
  | case2 =>
    cases h
    exact ⟨[], .nil, rfl⟩
  | case4 _ _ _ _ _ hhex _ ih =>
    obtain ⟨n, hn⟩ := Option.isSome_iff_exists.1 hhex
    obtain ⟨body, hbody, rfl⟩ := ih h
    exact ⟨_, .code (hex?_eq_some.1 hn) hbody, rfl⟩
  | case7 _ _ _ hescape _ ih =>
    obtain ⟨x, hx⟩ := Option.isSome_iff_exists.1 hescape
    obtain ⟨body, hbody, rfl⟩ := ih h
    exact ⟨_, .short (escape?_eq_some.1 hx) hbody, rfl⟩
  | case10 c _ hquote hescape hcontrol ih =>
    obtain ⟨body, hbody, rfl⟩ := ih h
    exact ⟨_, .plain (isPlainChar_iff.2 ⟨hquote, hescape, hcontrol⟩) hbody, rfl⟩

/-! ### Numbers that are passed over -/

/-- The digits in front of a text. -/
theorem exists_digits (cs : List Char) : ∃ digits, Numeral.AllDigits digits ∧
    cs = digits ++ cs.dropWhile isDigit ∧ (startsWithDigit cs = true → digits ≠ []) := by
  refine ⟨cs.takeWhile isDigit, fun c hc => ?_, List.takeWhile_append_dropWhile.symm, fun h => ?_⟩
  · rw [← isDigit_eq]
    exact List.all_eq_true.1 List.all_takeWhile c hc
  · cases cs with
    | nil => cases h
    | cons c cs =>
      rw [List.takeWhile_cons_of_pos (p := isDigit) h]
      exact List.cons_ne_nil _ _

theorem skipExponent_eq (cs : List Char) : ∃ sign tail, sign ∈ [[], ['+'], ['-']] ∧
    cs = sign ++ tail ∧ skipExponent cs = if startsWithDigit tail then
      .ok ((), tail.dropWhile isDigit) else failAhead .invalidNumber tail := by
  unfold skipExponent
  split
  · exact ⟨['+'], _, by simp, rfl, rfl⟩
  · exact ⟨['-'], _, by simp, rfl, rfl⟩
  · exact ⟨[], _, by simp, rfl, rfl⟩

theorem skipExponent_sound {letter : Char} {u : Unit} (hletter : letter ∈ ['e', 'E'])
    (h : skipExponent cs = .ok (u, rest)) :
    ∃ text, IsExponent text ∧ letter :: cs = text ++ rest := by
  obtain ⟨sign, tail, hsign, rfl, heq⟩ := skipExponent_eq cs
  rw [heq] at h
  split_ifs at h with hstarts
  · cases h
    obtain ⟨digits, hdigits, htail, hne⟩ := exists_digits tail
    refine ⟨_, .present hletter hsign (hne hstarts) hdigits, ?_⟩
    rw [List.cons_append, List.append_assoc, ← htail]
  · cases h

theorem skipExponentOrEnd_sound {u : Unit} (h : skipExponentOrEnd cs = .ok (u, rest)) :
    ∃ text, IsExponent text ∧ cs = text ++ rest := by
  cases cs with
  | nil =>
    cases h
    exact ⟨[], .absent, rfl⟩
  | cons c cs =>
    simp only [skipExponentOrEnd] at h
    split_ifs at h with hc
    · refine skipExponent_sound ?_ h
      simpa [isExponentLetter] using hc
    · cases h
      exact ⟨[], .absent, rfl⟩

theorem skipFraction_sound {u : Unit} (h : skipFraction cs = .ok (u, rest)) :
    ∃ fraction exponent, IsFraction fraction ∧ IsExponent exponent ∧
      cs = fraction ++ (exponent ++ rest) := by
  unfold skipFraction at h
  split at h
  · next cs =>
    split_ifs at h with hstarts
    · obtain ⟨exponent, hexponent, htail⟩ := skipExponentOrEnd_sound h
      obtain ⟨digits, hdigits, hcs, hne⟩ := exists_digits cs
      refine ⟨_, exponent, .present (hne hstarts) hdigits, hexponent, ?_⟩
      rw [List.cons_append, ← htail, ← hcs]
    · cases h
  · obtain ⟨exponent, hexponent, rfl⟩ := skipExponentOrEnd_sound h
    exact ⟨[], exponent, .absent, hexponent, rfl⟩

theorem skipNumber_sound {u : Unit} (h : skipNumber cs = .ok (u, rest)) :
    ∃ text, IsUnsigned text ∧ cs = text ++ rest := by
  cases cs with
  | nil => cases h
  | cons c cs =>
    simp only [skipNumber] at h
    split_ifs at h with hzero hstarts hdigit
    · cases h
    · obtain ⟨fraction, exponent, hfraction, hexponent, rfl⟩ := skipFraction_sound h
      subst hzero
      exact ⟨_, ⟨['0'], fraction, exponent, Numeral.isPlain_write (n := 0), hfraction, hexponent,
        rfl⟩, by simp⟩
    · obtain ⟨fraction, exponent, hfraction, hexponent, htail⟩ := skipFraction_sound h
      obtain ⟨digits, hdigits, hcs, -⟩ := exists_digits cs
      have hplain : Numeral.IsPlain (c :: digits) := by
        refine ⟨List.cons_ne_nil _ _, fun d hd => ?_, fun hhead => ?_⟩
        · rcases List.mem_cons.1 hd with rfl | hd
          · rwa [← isDigit_eq]
          · exact hdigits d hd
        · exact absurd (Option.some.inj hhead) hzero
      refine ⟨_, ⟨c :: digits, fraction, exponent, hplain, hfraction, hexponent, rfl⟩, ?_⟩
      rw [List.append_assoc, List.append_assoc, ← htail, List.cons_append, ← hcs]
    · cases h

/-! ### Values that are passed over -/

theorem skipKey_sound {u : Unit} (h : skipKey cs = .ok (u, rest)) :
    ∃ blanks body before, AllBlank blanks ∧ IsBody body ∧ AllBlank before ∧
      cs = blanks ++ '"' :: (body ++ '"' :: (before ++ ':' :: rest)) := by
  unfold skipKey at h
  split at h
  · cases h
  · next c tail hfirst =>
    split_ifs at h with hc
    · subst hc
      obtain ⟨_, mid, hstring, hcolon⟩ := bind_eq_ok.1 h
      obtain ⟨blanks, hblanks, rfl⟩ := exists_blanks_of_skipBlanks hfirst
      obtain ⟨body, hbody, rfl⟩ := skipString_sound hstring
      obtain ⟨before, hbefore, rfl⟩ := colon_sound hcolon
      exact ⟨blanks, body, before, hblanks, hbody, hbefore, rfl⟩
    · cases h

/-- What is passed over with so many steps is a value. -/
def ValueSound (fuel : Nat) : Prop :=
  ∀ cs u rest, skipValue fuel cs = .ok (u, rest) →
    ∃ blanks text, AllBlank blanks ∧ IsValue text ∧ cs = blanks ++ (text ++ rest)

/-- What is passed over with so many steps is the rest of a list. -/
def ElementsSound (fuel : Nat) : Prop :=
  ∀ first cs u rest, skipElements fuel first cs = .ok (u, rest) →
    ∃ values text, Elements first values text ∧ (∀ value ∈ values, IsValue value) ∧
      cs = text ++ rest

/-- What is passed over with so many steps is the rest of an object. -/
def MembersSound (fuel : Nat) : Prop :=
  ∀ first cs u rest, skipMembers fuel first cs = .ok (u, rest) →
    ∃ members text, Members first members text ∧ (∀ member ∈ members, IsBody member.1) ∧
      (∀ member ∈ members, IsValue member.2) ∧ cs = text ++ rest

theorem valueSound_succ {fuel : Nat} (helements : ElementsSound fuel)
    (hmembers : MembersSound fuel) : ValueSound (fuel + 1) := by
  intro cs u rest h
  unfold skipValue at h
  obtain ⟨c, tail, hfirst, hread, -⟩ := onFirst_eq_ok h
  obtain ⟨blanks, hblanks, rfl⟩ := exists_blanks_of_skipBlanks hfirst
  suffices htext : ∃ text, IsValue text ∧ c :: tail = text ++ rest by
    obtain ⟨text, hvalue, heq⟩ := htext
    exact ⟨blanks, text, hblanks, hvalue, by rw [heq]⟩
  split_ifs at hread with hn ht hf hminus hdigit hquote hlist hobject
  · exact ⟨"null".toList, .word (by simp [words]), by rw [hn, word_sound hread]; rfl⟩
  · exact ⟨"true".toList, .word (by simp [words]), by rw [ht, word_sound hread]; rfl⟩
  · exact ⟨"false".toList, .word (by simp [words]), by rw [hf, word_sound hread]; rfl⟩
  · obtain ⟨text, htext, rfl⟩ := skipNumber_sound hread
    exact ⟨_, .negative htext, by rw [hminus]; rfl⟩
  · obtain ⟨text, htext, heq⟩ := skipNumber_sound hread
    exact ⟨text, .positive htext, heq⟩
  · obtain ⟨body, hbody, rfl⟩ := skipString_sound hread
    exact ⟨_, .string hbody, by rw [hquote, quoted_append]⟩
  · obtain ⟨values, text, htext, hvalues, rfl⟩ := helements _ _ _ _ hread
    exact ⟨_, .list htext hvalues, by rw [hlist]; rfl⟩
  · obtain ⟨members, text, htext, hkeys, hvalues, rfl⟩ := hmembers _ _ _ _ hread
    exact ⟨_, .object htext hkeys hvalues, by rw [hobject]; rfl⟩
  · cases hread

theorem elementsSound_succ {fuel : Nat} (hvalue : ValueSound fuel)
    (helements : ElementsSound fuel) : ElementsSound (fuel + 1) := by
  intro first cs u rest h
  unfold skipElements at h
  split at h
  · cases h
  next c tail hfirst =>
  obtain ⟨before, hbefore, rfl⟩ := exists_blanks_of_skipBlanks hfirst
  split_ifs at h with hclose hstart hcomma
  · cases h
    exact ⟨[], _, .close hbefore, by simp, by simp [hclose]⟩
  · subst hstart
    obtain ⟨_, mid, hskip, hrest⟩ := bind_eq_ok.1 h
    obtain ⟨blanks, part, hblanks, hpart, heq⟩ := hvalue _ _ _ hskip
    obtain ⟨values, text, htext, hvalues, rfl⟩ := helements _ _ _ _ hrest
    refine ⟨part :: values, _, .first (hbefore.append hblanks) rfl htext, ?_, ?_⟩
    · exact List.forall_mem_cons.2 ⟨hpart, hvalues⟩
    · rw [heq]
      simp
  · obtain ⟨_, mid, hskip, hrest⟩ := bind_eq_ok.1 h
    obtain ⟨blanks, part, hblanks, hpart, rfl⟩ := hvalue _ _ _ hskip
    obtain ⟨values, text, htext, hvalues, rfl⟩ := helements _ _ _ _ hrest
    obtain rfl : first = false := by simpa using hstart
    refine ⟨part :: values, _, .next hbefore hblanks rfl htext, ?_, ?_⟩
    · exact List.forall_mem_cons.2 ⟨hpart, hvalues⟩
    · simp [hcomma]
  · cases h

theorem membersSound_succ {fuel : Nat} (hvalue : ValueSound fuel)
    (hmembers : MembersSound fuel) : MembersSound (fuel + 1) := by
  intro first cs u rest h
  unfold skipMembers at h
  split at h
  · cases h
  next c tail hfirst =>
  obtain ⟨before, hbefore, rfl⟩ := exists_blanks_of_skipBlanks hfirst
  split_ifs at h with hclose hstart hcomma
  · cases h
    exact ⟨[], _, .close hbefore, by simp, by simp, by simp [hclose]⟩
  · subst hstart
    obtain ⟨_, mid, hkey, hafter⟩ := bind_eq_ok.1 h
    obtain ⟨_, mid', hskip, hrest⟩ := bind_eq_ok.1 hafter
    obtain ⟨start, body, gap, hgap, hbody, hcolon, heq⟩ := skipKey_sound hkey
    obtain ⟨blanks, part, hblanks, hpart, rfl⟩ := hvalue _ _ _ hskip
    obtain ⟨members, text, htext, hkeys, hvalues, rfl⟩ := hmembers _ _ _ _ hrest
    refine ⟨(body, part) :: members, _, .first (hbefore.append hgap)
      ⟨_, rfl, gap, blanks, hcolon, hblanks, rfl⟩ htext, ?_, ?_, ?_⟩
    · exact List.forall_mem_cons.2 ⟨hbody, hkeys⟩
    · exact List.forall_mem_cons.2 ⟨hpart, hvalues⟩
    · rw [heq]
      simp
  · obtain ⟨_, mid, hkey, hafter⟩ := bind_eq_ok.1 h
    obtain ⟨_, mid', hskip, hrest⟩ := bind_eq_ok.1 hafter
    obtain ⟨start, body, gap, hgap, hbody, hcolon, rfl⟩ := skipKey_sound hkey
    obtain ⟨blanks, part, hblanks, hpart, rfl⟩ := hvalue _ _ _ hskip
    obtain ⟨members, text, htext, hkeys, hvalues, rfl⟩ := hmembers _ _ _ _ hrest
    obtain rfl : first = false := by simpa using hstart
    refine ⟨(body, part) :: members, _, .next hbefore hgap
      ⟨_, rfl, gap, blanks, hcolon, hblanks, rfl⟩ htext, ?_, ?_, ?_⟩
    · exact List.forall_mem_cons.2 ⟨hbody, hkeys⟩
    · exact List.forall_mem_cons.2 ⟨hpart, hvalues⟩
    · simp [hcomma]
  · cases h

theorem skips_sound (fuel : Nat) :
    ValueSound fuel ∧ ElementsSound fuel ∧ MembersSound fuel := by
  induction fuel with
  | zero => exact ⟨nofun, nofun, nofun⟩
  | succ fuel ih =>
    obtain ⟨hvalue, helements, hmembers⟩ := ih
    exact ⟨valueSound_succ helements hmembers, elementsSound_succ hvalue helements,
      membersSound_succ hvalue hmembers⟩

/-- What is passed over is a value, after some blanks. -/
theorem skip_sound {u : Unit} (h : skip cs = .ok (u, rest)) :
    ∃ blanks text, AllBlank blanks ∧ IsValue text ∧ cs = blanks ++ (text ++ rest) :=
  (skips_sound _).1 _ _ _ h

/-! ### Strings and counts that are read -/

theorem text_sound {expected : String} (h : Json.text expected cs = .ok (s, rest)) :
    ∃ blanks body, AllBlank blanks ∧ Denotes body s ∧ cs = blanks ++ (quoted body ++ rest) := by
  obtain ⟨c, tail, hfirst, hread, -⟩ := onFirst_eq_ok h
  split_ifs at hread with hc
  · subst hc
    obtain ⟨blanks, hblanks, rfl⟩ := exists_blanks_of_skipBlanks hfirst
    obtain ⟨body, hbody, rfl⟩ := denotes_of_string hread
    exact ⟨blanks, body, hblanks, hbody, by rw [quoted_append]⟩
  · exact absurd hread mismatch_ne_ok

theorem stringValue_sound {t : String} (h : stringValue cs = .ok (t, rest)) :
    ∃ blanks body, AllBlank blanks ∧ Denotes body t.toList ∧
      cs = blanks ++ (quoted body ++ rest) := by
  obtain ⟨s, mid, htext, hs⟩ := bind_eq_ok.1 h
  cases hs
  rw [String.toList_ofList]
  exact text_sound htext

/-- The number is no integer. -/
def Number.IsReal (number : Number) : Prop :=
  ∃ x, number = .real x

section Real

variable {before : Int} {up : Bool}

theorem isReal_ofSign (positive : Bool) (x : Binary64) : (Number.ofSign positive x).IsReal :=
  ⟨_, rfl⟩

theorem isReal_of_real {exponent : Int} (h : real positive digits exponent cs = .ok (number, rest)) :
    number.IsReal := by
  unfold real at h
  split at h <;> cases h
  exact isReal_ofSign _ _

theorem isReal_of_exponentDigits
    (h : exponentDigits positive digits before up value cs = .ok (number, rest)) :
    number.IsReal := by
  induction cs generalizing value with
  | nil => exact isReal_of_real h
  | cons c cs ih =>
    unfold exponentDigits at h
    split at h
    · exact isReal_of_real h
    · split_ifs at h
      · exact ih h
      · cases h
      · cases h
        exact isReal_ofSign _ _

theorem isReal_of_exponentOrEnd
    (h : exponentOrEnd positive digits before cs = .ok (number, rest)) : number.IsReal := by
  cases cs with
  | nil => exact isReal_of_real h
  | cons c cs =>
    simp only [exponentOrEnd] at h
    split_ifs at h
    · unfold exponent at h
      split at h
      next up tail _ =>
      cases tail with
      | nil => cases h
      | cons d tail =>
        simp only at h
        split_ifs at h
        · exact isReal_of_exponentDigits h
        · cases h
    · exact isReal_of_real h

theorem isReal_of_decimals (h : decimals positive digits before cs = .ok (number, rest)) :
    number.IsReal := by
  unfold decimals at h
  split at h
  split at h
  · exact isReal_of_exponentOrEnd h
  · split at h
    · cases h
    · exact isReal_of_exponentOrEnd h

end Real

/-- An integer has nothing after its digits that would belong to a number. -/
theorem afterInteger_natural {m : UInt64}
    (h : afterInteger positive digits cs = .ok (.natural m, rest)) :
    positive = true ∧ m = UInt64.ofNat digits ∧ rest = cs := by
  unfold afterInteger at h
  split at h
  · obtain ⟨x, hx⟩ := isReal_of_decimals h
    cases hx
  · simp only at h
    split_ifs at h with hend
    · have hnone : cs.takeWhile isDigit = [] := List.length_eq_zero_iff.1 hend.1
      have hall : cs.dropWhile isDigit = cs := by
        conv_rhs => rw [← List.takeWhile_append_dropWhile (p := isDigit) (l := cs)]
        rw [hnone, List.nil_append]
      rw [hall] at h
      obtain ⟨hnumber, rfl⟩ := Prod.mk.inj (Except.ok.inj h)
      unfold Number.ofInteger at hnumber
      split_ifs at hnumber with hpositive
      · cases hnumber
        exact ⟨hpositive, rfl, rfl⟩
    · obtain ⟨x, hx⟩ := isReal_of_exponentOrEnd h
      cases hx

theorem fittingDigits_sound {t : Nat} (h : fittingDigits value taken cs = (n, t, tail))
    (hvalue : value < UInt64.size) : ∃ digits, Numeral.AllDigits digits ∧ cs = digits ++ tail ∧
      n = Numeral.valueFrom value digits ∧ n < UInt64.size := by
  induction cs generalizing value taken with
  | nil =>
    cases h
    exact ⟨[], by simp [Numeral.AllDigits], rfl, by simp, hvalue⟩
  | cons c cs ih =>
    have hstop : (value, taken, c :: cs) = (n, t, tail) → ∃ digits, Numeral.AllDigits digits ∧
        c :: cs = digits ++ tail ∧ n = Numeral.valueFrom value digits ∧ n < UInt64.size := by
      intro h
      cases h
      exact ⟨[], by simp [Numeral.AllDigits], rfl, by simp, hvalue⟩
    unfold fittingDigits at h
    split at h
    · exact hstop h
    · next d hd =>
      split_ifs at h with hfits
      · obtain ⟨digits, hdigits, hcs, hn, hsize⟩ := ih h hfits
        have hc : c.isDigit = true := by
          rw [← isDigit_eq]
          exact isDigit_of_digit? hd
        rw [Numeral.digit?_of_isDigit hc] at hd
        refine ⟨c :: digits, List.forall_mem_cons.2 ⟨hc, hdigits⟩, by rw [hcs]; rfl, ?_, hsize⟩
        rw [Numeral.valueFrom_cons, Option.some.inj hd]
        exact hn
      · exact hstop h

theorem unsigned_natural {m : UInt64} (h : unsigned positive cs = .ok (.natural m, rest)) :
    positive = true ∧ ∃ digits, Numeral.IsPlain digits ∧
      Numeral.valueFrom 0 digits = m.toNat ∧ cs = digits ++ rest := by
  cases cs with
  | nil => cases h
  | cons c cs =>
    simp only [unsigned] at h
    split at h
    · cases h
    · next hzero =>
      split_ifs at h
      · cases h
      · obtain ⟨hpositive, rfl, rfl⟩ := afterInteger_natural h
        refine ⟨hpositive, ['0'], Numeral.isPlain_write (n := 0), rfl, ?_⟩
        rw [eq_zero_of_digit? hzero]
        rfl
    · next d hne hd =>
      obtain ⟨hpositive, rfl, rfl⟩ := afterInteger_natural h
      have hc : c.isDigit = true := by
        rw [← isDigit_eq]
        exact isDigit_of_digit? hd
      rw [Numeral.digit?_of_isDigit hc] at hd
      have hlow := Numeral.toNat_of_isDigit hc
      have hd10 : d < UInt64.size := by
        have : c.toNat - 48 = d := Option.some.inj hd
        have : 10 ≤ UInt64.size := by decide
        omega
      have hfit : fittingDigits d 0 cs = (_, _, _) := rfl
      obtain ⟨digits, hdigits, hcs, hvalue, hsize⟩ := fittingDigits_sound hfit hd10
      refine ⟨hpositive, c :: digits, ⟨List.cons_ne_nil _ _,
        List.forall_mem_cons.2 ⟨hc, hdigits⟩, fun hhead => ?_⟩, ?_, congrArg (c :: ·) hcs⟩
      · rw [List.head?_cons, Option.some.injEq] at hhead
        subst hhead
        exact absurd (Option.some.inj hd).symm hne
      · rw [Numeral.valueFrom_cons, Nat.zero_mul, Nat.zero_add, Option.some.inj hd, ← hvalue,
          UInt64.toNat_ofNat_of_lt' hsize]

theorem count_sound {m : UInt64} (h : count cs = .ok (m, rest)) :
    ∃ blanks digits, AllBlank blanks ∧ Numeral.IsPlain digits ∧
      Numeral.valueFrom 0 digits = m.toNat ∧ cs = blanks ++ (digits ++ rest) := by
  obtain ⟨number, mid, hnumber, hcount⟩ := bind_eq_ok.1 h
  obtain ⟨c, tail, hfirst, hread, -⟩ := onFirst_eq_ok hnumber
  obtain ⟨blanks, hblanks, rfl⟩ := exists_blanks_of_skipBlanks hfirst
  cases number with
  | negative | real => cases hcount
  | natural =>
    cases hcount
    split_ifs at hread with hc
    · unfold Json.number at hread
      split at hread
      · cases (unsigned_natural hread).1
      · obtain ⟨-, digits, hplain, hvalue, heq⟩ := unsigned_natural hread
        exact ⟨blanks, digits, hblanks, hplain, hvalue, by rw [heq]⟩
    · exact absurd hread mismatch_ne_ok

/-! ### Names that are read -/

theorem null_sound {expected : String} {u : Unit} (h : null expected cs = .ok (u, rest)) :
    ∃ blanks, AllBlank blanks ∧ cs = blanks ++ ("null".toList ++ rest) := by
  obtain ⟨c, tail, hfirst, hread, -⟩ := onFirst_eq_ok h
  obtain ⟨blanks, hblanks, rfl⟩ := exists_blanks_of_skipBlanks hfirst
  split_ifs at hread with hc
  · exact ⟨blanks, hblanks, by rw [hc, word_sound hread]; rfl⟩
  · exact absurd hread mismatch_ne_ok

theorem variantKey_sound {name : List Char} (h : variantKey cs = .ok (name, rest)) :
    ∃ blanks body, AllBlank blanks ∧ Denotes body name ∧
      cs = blanks ++ '"' :: (body ++ '"' :: rest) := by
  unfold variantKey at h
  split at h
  · cases h
  · next c tail hfirst =>
    obtain ⟨blanks, hblanks, rfl⟩ := exists_blanks_of_skipBlanks hfirst
    split_ifs at h with hc
    · obtain ⟨body, hbody, rfl⟩ := denotes_of_string h
      exact ⟨blanks, body, hblanks, hbody, by rw [hc]⟩
    all_goals cases h

theorem variant_sound {β : Type} {known : List (String × β)} {name : List Char} {b : β}
    (h : variant known name cs = .ok (b, rest)) :
    known.lookup (String.ofList name) = some b ∧ rest = cs := by
  unfold variant at h
  split at h
  · next hknown =>
    cases h
    exact ⟨hknown, rfl⟩
  · cases h

theorem enumeration_sound {β : Type} {known : List (String × β)} {b : β}
    (h : enumeration known cs = .ok (b, rest)) :
    ∃ blanks name body value, AllBlank blanks ∧ known.lookup name = some b ∧
      Denotes body name.toList ∧ (value = quoted body ∨
        ∃ text, Members true [(body, "null".toList)] text ∧ value = '\x7b' :: text) ∧
      cs = blanks ++ (value ++ rest) := by
  obtain ⟨c, tail, hfirst, hread, -⟩ := onFirst_eq_ok h
  obtain ⟨blanks, hblanks, rfl⟩ := exists_blanks_of_skipBlanks hfirst
  split_ifs at hread with hobject hstring
  · obtain ⟨name, cs₁, hkey, hread⟩ := bind_eq_ok.1 hread
    obtain ⟨b', cs₂, hvariant, hread⟩ := bind_eq_ok.1 hread
    obtain ⟨_, cs₃, hcolon, hread⟩ := bind_eq_ok.1 hread
    obtain ⟨_, cs₄, hnull, hend⟩ := bind_eq_ok.1 hread
    obtain ⟨start, body, hstart, hbody, rfl⟩ := variantKey_sound hkey
    obtain ⟨hknown, rfl⟩ := variant_sound hvariant
    obtain ⟨before, hbefore, rfl⟩ := colon_sound hcolon
    obtain ⟨after, hafter, rfl⟩ := null_sound hnull
    simp only at hend
    split at hend
    · cases hend
    next d cs₅ hlast =>
    obtain ⟨last, hlastBlank, rfl⟩ := exists_blanks_of_skipBlanks hlast
    split_ifs at hend with hclose
    · cases hend
      refine ⟨blanks, _, body, _, hblanks, hknown, by rwa [String.toList_ofList],
        .inr ⟨_, .first hstart ⟨_, rfl, before, after, hbefore, hafter, rfl⟩ (.close hlastBlank),
          rfl⟩, ?_⟩
      simp [hobject, hclose]
    · cases hend
  · obtain ⟨name, cs₁, hname, hvariant⟩ := bind_eq_ok.1 hread
    obtain ⟨body, hbody, rfl⟩ := denotes_of_string hname
    obtain ⟨hknown, rfl⟩ := variant_sound hvariant
    exact ⟨blanks, _, body, _, hblanks, hknown, by rwa [String.toList_ofList], .inl rfl,
      by rw [hstring, quoted_append]⟩
  · cases hread

end LoadGenerator.Json
