import LoadGenerator.Proofs.Json.Skipping
import LoadGenerator.Proofs.Json.Spellings

/-!
# Reading and passing over agree

What a reader of strings, counts or names reads, `skip` passes over, up to the same place
(`InStep`). On a value of the grammar such a reader can therefore fail, but where it does not it
stops at the end of the value (`InStep.rest_eq`).
-/

namespace LoadGenerator.Json

variable {c : Char} {cs s text body blanks rest rest' : List Char} {positive : Bool}
  {number : Number} {digits taken value : Nat} {before : Int}

/-! ### Strings and numbers -/

theorem skipString_of_string (h : string cs = .ok (s, rest)) : skipString cs = .ok ((), rest) := by
  obtain ⟨body, hbody, rfl⟩ := string_eq_ok.1 h
  exact hbody.isBody.skip_eq

/-- A string that is read is read to its closing quote. -/
theorem IsBody.rest_eq (h : IsBody body) (hread : string (body ++ '"' :: rest) = .ok (s, rest')) :
    rest' = rest := by
  have hskip := skipString_of_string hread
  rw [h.skip_eq] at hskip
  cases hskip
  rfl

theorem rest_of_real {exponent : Int} (h : real positive digits exponent cs = .ok (number, rest)) :
    rest = cs := by
  unfold real at h
  split at h <;> cases h
  rfl

theorem isDigit_of_digit? {d : Nat} (h : Numeral.digit? c = some d) : isDigit c = true := by
  rw [isDigit, h]
  rfl

theorem eq_zero_of_digit? (h : Numeral.digit? c = some 0) : c = '0' := by
  unfold Numeral.digit? at h
  split at h
  · next hc =>
    have hle : c.toNat ≤ '0'.toNat := Nat.le_of_sub_eq_zero (Option.some.inj h)
    have hlow := hc.1
    rw [Char.le_def, UInt32.le_iff_toNat_le] at hlow
    exact Char.toNat_inj.1 (Nat.le_antisymm hle hlow)
  · cases h

theorem rest_of_exponentDigits {up : Bool}
    (h : exponentDigits positive digits before up value cs = .ok (number, rest)) :
    rest = cs.dropWhile isDigit := by
  induction cs generalizing value with
  | nil => exact rest_of_real h
  | cons c cs ih =>
    unfold exponentDigits at h
    split at h
    · next hdigit =>
      have hc : isDigit c = false := by rw [isDigit, hdigit]; rfl
      rw [List.dropWhile_cons_of_neg (Bool.eq_false_iff.1 hc)]
      exact rest_of_real h
    · next d hdigit =>
      rw [List.dropWhile_cons_of_pos (isDigit_of_digit? hdigit)]
      split at h
      · exact ih h
      · split at h <;> cases h
        rfl

theorem skipExponent_of_sign {up : Bool} {tail : List Char} (h : (match cs with
      | '+' :: cs => (true, cs)
      | '-' :: cs => (false, cs)
      | cs => (true, cs)) = (up, tail)) :
    skipExponent cs = if startsWithDigit tail then .ok ((), tail.dropWhile isDigit)
      else failAhead .invalidNumber tail := by
  unfold skipExponent
  split at h <;> cases h <;> simp_all

theorem skipExponent_of_exponent (h : exponent positive digits before cs = .ok (number, rest)) :
    skipExponent cs = .ok ((), rest) := by
  unfold exponent at h
  split at h
  next up tail hsign =>
  rw [skipExponent_of_sign hsign]
  cases tail with
  | nil => cases h
  | cons c tail =>
    simp only at h
    split at h
    · next hc =>
      have hstarts : startsWithDigit (c :: tail) = true := hc
      rw [rest_of_exponentDigits h, if_pos hstarts]
    · cases h

theorem skipExponentOrEnd_of_exponentOrEnd
    (h : exponentOrEnd positive digits before cs = .ok (number, rest)) :
    skipExponentOrEnd cs = .ok ((), rest) := by
  cases cs with
  | nil =>
    rw [rest_of_real h]
    rfl
  | cons c cs =>
    simp only [exponentOrEnd] at h
    simp only [skipExponentOrEnd]
    split at h
    · next hc => rw [if_pos hc, skipExponent_of_exponent h]
    · next hc => rw [if_neg hc, rest_of_real h]

theorem dropWhile_of_not_startsWithDigit (h : ¬ startsWithDigit cs = true) :
    cs.dropWhile isDigit = cs := by
  cases cs with
  | nil => rfl
  | cons c cs => exact List.dropWhile_cons_of_neg h

/-- The digits that fit are digits in front of the text. -/
theorem dropWhile_of_fittingDigits {n t : Nat} {tail : List Char}
    (h : fittingDigits value taken cs = (n, t, tail)) :
    tail.dropWhile isDigit = cs.dropWhile isDigit ∧
      (t = taken ∧ tail = cs ∨ startsWithDigit cs = true) := by
  induction cs generalizing value taken with
  | nil =>
    cases h
    exact ⟨rfl, .inl ⟨rfl, rfl⟩⟩
  | cons c cs ih =>
    unfold fittingDigits at h
    split at h
    · cases h
      exact ⟨rfl, .inl ⟨rfl, rfl⟩⟩
    · next d hdigit =>
      have hc := isDigit_of_digit? hdigit
      split at h
      · rw [List.dropWhile_cons_of_pos hc]
        exact ⟨(ih h).1, .inr hc⟩
      · cases h
        exact ⟨rfl, .inr hc⟩

theorem skipFraction_of_decimals (h : decimals positive digits before cs = .ok (number, rest)) :
    skipFraction ('.' :: cs) = .ok ((), rest) := by
  unfold decimals at h
  split at h
  next digits' taken tail hfit =>
  obtain ⟨hdrop, htaken⟩ := dropWhile_of_fittingDigits hfit
  have hboth : startsWithDigit cs = true ∧
      skipExponentOrEnd (cs.dropWhile isDigit) = .ok ((), rest) := by
    split at h
    · next hstarts =>
      refine ⟨htaken.elim (fun hsame => hsame.2 ▸ hstarts) id, ?_⟩
      rw [← hdrop, skipExponentOrEnd_of_exponentOrEnd h]
    · next hstarts =>
      rw [dropWhile_of_not_startsWithDigit hstarts] at hdrop
      split at h
      · cases h
      · next hpos =>
        refine ⟨htaken.resolve_left fun hsame => hpos hsame.1, ?_⟩
        rw [← hdrop, skipExponentOrEnd_of_exponentOrEnd h]
  simp only [skipFraction, hboth.1, if_true, hboth.2]

theorem skipFraction_of_afterInteger (h : afterInteger positive digits cs = .ok (number, rest)) :
    skipFraction (cs.dropWhile isDigit) = .ok ((), rest) := by
  unfold afterInteger at h
  split at h
  · next tail hdrop =>
    rw [hdrop]
    exact skipFraction_of_decimals h
  · next hpoint =>
    have hhead : (cs.dropWhile isDigit).head? ≠ some '.' := by
      intro hhead
      obtain ⟨tail, htail⟩ := List.head?_eq_some_iff.1 hhead
      exact hpoint tail htail
    rw [skipFraction_of_head hhead]
    simp only at h
    split at h
    · next hend =>
      cases h
      cases hdrop : cs.dropWhile isDigit with
      | nil => rfl
      | cons c tail =>
        rw [hdrop] at hend
        have hletter : isExponentLetter c = false := by simpa using hend.2
        simp only [skipExponentOrEnd, hletter, Bool.false_eq_true, if_false]
    · exact skipExponentOrEnd_of_exponentOrEnd h

theorem skipNumber_of_unsigned (h : unsigned positive cs = .ok (number, rest)) :
    skipNumber cs = .ok ((), rest) := by
  cases cs with
  | nil => cases h
  | cons c cs =>
    simp only [unsigned] at h
    simp only [skipNumber]
    split at h
    · cases h
    · next hdigit =>
      rw [if_pos (eq_zero_of_digit? hdigit)]
      split at h
      · cases h
      · next hstarts =>
        rw [if_neg hstarts]
        have hskip := skipFraction_of_afterInteger h
        rwa [dropWhile_of_not_startsWithDigit hstarts] at hskip
    · next d hne hdigit =>
      have hc : c ≠ '0' := by
        rintro rfl
        exact hne (Option.some.inj hdigit).symm
      rw [if_neg hc, if_pos (isDigit_of_digit? hdigit)]
      have hskip := skipFraction_of_afterInteger h
      rwa [(dropWhile_of_fittingDigits rfl).1] at hskip

/-! ### Values -/

/-- What the reader reads is passed over. -/
def InStep {α : Type} (reader : Reader α) : Prop :=
  ∀ cs a rest, reader cs = .ok (a, rest) → skip cs = .ok ((), rest)

/-- On a value a reader that is in step stops at the end, if it reads it at all. -/
theorem InStep.rest_eq {α : Type} {reader : Reader α} {a : α} (h : InStep reader)
    (hvalue : IsValue text) (hblanks : AllBlank blanks) (hrest : EndsValue rest)
    (hread : reader (blanks ++ (text ++ rest)) = .ok (a, rest')) : rest' = rest := by
  have hskip := h _ _ _ hread
  rw [hvalue.skip_eq hblanks hrest] at hskip
  cases hskip
  rfl

theorem bind_eq_ok {α β : Type} {x : Except Failure (α × List Char)}
    {f : α × List Char → Except Failure (β × List Char)} {b : β × List Char} :
    (x >>= f) = .ok b ↔ ∃ a rest, x = .ok (a, rest) ∧ f (a, rest) = .ok b := by
  rcases x with f | ⟨a, rest⟩
  · exact iff_of_false nofun nofun
  · simp [bind, Except.bind]

theorem mismatch_ne_ok {α : Type} {expected : String} {a : α} :
    mismatch expected cs ≠ .ok (a, rest) := by
  intro h
  cases cs with
  | nil => cases h
  | cons c cs =>
    simp only [mismatch] at h
    split_ifs at h
    case pos | pos | pos | pos | pos =>
      obtain ⟨_, _, -, hrefuse⟩ := bind_eq_ok.1 h
      cases hrefuse
    all_goals cases h

theorem isBlank_of_skipBlanks {tail : List Char} (h : skipBlanks cs = c :: tail) :
    isBlank c = false := by
  have hhead := List.head?_dropWhile_not isBlank cs
  rwa [show cs.dropWhile isBlank = c :: tail from h] at hhead

theorem skipBlanks_cons {tail : List Char} (h : skipBlanks cs = c :: tail) :
    skipBlanks (c :: tail) = c :: tail :=
  List.dropWhile_cons_of_neg (Bool.eq_false_iff.1 (isBlank_of_skipBlanks h))

theorem onFirst_eq_ok {α : Type} {reader : Char → Reader α} {a : α}
    (h : onFirst reader cs = .ok (a, rest)) :
    ∃ c tail, skipBlanks cs = c :: tail ∧ reader c tail = .ok (a, rest) ∧
      skip cs = skipValue (2 * cs.length + 2) (c :: tail) := by
  unfold onFirst at h
  split at h
  · cases h
  · next c tail hfirst =>
    refine ⟨c, tail, hfirst, h, ?_⟩
    unfold skip skipValue onFirst
    rw [hfirst, skipBlanks_cons hfirst]

theorem inStep_text (expected : String) : InStep (Json.text expected) := by
  intro cs s rest h
  obtain ⟨c, tail, -, hread, hskip⟩ := onFirst_eq_ok h
  rw [hskip]
  split_ifs at hread with hc
  · subst hc
    exact skipString_of_string hread
  · exact absurd hread mismatch_ne_ok

theorem inStep_numberValue (expected : String) : InStep (numberValue expected) := by
  intro cs n rest h
  obtain ⟨c, tail, -, hread, hskip⟩ := onFirst_eq_ok h
  rw [hskip]
  split_ifs at hread with hc
  · rcases hc with rfl | hc
    · exact skipNumber_of_unsigned hread
    · have hsign : c ≠ '-' := by
        rintro rfl
        exact absurd hc (by decide)
      rw [skipValue_digit hc]
      unfold Json.number at hread
      split at hread
      · next heq => exact absurd (List.cons.inj heq).1 hsign
      · exact skipNumber_of_unsigned hread
  · exact absurd hread mismatch_ne_ok

/-- What is made of the value that has been read does not matter. -/
theorem InStep.bind {α β : Type} {reader : Reader α}
    {f : α × List Char → Except Failure (β × List Char)} (h : InStep reader)
    (hf : ∀ a cs b rest, f (a, cs) = .ok (b, rest) → rest = cs) :
    InStep fun cs => reader cs >>= f := by
  intro cs b rest hread
  obtain ⟨a, mid, hfirst, hlast⟩ := bind_eq_ok.1 hread
  rw [hf _ _ _ _ hlast]
  exact h _ _ _ hfirst

theorem InStep.ofOption {σ β : Type} {name : String} {get : σ → Option β} {set : σ → β → σ}
    {reader : Reader β} (h : InStep reader) (draft : σ) :
    InStep ((Field.ofOption name get set reader).read draft) := by
  refine h.bind fun b cs draft' rest hread => ?_
  cases hread
  rfl

theorem inStep_stringValue : InStep stringValue := by
  refine (inStep_text _).bind fun s cs b rest h => ?_
  cases h
  rfl

theorem inStep_count : InStep count := by
  refine (inStep_numberValue _).bind fun n cs b rest h => ?_
  cases n <;> cases h
  rfl

theorem rest_of_variant {α : Type} {known : List (String × α)} {name : List Char} {a : α}
    (h : variant known name cs = .ok (a, rest)) : rest = cs := by
  unfold variant at h
  split at h <;> cases h
  rfl

theorem skipKey_of_variantKey {name : List Char} (hkey : variantKey cs = .ok (name, rest))
    (hcolon : colon rest = .ok ((), rest')) :
    ∃ tail, skipBlanks cs = '"' :: tail ∧ skipKey ('"' :: tail) = .ok ((), rest') := by
  unfold variantKey at hkey
  split at hkey
  · cases hkey
  · next c tail hfirst =>
    split_ifs at hkey with hc
    · subst hc
      refine ⟨tail, hfirst, ?_⟩
      unfold skipKey
      rw [skipBlanks_cons hfirst]
      simp only [if_true, skipString_of_string hkey, bind, Except.bind, hcolon]
    all_goals cases hkey

theorem skipValue_of_null {expected : String} {u : Unit} (h : null expected cs = .ok (u, rest))
    (fuel : Nat) : skipValue (fuel + 1) cs = .ok ((), rest) := by
  obtain ⟨c, tail, hfirst, hread, -⟩ := onFirst_eq_ok h
  split_ifs at hread with hc
  · subst hc
    unfold skipValue onFirst
    rw [hfirst]
    exact hread
  · exact absurd hread mismatch_ne_ok

theorem inStep_enumeration {α : Type} (known : List (String × α)) : InStep (enumeration known) := by
  intro cs a rest h
  obtain ⟨c, tail, hfirst, hread, hskip⟩ := onFirst_eq_ok h
  rw [hskip]
  split_ifs at hread with hobject hstring
  · subst hobject
    obtain ⟨name, cs₁, hkey, hread⟩ := bind_eq_ok.1 hread
    obtain ⟨a, cs₂, hvariant, hread⟩ := bind_eq_ok.1 hread
    obtain ⟨_, cs₃, hcolon, hread⟩ := bind_eq_ok.1 hread
    obtain ⟨_, cs₄, hnull, hend⟩ := bind_eq_ok.1 hread
    obtain rfl := rest_of_variant hvariant
    obtain ⟨key, hquote, hskipKey⟩ := skipKey_of_variantKey hkey hcolon
    have hlast : skipBlanks cs₄ = '\x7d' :: rest := by
      simp only at hend
      split at hend
      · cases hend
      · next c cs₅ heq =>
        split_ifs at hend with hc
        · cases hend
          rw [heq, hc]
        · cases hend
    -- there is a character at least, so the steps suffice for the key, the value and the end
    obtain ⟨fuel, hfuel⟩ : ∃ fuel, 2 * cs.length + 1 = fuel + 2 := by
      cases cs with
      | nil => cases hfirst
      | cons c cs => exact ⟨2 * cs.length + 1, by simp only [List.length_cons]; omega⟩
    show skipMembers (2 * cs.length + 1) true tail = .ok ((), rest)
    rw [hfuel]
    unfold skipMembers
    simp only [hquote, hskipKey, skipValue_of_null hnull, if_true, bind, Except.bind]
    unfold skipMembers
    rw [hlast]
    rfl
  · subst hstring
    obtain ⟨name, tail', hstring, hvariant⟩ := bind_eq_ok.1 hread
    rw [rest_of_variant hvariant]
    exact skipString_of_string hstring
  · cases hread

end LoadGenerator.Json
