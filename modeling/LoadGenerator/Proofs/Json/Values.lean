import LoadGenerator.Json.Reader
import LoadGenerator.Json.Writer
import LoadGenerator.Proofs.Text.Numerals

/-!
# Values as they are written

`Spells reader text b` says that the reader reads `b` from the text wherever a value may stand:
after any blanks, and before anything that ends a value. What is written for a string, a count or
the name of an enumeration spells it, with every escape resolved (`string_escaped`) and every digit
of a count kept (`fittingDigits_append`).
-/

namespace LoadGenerator.Json

/-- Nothing but blanks between tokens. -/
def AllBlank (cs : List Char) : Prop :=
  ∀ c ∈ cs, isBlank c = true

/-- Whether a character may follow a value. -/
def endsValue (c : Char) : Bool :=
  isBlank c || c == ',' || c == '\x7d' || c == ']'

/-- The text ends or goes on with something that ends a value. -/
def EndsValue (rest : List Char) : Prop :=
  ∀ c ∈ rest.head?, endsValue c = true

/-- The reader reads the value from the text, wherever that stands. -/
def Spells {β : Type} (reader : Reader β) (text : List Char) (b : β) : Prop :=
  ∀ blanks rest, AllBlank blanks → EndsValue rest →
    reader (blanks ++ (text ++ rest)) = .ok (b, rest)

variable {c : Char} {blanks cs rest digits : List Char} {value taken n : Nat}

theorem endsValue_iff : endsValue c = true ↔
    c = ' ' ∨ c = '\n' ∨ c = '\t' ∨ c = '\r' ∨ c = ',' ∨ c = '\x7d' ∨ c = ']' := by
  simp [endsValue, isBlank, or_assoc]

theorem endsValue_of_isBlank (h : isBlank c = true) : endsValue c = true := by
  simp [endsValue, h]

theorem EndsValue.of_append (hblanks : AllBlank blanks) (hrest : EndsValue rest) :
    EndsValue (blanks ++ rest) := by
  intro c hc
  cases blanks with
  | nil => exact hrest c hc
  | cons d blanks =>
    cases hc
    exact endsValue_of_isBlank (hblanks _ (List.mem_cons_self ..))

theorem skipBlanks_append (hblanks : AllBlank blanks) (hc : isBlank c = false) :
    skipBlanks (blanks ++ c :: cs) = c :: cs := by
  unfold skipBlanks
  rw [List.dropWhile_append_of_pos hblanks, List.dropWhile_cons_of_neg (by simp [hc])]

theorem onFirst_eq {β : Type} {reader : Char → Reader β} (hblanks : AllBlank blanks)
    (hc : isBlank c = false) : onFirst reader (blanks ++ c :: cs) = reader c cs := by
  unfold onFirst
  rw [skipBlanks_append hblanks hc]

/-! ### Strings -/

theorem string_escape {e x : Char} (h : escape? e = some x) (cs : List Char) :
    string ('\\' :: e :: cs) = consResult x (string cs) := by
  -- the branch of an escape by number does not apply
  have he : e ≠ 'u' := by
    rintro rfl
    cases h
  conv_lhs => unfold string
  simp [h]

theorem string_plain (hquote : c ≠ '"') (hescape : c ≠ '\\') (hc : ¬ c < ' ') (cs : List Char) :
    string (c :: cs) = consResult c (string cs) := by
  conv_lhs => unfold string
  simp [hquote, hescape, hc]

theorem string_numbered {h₁ h₂ h₃ h₄ : Char} (h : hex? h₁ h₂ h₃ h₄ = some n)
    (htrail : isTrailingSurrogate n = false) (hlead : isLeadingSurrogate n = false)
    (cs : List Char) :
    string ('\\' :: 'u' :: h₁ :: h₂ :: h₃ :: h₄ :: cs) = consResult (Char.ofNat n) (string cs) := by
  conv_lhs => unfold string
  simp [h, htrail, hlead]

theorem not_surrogate (h : n < 0xd800) :
    isTrailingSurrogate n = false ∧ isLeadingSurrogate n = false := by
  simp only [isTrailingSurrogate, isLeadingSurrogate, Bool.and_eq_false_iff,
    decide_eq_false_iff_not]
  omega

theorem hex?_control : ∀ n < 32,
    hex? '0' '0' (Nat.digitChar (n / 16)) (Nat.digitChar (n % 16)) = some n := by
  decide

/-- A character is written as an escape of two characters, by its number, or as it is. -/
theorem writeChar_cases (c : Char) :
    (∃ e, escape? e = some c ∧ writeChar c = ['\\', e]) ∨
      (c.toNat < 32 ∧ writeChar c = ['\\', 'u', '0', '0', Nat.digitChar (c.toNat / 16),
        Nat.digitChar (c.toNat % 16)]) ∨
      (c ≠ '"' ∧ c ≠ '\\' ∧ ¬ c < ' ' ∧ writeChar c = [c]) := by
  unfold writeChar
  split
  iterate 7 exact .inl ⟨_, rfl, rfl⟩
  next hquote hescape _ _ _ _ _ =>
    by_cases hc : c < ' '
    · rw [if_pos hc]
      exact .inr (.inl ⟨hc, rfl⟩)
    · rw [if_neg hc]
      exact .inr (.inr ⟨hquote, hescape, hc, rfl⟩)

/-- A character is read from what is written for it. -/
theorem string_writeChar (c : Char) (cs : List Char) :
    string (writeChar c ++ cs) = consResult c (string cs) := by
  rcases writeChar_cases c with ⟨e, he, hwrite⟩ | ⟨hlt, hwrite⟩ | ⟨hquote, hescape, hc, hwrite⟩
  · rw [hwrite]
    exact string_escape he cs
  · obtain ⟨htrail, hlead⟩ := not_surrogate (Nat.lt_trans hlt (by decide))
    have hread := string_numbered (hex?_control _ hlt) htrail hlead cs
    rw [Char.ofNat_toNat] at hread
    rw [hwrite]
    exact hread
  · rw [hwrite]
    exact string_plain hquote hescape hc cs

theorem string_escaped (s rest : List Char) :
    string (s.flatMap writeChar ++ '"' :: rest) = .ok (s, rest) := by
  induction s with
  | nil =>
    unfold string
    simp
  | cons c s ih =>
    rw [List.flatMap_cons, List.append_assoc, string_writeChar, ih]
    rfl

theorem writeString_append (s rest : List Char) :
    writeString s ++ rest = '"' :: (s.flatMap writeChar ++ '"' :: rest) := by
  simp [writeString]

theorem spells_string (s : String) : Spells stringValue (writeString s.toList) s := by
  intro blanks rest hblanks _
  rw [writeString_append]
  unfold stringValue text
  rw [onFirst_eq hblanks (by decide), if_pos rfl, string_escaped]
  show Except.ok (String.ofList s.toList, rest) = .ok (s, rest)
  rw [String.ofList_toList]

/-! ### Counts -/

theorem fittingDigits_append (hdigits : Numeral.AllDigits digits)
    (hfits : Numeral.valueFrom value digits < UInt64.size) (hrest : startsWithDigit rest = false) :
    fittingDigits value taken (digits ++ rest) =
      (Numeral.valueFrom value digits, taken + digits.length, rest) := by
  induction digits generalizing value taken with
  | nil =>
    cases rest with
    | nil => simp [fittingDigits]
    | cons c rest =>
      have hc : Numeral.digit? c = none := by
        simpa [startsWithDigit, isDigit] using hrest
      simp [fittingDigits, hc]
  | cons c digits ih =>
    have hc := hdigits c (List.mem_cons_self ..)
    have htail : Numeral.AllDigits digits := fun d hd => hdigits d (List.mem_cons_of_mem _ hd)
    rw [Numeral.valueFrom_cons] at hfits ⊢
    -- the value only grows, so what holds for all digits holds for the first of them
    have hstep : value * 10 + (c.toNat - '0'.toNat) < UInt64.size :=
      Nat.lt_of_le_of_lt Numeral.le_valueFrom hfits
    rw [List.cons_append, fittingDigits, Numeral.digit?_of_isDigit hc]
    simp only [hstep, if_true]
    rw [ih htail hfits, List.length_cons, Nat.add_assoc, Nat.add_comm 1]

/-- What ends a value does not go on with a number. -/
theorem endsNumber (h : endsValue c = true) :
    isDigit c = false ∧ c ≠ '.' ∧ isExponentLetter c = false := by
  rcases endsValue_iff.1 h with rfl | rfl | rfl | rfl | rfl | rfl | rfl <;> decide

theorem EndsValue.startsWithDigit (h : EndsValue rest) : startsWithDigit rest = false := by
  cases rest with
  | nil => rfl
  | cons c rest => exact (endsNumber (h c rfl)).1

theorem EndsValue.afterInteger (h : EndsValue rest) (positive : Bool) :
    afterInteger positive n rest = .ok (.ofInteger positive n, rest) := by
  unfold Json.afterInteger
  cases rest with
  | nil => simp
  | cons c rest =>
    obtain ⟨hdigit, hpoint, hletter⟩ := endsNumber (h c rfl)
    simp [hdigit, hpoint, hletter]

/-- The digits in front of a number are taken one by one, and a zero stands alone. -/
theorem unsigned_digits (hplain : Numeral.IsPlain digits)
    (hfits : Numeral.valueFrom 0 digits < UInt64.size) (hrest : startsWithDigit rest = false)
    (positive : Bool) :
    unsigned positive (digits ++ rest) =
      afterInteger positive (Numeral.valueFrom 0 digits) rest := by
  obtain ⟨c, digits, rfl⟩ := List.exists_cons_of_ne_nil hplain.ne_nil
  have hc := hplain.allDigits c (List.mem_cons_self ..)
  have hdigits : Numeral.AllDigits digits := fun d hd =>
    hplain.allDigits d (List.mem_cons_of_mem _ hd)
  rw [List.cons_append, unsigned, Numeral.digit?_of_isDigit hc]
  by_cases hzero : c = '0'
  · subst hzero
    obtain ⟨-, rfl⟩ := List.cons.inj (hplain.head rfl)
    simp [hrest]
  · have hpos : c.toNat - '0'.toNat ≠ 0 := by
      intro h
      have hlow : c.toNat = '0'.toNat :=
        Nat.le_antisymm (Nat.le_of_sub_eq_zero h) (Numeral.toNat_of_isDigit hc).1
      exact hzero (Char.toNat_inj.1 hlow)
    rw [Numeral.valueFrom_cons, Nat.zero_mul, Nat.zero_add] at hfits ⊢
    obtain ⟨d, hd⟩ := Nat.exists_eq_succ_of_ne_zero hpos
    rw [hd] at hfits ⊢
    simp only [fittingDigits_append hdigits hfits hrest]

theorem unsigned_plain (hplain : Numeral.IsPlain digits)
    (hfits : Numeral.valueFrom 0 digits < UInt64.size) (hrest : EndsValue rest) (positive : Bool) :
    unsigned positive (digits ++ rest) =
      .ok (.ofInteger positive (Numeral.valueFrom 0 digits), rest) :=
  (unsigned_digits hplain hfits hrest.startsWithDigit positive).trans (hrest.afterInteger positive)

theorem number_write (h : n < UInt64.size) (hrest : EndsValue rest) :
    number (Numeral.write n ++ rest) = .ok (.natural (UInt64.ofNat n), rest) := by
  have hread : unsigned true (Numeral.write n ++ rest) = .ok (.natural (UInt64.ofNat n), rest) := by
    rw [unsigned_plain Numeral.isPlain_write (by rwa [Numeral.valueFrom_write]) hrest,
      Numeral.valueFrom_write, Number.ofInteger, if_pos rfl]
  obtain ⟨c, digits, hwrite, hc⟩ := Numeral.exists_write_eq_cons (n := n)
  have hsign : c ≠ '-' := Numeral.ne_of_isDigit hc (by decide)
  rw [hwrite, List.cons_append] at hread ⊢
  unfold number
  simpa [hsign] using hread

theorem not_isBlank_of_isDigit (h : c.isDigit = true) : isBlank c = false := by
  simp [isBlank, Numeral.ne_of_isDigit h]

theorem spells_count (n : UInt64) : Spells count (writeCount n) n := by
  intro blanks rest hblanks hrest
  have hread := number_write n.toNat_lt_size hrest
  rw [UInt64.ofNat_toNat] at hread
  obtain ⟨c, digits, hwrite, hc⟩ := Numeral.exists_write_eq_cons (n := n.toNat)
  have hdigit : isDigit c = true := by
    simp [isDigit, Numeral.digit?_of_isDigit hc]
  unfold count writeCount numberValue
  rw [hwrite, List.cons_append] at hread ⊢
  rw [onFirst_eq hblanks (not_isBlank_of_isDigit hc), if_pos (.inr hdigit), hread]
  rfl

/-! ### Enumerations -/

theorem spells_variant {β : Type} {known : List (String × β)} {name : String} {b : β}
    (h : known.lookup name = some b) :
    Spells (enumeration known) (writeString name.toList) b := by
  intro blanks rest hblanks _
  rw [writeString_append]
  unfold enumeration
  rw [onFirst_eq hblanks (by decide), if_neg (by decide), if_pos rfl, string_escaped]
  show variant known name.toList rest = .ok (b, rest)
  unfold variant
  rw [String.ofList_toList, h]

end LoadGenerator.Json
