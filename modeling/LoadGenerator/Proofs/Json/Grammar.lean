import LoadGenerator.Proofs.Json.Values

/-!
# The grammar of JSON texts

Which texts are JSON values is said here without any reader. `IsBody` is what may stand between the
quotes of a string; it stands for a text (`Denotes`) if the halves of surrogate pairs in it come in
pairs. The `Parts` of a list are its values, those of an object are its members, with any blanks
between the tokens. `IsValue` puts these together, to any depth.
-/

namespace LoadGenerator.Json

/-! ### Strings -/

/-- The letters that follow a backslash, and the characters that they stand for. -/
def shortEscapes : List (Char × Char) :=
  [('"', '"'), ('\\', '\\'), ('/', '/'), ('b', '\x08'), ('f', '\x0c'), ('n', '\n'), ('r', '\r'),
    ('t', '\t')]

/-- The character is the digit of the number, in lower or upper case. -/
def IsHexDigit (c : Char) (n : Nat) : Prop :=
  "0123456789abcdef".toList[n]? = some c ∨ "0123456789ABCDEF".toList[n]? = some c

/-- The text has four digits, which are those of the number. -/
def IsHex (digits : List Char) (n : Nat) : Prop :=
  ∃ h₁ h₂ h₃ h₄ n₁ n₂ n₃ n₄, digits = [h₁, h₂, h₃, h₄] ∧ IsHexDigit h₁ n₁ ∧ IsHexDigit h₂ n₂ ∧
    IsHexDigit h₃ n₃ ∧ IsHexDigit h₄ n₄ ∧ n = n₁ * 0x1000 + n₂ * 0x100 + n₃ * 0x10 + n₄

/-- A character that needs no escape. -/
def IsPlainChar (c : Char) : Prop :=
  c ≠ '"' ∧ c ≠ '\\' ∧ 0x20 ≤ c.toNat

/-- What may stand between the quotes of a string. -/
inductive IsBody : List Char → Prop where
  | nil : IsBody []
  | plain {c : Char} {body : List Char} (hc : IsPlainChar c) (h : IsBody body) : IsBody (c :: body)
  | short {e x : Char} {body : List Char} (he : (e, x) ∈ shortEscapes) (h : IsBody body) :
      IsBody ('\\' :: e :: body)
  | code {digits body : List Char} {n : Nat} (hn : IsHex digits n) (h : IsBody body) :
      IsBody ('\\' :: 'u' :: (digits ++ body))

/-- The text that stands for another one between quotes. No character has a number among those of
the surrogates, so an escape by number stands for one only together with its other half. -/
inductive Denotes : List Char → List Char → Prop where
  | nil : Denotes [] []
  | plain {c : Char} {body s : List Char} (hc : IsPlainChar c) (h : Denotes body s) :
      Denotes (c :: body) (c :: s)
  | short {e x : Char} {body s : List Char} (he : (e, x) ∈ shortEscapes) (h : Denotes body s) :
      Denotes ('\\' :: e :: body) (x :: s)
  | code {c : Char} {digits body s : List Char} (hc : IsHex digits c.toNat) (h : Denotes body s) :
      Denotes ('\\' :: 'u' :: (digits ++ body)) (c :: s)
  | pair {c : Char} {lead trail body s : List Char} {n m : Nat} (hlead : IsHex lead (0xd800 + n))
      (htrail : IsHex trail (0xdc00 + m)) (hn : n < 0x400) (hm : m < 0x400)
      (hc : c.toNat = 0x10000 + n * 0x400 + m) (h : Denotes body s) :
      Denotes ('\\' :: 'u' :: (lead ++ '\\' :: 'u' :: (trail ++ body))) (c :: s)

/-- A string as it is written. -/
def quoted (body : List Char) : List Char :=
  '"' :: (body ++ ['"'])

/-! ### Numbers -/

/-- The digits after a point, if there is one. -/
inductive IsFraction : List Char → Prop where
  | absent : IsFraction []
  | present {digits : List Char} (hne : digits ≠ []) (hdigits : Numeral.AllDigits digits) :
      IsFraction ('.' :: digits)

/-- The exponent of a number, if there is one. -/
inductive IsExponent : List Char → Prop where
  | absent : IsExponent []
  | present {letter : Char} {sign digits : List Char} (hletter : letter ∈ ['e', 'E'])
      (hsign : sign ∈ [[], ['+'], ['-']]) (hne : digits ≠ [])
      (hdigits : Numeral.AllDigits digits) : IsExponent (letter :: (sign ++ digits))

/-- A number without its sign. -/
def IsUnsigned (text : List Char) : Prop :=
  ∃ digits fraction exponent, Numeral.IsPlain digits ∧ IsFraction fraction ∧ IsExponent exponent ∧
    text = digits ++ (fraction ++ exponent)

/-! ### Lists and objects -/

/-- The rest of a list or an object, before or after its first part: the parts apart by commas, and
the bracket or brace at the end. -/
inductive Parts {α : Type} (close : Char) (Written : α → List Char → Prop) :
    Bool → List α → List Char → Prop where
  | close {first : Bool} {blanks : List Char} (hblanks : AllBlank blanks) :
      Parts close Written first [] (blanks ++ [close])
  | first {a : α} {rest : List α} {blanks part text : List Char} (hblanks : AllBlank blanks)
      (hpart : Written a part) (htext : Parts close Written false rest text) :
      Parts close Written true (a :: rest) (blanks ++ (part ++ text))
  | next {a : α} {rest : List α} {before after part text : List Char} (hbefore : AllBlank before)
      (hafter : AllBlank after) (hpart : Written a part)
      (htext : Parts close Written false rest text) :
      Parts close Written false (a :: rest) (before ++ ',' :: (after ++ (part ++ text)))

/-- The values of a list. -/
abbrev Elements : Bool → List (List Char) → List Char → Prop :=
  Parts ']' fun value part => part = value

/-- The body of a key, and a value. -/
abbrev KeyValue := List Char × List Char

/-- A member after its opening quote. -/
def IsMember (member : KeyValue) (part : List Char) : Prop :=
  ∃ before after, AllBlank before ∧ AllBlank after ∧
    part = member.1 ++ '"' :: (before ++ ':' :: (after ++ member.2))

/-- The members of an object. -/
abbrev Members : Bool → List KeyValue → List Char → Prop :=
  Parts '\x7d' fun member part => ∃ rest, part = '"' :: rest ∧ IsMember member rest

/-- The values that are words. -/
def words : List (List Char) :=
  ["null".toList, "true".toList, "false".toList]

/-- The text is a JSON value. -/
inductive IsValue : List Char → Prop where
  | word {text : List Char} (h : text ∈ words) : IsValue text
  | positive {text : List Char} (h : IsUnsigned text) : IsValue text
  | negative {text : List Char} (h : IsUnsigned text) : IsValue ('-' :: text)
  | string {body : List Char} (h : IsBody body) : IsValue (quoted body)
  | list {values : List (List Char)} {text : List Char} (h : Elements true values text)
      (hvalues : ∀ value ∈ values, IsValue value) : IsValue ('[' :: text)
  | object {members : List KeyValue} {text : List Char} (h : Members true members text)
      (hkeys : ∀ member ∈ members, IsBody member.1)
      (hvalues : ∀ member ∈ members, IsValue member.2) : IsValue ('\x7b' :: text)

variable {c e x : Char} {digits body s : List Char} {n : Nat}

/-! ### What the tables of the readers say -/

theorem escape?_eq_some : escape? e = some x ↔ (e, x) ∈ shortEscapes := by
  unfold escape?
  split <;> simp_all [shortEscapes, eq_comm]

instance (c : Char) (n : Nat) : Decidable (IsHexDigit c n) :=
  inferInstanceAs (Decidable (_ ∨ _))

instance (c : Char) : Decidable (IsPlainChar c) :=
  inferInstanceAs (Decidable (_ ∧ _ ∧ _))

theorem IsHexDigit.bounds (h : IsHexDigit c n) : n < 16 ∧ c.toNat < 103 := by
  have htable : ("0123456789abcdef".toList ++ "0123456789ABCDEF".toList).all
      (fun c => decide (c.toNat < 103)) = true := by
    decide
  have hall : ∀ c ∈ "0123456789abcdef".toList ++ "0123456789ABCDEF".toList, c.toNat < 103 :=
    fun c hc => of_decide_eq_true (List.all_eq_true.1 htable c hc)
  rcases h with h | h
  · exact ⟨(List.getElem?_eq_some_iff.1 h).1,
      hall c (List.mem_append_left _ (List.mem_of_getElem? h))⟩
  · exact ⟨(List.getElem?_eq_some_iff.1 h).1,
      hall c (List.mem_append_right _ (List.mem_of_getElem? h))⟩

theorem toNat_lt_of_hexDigit? (h : hexDigit? c = some n) : c.toNat < 103 := by
  have hle : ∀ {d : Char}, c ≤ d → d.toNat < 103 → c.toNat < 103 := by
    intro d hd hlt
    rw [Char.le_def, UInt32.le_iff_toNat_le] at hd
    exact Nat.lt_of_le_of_lt hd hlt
  unfold hexDigit? at h
  split at h
  · next hc => exact hle hc.2 (by decide)
  · split at h
    · next hc => exact hle hc.2 (by decide)
    · split at h
      · next hc => exact hle hc.2 (by decide)
      · cases h

theorem hexDigit?_eq_some : hexDigit? c = some n ↔ IsHexDigit c n := by
  have htable : ∀ code < 103, (∀ n < 16, IsHexDigit (Char.ofNat code) n →
      hexDigit? (Char.ofNat code) = some n) ∧
      ∀ n ∈ hexDigit? (Char.ofNat code), IsHexDigit (Char.ofNat code) n := by
    decide +kernel
  constructor
  · intro h
    have hc := (htable c.toNat (toNat_lt_of_hexDigit? h)).2 n
    rw [Char.ofNat_toNat] at hc
    exact hc h
  · intro h
    obtain ⟨hn, hlt⟩ := h.bounds
    have hc := (htable c.toNat hlt).1 n hn
    rw [Char.ofNat_toNat] at hc
    exact hc h

theorem hex?_eq_some {h₁ h₂ h₃ h₄ : Char} :
    hex? h₁ h₂ h₃ h₄ = some n ↔ IsHex [h₁, h₂, h₃, h₄] n := by
  simp only [hex?, Option.bind_eq_bind, Option.bind_eq_some_iff, hexDigit?_eq_some, IsHex,
    List.cons.injEq, Option.some.injEq]
  constructor
  · rintro ⟨n₁, h₁, n₂, h₂, n₃, h₃, n₄, h₄, rfl⟩
    exact ⟨_, _, _, _, n₁, n₂, n₃, n₄, by simp, h₁, h₂, h₃, h₄, by omega⟩
  · rintro ⟨_, _, _, _, n₁, n₂, n₃, n₄, ⟨rfl, rfl, rfl, rfl, -⟩, h₁, h₂, h₃, h₄, hn⟩
    exact ⟨n₁, h₁, n₂, h₂, n₃, h₃, n₄, h₄, by omega⟩

theorem IsHex.lt (h : IsHex digits n) : n < 0x10000 := by
  obtain ⟨_, _, _, _, n₁, n₂, n₃, n₄, -, h₁, h₂, h₃, h₄, rfl⟩ := h
  have := h₁.bounds.1
  have := h₂.bounds.1
  have := h₃.bounds.1
  have := h₄.bounds.1
  omega

theorem IsHex.exists_chars (h : IsHex digits n) :
    ∃ h₁ h₂ h₃ h₄, digits = [h₁, h₂, h₃, h₄] ∧ hex? h₁ h₂ h₃ h₄ = some n := by
  obtain ⟨h₁, h₂, h₃, h₄, n₁, n₂, n₃, n₄, rfl, h⟩ := h
  exact ⟨h₁, h₂, h₃, h₄, rfl, hex?_eq_some.2 ⟨h₁, h₂, h₃, h₄, n₁, n₂, n₃, n₄, rfl, h⟩⟩

theorem isPlainChar_iff : IsPlainChar c ↔ c ≠ '"' ∧ c ≠ '\\' ∧ ¬ c < ' ' := by
  have hle : ¬ c < ' ' ↔ 0x20 ≤ c.toNat := by
    rw [Char.lt_def, UInt32.lt_iff_toNat_lt]
    exact Nat.not_lt
  rw [hle]
  rfl

/-! ### What is written is of the grammar -/

theorem Denotes.isBody (h : Denotes body s) : IsBody body := by
  induction h with
  | nil => exact .nil
  | plain hc _ ih => exact .plain hc ih
  | short he _ ih => exact .short he ih
  | code hc _ ih => exact .code hc ih
  | pair hlead htrail _ _ _ _ ih => exact .code hlead (.code htrail ih)

/-- Without quotes, backslashes and control characters a text stands for itself. -/
theorem Denotes.of_plain (h : s.all (fun c => decide (IsPlainChar c)) = true) : Denotes s s := by
  induction s with
  | nil => exact .nil
  | cons c s ih =>
    rw [List.all_cons, Bool.and_eq_true] at h
    exact .plain (of_decide_eq_true h.1) (ih h.2)

theorem IsValue.of_plain (h : Numeral.IsPlain digits) : IsValue digits :=
  .positive ⟨digits, [], [], h, .absent, .absent, by simp⟩

end LoadGenerator.Json
