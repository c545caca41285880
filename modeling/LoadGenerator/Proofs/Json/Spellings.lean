import LoadGenerator.Proofs.Json.Grammar
import LoadGenerator.Proofs.Json.Objects

/-!
# Values as they may be written

A string is read from whatever stands for it, and from nothing else (`string_eq_ok`), a count from
its digits, and the name of an enumeration as a string or as the only key of an object. So each of
these spells its value for the reader of the field, not only the text that is written for it.
-/

namespace LoadGenerator.Json

variable {body s text blanks rest value cs : List Char} {n m : Nat}

/-! ### Strings -/

theorem not_surrogate_toNat (c : Char) :
    isTrailingSurrogate c.toNat = false ∧ isLeadingSurrogate c.toNat = false := by
  have hvalid : c.toNat < 0xd800 ∨ 0xdfff < c.toNat ∧ c.toNat < 0x110000 := c.valid
  simp only [isTrailingSurrogate, isLeadingSurrogate, Bool.and_eq_false_iff,
    decide_eq_false_iff_not]
  omega

theorem string_pair {h₁ h₂ h₃ h₄ k₁ k₂ k₃ k₄ : Char} (hlead : hex? h₁ h₂ h₃ h₄ = some (0xd800 + n))
    (htrail : hex? k₁ k₂ k₃ k₄ = some (0xdc00 + m)) (hn : n < 0x400) (hm : m < 0x400)
    (cs : List Char) :
    string ('\\' :: 'u' :: h₁ :: h₂ :: h₃ :: h₄ :: '\\' :: 'u' :: k₁ :: k₂ :: k₃ :: k₄ :: cs) =
      consResult (ofSurrogates (0xd800 + n) (0xdc00 + m)) (string cs) := by
  have hfirst : isTrailingSurrogate (0xd800 + n) = false ∧
      isLeadingSurrogate (0xd800 + n) = true := by
    simp [isTrailingSurrogate, isLeadingSurrogate]
    omega
  have hsecond : isTrailingSurrogate (0xdc00 + m) = true := by
    simp [isTrailingSurrogate]
    omega
  conv_lhs => unfold string
  simp [hlead, htrail, hfirst, hsecond]

theorem ofSurrogates_eq {c : Char} (h : c.toNat = 0x10000 + n * 0x400 + m) :
    ofSurrogates (0xd800 + n) (0xdc00 + m) = c := by
  have hsum : (0xd800 + n - 0xd800) * 0x400 + (0xdc00 + m - 0xdc00) + 0x10000 = c.toNat := by
    omega
  rw [ofSurrogates, hsum, Char.ofNat_toNat]

/-- A text is read from what stands for it between quotes. -/
theorem Denotes.string_eq (h : Denotes body s) : string (body ++ '"' :: rest) = .ok (s, rest) := by
  induction h with
  | nil =>
    unfold string
    simp
  | plain hc _ ih =>
    obtain ⟨hquote, hescape, hcontrol⟩ := isPlainChar_iff.1 hc
    rw [List.cons_append, string_plain hquote hescape hcontrol, ih]
    rfl
  | short he _ ih =>
    rw [List.cons_append, List.cons_append, string_escape (escape?_eq_some.2 he), ih]
    rfl
  | @code c digits body s hc _ ih =>
    obtain ⟨h₁, h₂, h₃, h₄, rfl, hhex⟩ := hc.exists_chars
    obtain ⟨htrail, hlead⟩ := not_surrogate_toNat c
    have hread := string_numbered hhex htrail hlead (body ++ '"' :: rest)
    rw [Char.ofNat_toNat, ih] at hread
    exact hread
  | @pair c lead trail body s n m hlead htrail hn hm hc _ ih =>
    obtain ⟨h₁, h₂, h₃, h₄, rfl, hfirst⟩ := hlead.exists_chars
    obtain ⟨k₁, k₂, k₃, k₄, rfl, hsecond⟩ := htrail.exists_chars
    have hread := string_pair hfirst hsecond hn hm (body ++ '"' :: rest)
    rw [ofSurrogates_eq hc, ih] at hread
    exact hread

theorem toNat_ofNat (h : n < 0xd800 ∨ 0xdfff < n ∧ n < 0x110000) : (Char.ofNat n).toNat = n := by
  rw [Char.ofNat, dif_pos h]
  rfl

theorem consResult_eq_ok {x : Char} {result : Except Failure (List Char × List Char)} :
    consResult x result = .ok (s, rest) ↔ ∃ s', result = .ok (s', rest) ∧ s = x :: s' := by
  rcases result with f | ⟨s', rest'⟩
  · exact iff_of_false nofun nofun
  · simp [consResult, and_comm, eq_comm]

theorem failHex_ne_ok {α : Type} {a : α} : failHex cs ≠ .ok (a, rest) := by
  unfold failHex
  split <;> exact nofun

theorem failPair_ne_ok {α : Type} {a : α} : failPair cs ≠ .ok (a, rest) := by
  cases cs <;> exact nofun

theorem denotes_of_string (h : string cs = .ok (s, rest)) :
    ∃ body, Denotes body s ∧ cs = body ++ '"' :: rest := by
  -- one case for each way through `string`
  fun_induction string cs generalizing s with
  | case1 | case3 | case5 | case8 | case15 | case16 => cases h
  | case4 | case6 | case9 | case13 => exact absurd h failHex_ne_ok
  | case10 | case11 => exact absurd h failPair_ne_ok
  | case2 =>
    cases h
    exact ⟨[], .nil, rfl⟩
  | case7 _ _ _ _ n hn _ hlead _ _ _ _ _ m hm htrail _ ih =>
    obtain ⟨s', hs, rfl⟩ := consResult_eq_ok.1 h
    obtain ⟨body, hbody, rfl⟩ := ih hs
    simp only [isLeadingSurrogate, isTrailingSurrogate, Bool.and_eq_true, decide_eq_true_eq]
      at hlead htrail
    obtain ⟨n, rfl⟩ := Nat.exists_eq_add_of_le hlead.1
    obtain ⟨m, rfl⟩ := Nat.exists_eq_add_of_le htrail.1
    refine ⟨_, .pair (hex?_eq_some.1 hn) (hex?_eq_some.1 hm) (by omega) (by omega) ?_ hbody, rfl⟩
    rw [ofSurrogates, toNat_ofNat (by omega)]
    omega
  | case12 _ _ _ _ _ n hn htrail hlead _ ih =>
    obtain ⟨s', hs, rfl⟩ := consResult_eq_ok.1 h
    obtain ⟨body, hbody, rfl⟩ := ih hs
    simp only [isLeadingSurrogate, isTrailingSurrogate, Bool.and_eq_true, decide_eq_true_eq]
      at hlead htrail
    have hcode := hex?_eq_some.1 hn
    have hlt := hcode.lt
    rw [← toNat_ofNat (n := n) (by omega)] at hcode
    exact ⟨_, .code hcode hbody, rfl⟩
  | case14 _ _ _ x hescape _ ih =>
    obtain ⟨s', hs, rfl⟩ := consResult_eq_ok.1 h
    obtain ⟨body, hbody, rfl⟩ := ih hs
    exact ⟨_, .short (escape?_eq_some.1 hescape) hbody, rfl⟩
  | case17 c _ hquote hescape hcontrol ih =>
    obtain ⟨s', hs, rfl⟩ := consResult_eq_ok.1 h
    obtain ⟨body, hbody, rfl⟩ := ih hs
    exact ⟨_, .plain (isPlainChar_iff.2 ⟨hquote, hescape, hcontrol⟩) hbody, rfl⟩

/-- A text is read up to a quote if what stands before that stands for it, and from nothing else. -/
theorem string_eq_ok :
    string cs = .ok (s, rest) ↔ ∃ body, Denotes body s ∧ cs = body ++ '"' :: rest := by
  refine ⟨denotes_of_string, ?_⟩
  rintro ⟨body, hbody, rfl⟩
  exact hbody.string_eq

theorem quoted_append : quoted body ++ rest = '"' :: (body ++ '"' :: rest) := by
  simp [quoted]

theorem Denotes.spells_string {t : String} (h : Denotes body t.toList) :
    Spells stringValue (quoted body) t := by
  intro blanks rest hblanks _
  rw [quoted_append]
  unfold stringValue Json.text
  rw [onFirst_eq hblanks (by decide), if_pos rfl, h.string_eq]
  show Except.ok (String.ofList t.toList, rest) = .ok (t, rest)
  rw [String.ofList_toList]

/-! ### Counts -/

theorem spells_plain {count : UInt64} (hplain : Numeral.IsPlain value)
    (hvalue : Numeral.valueFrom 0 value = count.toNat) : Spells Json.count value count := by
  have hwrite := Numeral.eq_write_of_plain hplain
  rw [hvalue] at hwrite
  rw [hwrite]
  exact spells_count count

/-! ### Enumerations -/

section Enumerations

variable {β : Type} {known : List (String × β)} {name : String} {b : β}

theorem variant_eq (h : known.lookup name = some b) :
    variant known name.toList rest = .ok (b, rest) := by
  unfold variant
  rw [String.ofList_toList, h]

theorem Denotes.spells_variant (h : Denotes body name.toList)
    (hknown : known.lookup name = some b) :
    Spells (enumeration known) (quoted body) b := by
  intro blanks rest hblanks _
  rw [quoted_append]
  unfold enumeration
  rw [onFirst_eq hblanks (by decide), if_neg (by decide), if_pos rfl, h.string_eq]
  exact variant_eq hknown

theorem Denotes.variantKey_eq (h : Denotes body s) (hblanks : AllBlank blanks) :
    variantKey (blanks ++ '"' :: (body ++ '"' :: rest)) = .ok (s, rest) := by
  unfold variantKey
  rw [skipBlanks_append hblanks (by decide)]
  exact h.string_eq

theorem null_append {expected : String} (hblanks : AllBlank blanks) :
    null expected (blanks ++ ("null".toList ++ rest)) = .ok ((), rest) := by
  unfold null
  exact onFirst_eq hblanks (by decide)

/-- The name may also be the key of a null. -/
theorem Denotes.spells_variant_object (h : Denotes body name.toList)
    (hknown : known.lookup name = some b) (htext : Members true [(body, "null".toList)] text) :
    Spells (enumeration known) ('\x7b' :: text) b := by
  intro blanks rest hblanks _
  cases htext with
  | first hstart hpart hend =>
    obtain ⟨part, rfl, before, after, hbefore, hafter, rfl⟩ := hpart
    cases hend with
    | @close _ last hlast =>
      have hclose : skipBlanks (last ++ '\x7d' :: rest) = '\x7d' :: rest :=
        skipBlanks_append hlast (by decide)
      unfold enumeration
      rw [List.cons_append, onFirst_eq hblanks (by decide), if_pos rfl]
      simp only [List.append_assoc, List.cons_append, List.nil_append, h.variantKey_eq hstart,
        variant_eq hknown, colon_append hbefore, null_append hafter, hclose, if_true, bind,
        Except.bind]

end Enumerations

end LoadGenerator.Json
