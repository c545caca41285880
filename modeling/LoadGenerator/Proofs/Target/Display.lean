import LoadGenerator.Proofs.Target.Grammar

/-!
# Printed targets

A target is read again from its printed form exactly if its host may stand in an address
(`parse_display_iff`). That form is the only one of the addresses of a target that has no blanks
around it and whose port has neither a sign nor leading zeros (`display_eq_iff`).
-/

namespace LoadGenerator

namespace Target

/-- The form in which targets are printed. -/
structure IsNormal (text : List Char) : Prop where
  trimmed : Text.IsTrimmed text
  port : ∃ host port, Cuts text host port ∧ Numeral.IsPlain port

variable {s : String} {text digits : List Char} {t t' : Target}

theorem toList_display (t : Target) :
    t.display.toList = t.host.toList ++ ':' :: Numeral.write t.port.toNat := by
  simp [display, Numeral.write, toString, Nat.repr_eq_ofList_toDigits]

theorem cuts_display (t : Target) :
    Cuts t.display.toList t.host.toList (Numeral.write t.port.toNat) :=
  ⟨toList_display t, Numeral.not_mem_of_allDigits Numeral.allDigits_write (by decide)⟩

theorem isTrimmed_display (h : IsHost t.host.toList) : Text.IsTrimmed t.display.toList := by
  rw [toList_display]
  constructor
  · intro c hc
    rw [List.head?_append, List.head?_eq_some_head h.ne_nil] at hc
    cases hc
    exact h.noBlank _ (List.head_mem h.ne_nil)
  · intro c hc
    rw [List.getLast?_append, List.getLast?_cons,
      List.getLast?_eq_some_getLast Numeral.write_ne_nil] at hc
    cases hc
    exact Text.not_isBlank_of_isDigit (Numeral.allDigits_write _ (List.getLast_mem _))

theorem isNormal_display (h : IsHost t.host.toList) : IsNormal t.display.toList :=
  ⟨isTrimmed_display h, _, _, cuts_display t, Numeral.isPlain_write⟩

theorem denotes_display (h : IsHost t.host.toList) : Denotes t.display.toList t := by
  refine ⟨fun hscheme => ?_, h, _, cuts_display t, Numeral.denotes_write⟩
  -- neither the host nor the port has the slashes of a scheme
  have hslash : '/' ∈ t.display.toList := hscheme.subset (by simp)
  rw [toList_display, List.mem_append, List.mem_cons] at hslash
  rcases hslash with hslash | hslash | hslash
  · exact h.noSlash hslash
  · exact absurd hslash (by decide)
  · exact Numeral.not_mem_of_allDigits Numeral.allDigits_write (by decide) hslash

theorem isHost_of_parse (h : parse s = .ok t) : IsHost t.host.toList :=
  (parse_eq_ok.1 h).host

theorem parse_display_iff : parse t.display = .ok t ↔ IsHost t.host.toList := by
  refine ⟨isHost_of_parse, fun h => ?_⟩
  rw [parse_eq_ok, (isTrimmed_display h).trim_eq]
  exact denotes_display h

theorem denotes_plain (h : Numeral.IsPlain digits) {n : Nat} (hdenotes : Numeral.Denotes digits n) :
    digits = Numeral.write n := by
  have hhead : digits.head? ≠ some '+' := by
    intro hplus
    have hmem : '+' ∈ digits := List.mem_of_head? hplus
    exact Numeral.not_mem_of_allDigits h.allDigits (by decide) hmem
  obtain ⟨-, -, rfl⟩ := (Numeral.denotes_of_head_ne hhead).1 hdenotes
  exact Numeral.eq_write_of_plain h

/-- Of all the addresses of a target only one is in the form in which it is printed. -/
theorem display_eq_iff (h : parse s = .ok t) : t.display = s ↔ IsNormal s.toList := by
  constructor
  · rintro rfl
    exact isNormal_display (isHost_of_parse h)
  · rintro ⟨htrimmed, host, port, hcut, hplain⟩
    have hdenotes := parse_eq_ok.1 h
    rw [htrimmed.trim_eq] at hdenotes
    obtain ⟨port', hcut', hport⟩ := hdenotes.port
    obtain ⟨rfl, rfl⟩ := hcut.unique hcut'
    rw [← String.toList_inj, toList_display, hcut.1, denotes_plain hplain hport]

theorem display_inj (h : parse s = .ok t) {s' : String} (h' : parse s' = .ok t') :
    t.display = t'.display ↔ t = t' := by
  constructor
  · intro heq
    have hread := parse_display_iff.2 (isHost_of_parse h)
    rw [heq, parse_display_iff.2 (isHost_of_parse h')] at hread
    cases hread
    rfl
  · rintro rfl
    rfl

/-- A target that was read is read again from its printed form, which is the only address of it
without blanks, sign and leading zeros, and no other target is printed so. Any target is read again
exactly if its host may stand in an address. -/
theorem display_round_trip :
    (∀ s t, parse s = .ok t → parse t.display = .ok t ∧ IsNormal t.display.toList ∧
      (t.display = s ↔ IsNormal s.toList)) ∧
    (∀ s s' t t', parse s = .ok t → parse s' = .ok t' → (t.display = t'.display ↔ t = t')) ∧
    ∀ (host : String) (port : UInt16),
      parse (Target.mk host port).display = .ok ⟨host, port⟩ ↔ IsHost host.toList := by
  refine ⟨fun s t h => ?_, fun s s' t t' h h' => display_inj h h', fun host port =>
    parse_display_iff (t := ⟨host, port⟩)⟩
  have hhost := isHost_of_parse h
  exact ⟨parse_display_iff.2 hhost, isNormal_display hhost, display_eq_iff h⟩

/-- The blanks, the sign and the zeros of an address are gone from the printed form of its target; a
host with a colon of its own is not read again. -/
theorem display_round_trip_padded :
    let t : Target := ⟨"[::1]", 80⟩
    parse " [::1]:+0080 " = .ok t ∧ t.display = "[::1]:80" ∧ parse "[::1]:80" = .ok t ∧
      ¬ IsNormal " [::1]:+0080 ".toList ∧ parse (Target.mk "::1" 80).display ≠ .ok ⟨"::1", 80⟩ := by
  intro t
  have hread : parse " [::1]:+0080 " = .ok t := by decide +kernel
  have hdisplay : t.display = "[::1]:80" := by decide +kernel
  obtain ⟨hagain, -, hnormal⟩ := display_round_trip.1 _ _ hread
  refine ⟨hread, hdisplay, hdisplay ▸ hagain, fun h => ?_, fun h => ?_⟩
  · exact absurd (hnormal.2 h) (by decide +kernel)
  · have hhost := (display_round_trip.2.2 "::1" 80).1 h
    rcases hhost.brackets with hbracketed | ⟨-, hcolon⟩
    · exact absurd hbracketed.1 (by decide)
    · exact hcolon (by decide)

end Target

end LoadGenerator
