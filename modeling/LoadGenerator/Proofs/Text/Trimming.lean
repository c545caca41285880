import LoadGenerator.Proofs.Text.Numerals
import LoadGenerator.Text.Blank

/-!
# Texts without the blanks around them

`Trims cs text` says what trimming is: nothing but blanks is dropped from both ends of `cs`, and
`text` neither starts nor ends with one. There is exactly one such text, the one that `trim` gives
(`trim_eq_iff`), so blanks put around a text do not change it (`trim_append`).
-/

namespace LoadGenerator.Text

/-- Nothing but blanks. -/
def AllBlank (cs : List Char) : Prop :=
  ∀ c ∈ cs, isBlank c = true

/-- No blank at either end. -/
structure IsTrimmed (text : List Char) : Prop where
  head : ∀ c ∈ text.head?, isBlank c = false
  last : ∀ c ∈ text.getLast?, isBlank c = false

/-- The text is what is left of the characters without the blanks around it. -/
structure Trims (cs text : List Char) : Prop where
  around : ∃ before after, cs = before ++ text ++ after ∧ AllBlank before ∧ AllBlank after
  trimmed : IsTrimmed text

variable {cs text before after : List Char}

theorem AllBlank.append (h : AllBlank before) (h' : AllBlank after) :
    AllBlank (before ++ after) := by
  intro c hc
  rcases List.mem_append.1 hc with hc | hc
  · exact h c hc
  · exact h' c hc

theorem AllBlank.reverse (h : AllBlank cs) : AllBlank cs.reverse := fun c hc =>
  h c (List.mem_reverse.1 hc)

theorem allBlank_takeWhile (cs : List Char) : AllBlank (cs.takeWhile isBlank) :=
  List.all_eq_true.1 List.all_takeWhile

theorem head?_trimStart (cs : List Char) : ∀ c ∈ (trimStart cs).head?, isBlank c = false := by
  intro c hc
  have h := List.head?_dropWhile_not isBlank cs
  unfold trimStart at hc
  rw [Option.mem_def.1 hc] at h
  simpa using h

theorem trimStart_of_head (h : ∀ c ∈ cs.head?, isBlank c = false) : trimStart cs = cs := by
  cases cs with
  | nil => rfl
  | cons c cs => exact List.dropWhile_cons_of_neg (by simp [h c rfl])

theorem trimStart_append_of_allBlank (h : AllBlank before) :
    trimStart (before ++ cs) = trimStart cs :=
  List.dropWhile_append_of_pos h

theorem trimEnd_eq (cs : List Char) : trimEnd cs = (trimStart cs.reverse).reverse := rfl

theorem trimEnd_of_last (h : ∀ c ∈ cs.getLast?, isBlank c = false) : trimEnd cs = cs := by
  rw [trimEnd_eq, trimStart_of_head (by rwa [List.head?_reverse]), List.reverse_reverse]

theorem trimEnd_append_of_allBlank (h : AllBlank after) : trimEnd (cs ++ after) = trimEnd cs := by
  rw [trimEnd_eq, List.reverse_append, trimStart_append_of_allBlank h.reverse, trimEnd_eq]

/-- What is left of a text without the blanks at its end starts as the text does. -/
theorem exists_trimEnd_append (cs : List Char) :
    ∃ after, cs = trimEnd cs ++ after ∧ AllBlank after := by
  refine ⟨(cs.reverse.takeWhile isBlank).reverse, ?_, (allBlank_takeWhile _).reverse⟩
  rw [trimEnd_eq, ← List.reverse_append]
  unfold trimStart
  rw [List.takeWhile_append_dropWhile, List.reverse_reverse]

theorem trims_trim (cs : List Char) : Trims cs (trim cs) := by
  obtain ⟨after, hafter, hblank⟩ := exists_trimEnd_append (trimStart cs)
  refine ⟨⟨cs.takeWhile isBlank, after, ?_, allBlank_takeWhile cs, hblank⟩, ?_, ?_⟩
  · unfold trim
    rw [List.append_assoc, ← hafter]
    exact List.takeWhile_append_dropWhile.symm
  · intro c hc
    refine head?_trimStart cs c ?_
    rw [hafter]
    unfold trim at hc
    rw [List.head?_append, Option.mem_def.1 hc]
    rfl
  · intro c hc
    unfold trim at hc
    rw [trimEnd_eq, List.getLast?_reverse] at hc
    exact head?_trimStart _ c hc

theorem Trims.trim_eq (h : Trims cs text) : trim cs = text := by
  obtain ⟨⟨before, after, rfl, hbefore, hafter⟩, htrimmed⟩ := h
  unfold trim
  rw [List.append_assoc, trimStart_append_of_allBlank hbefore]
  cases text with
  | nil =>
    have hnil : trimStart ([] ++ after) = [] := by
      rw [List.nil_append, ← List.append_nil after, trimStart_append_of_allBlank hafter]
      rfl
    rw [hnil]
    rfl
  | cons c text =>
    have hhead : trimStart (c :: text ++ after) = c :: text ++ after :=
      trimStart_of_head fun d hd => htrimmed.head d hd
    rw [hhead, trimEnd_append_of_allBlank hafter, trimEnd_of_last htrimmed.last]

theorem trim_eq_iff : trim cs = text ↔ Trims cs text := by
  constructor
  · rintro rfl
    exact trims_trim cs
  · exact Trims.trim_eq

theorem IsTrimmed.trim_eq (h : IsTrimmed text) : trim text = text :=
  Trims.trim_eq ⟨⟨[], [], by simp, by simp [AllBlank], by simp [AllBlank]⟩, h⟩

/-- Blanks put around a text are dropped with those that are there. -/
theorem trim_append (hbefore : AllBlank before) (hafter : AllBlank after) :
    trim (before ++ cs ++ after) = trim cs := by
  obtain ⟨⟨before', after', hcs, hbefore', hafter'⟩, htrimmed⟩ := trims_trim cs
  refine Trims.trim_eq ⟨⟨before ++ before', after' ++ after, ?_, hbefore.append hbefore',
    hafter'.append hafter⟩, htrimmed⟩
  calc before ++ cs ++ after = before ++ (before' ++ trim cs ++ after') ++ after := by rw [← hcs]
    _ = before ++ before' ++ trim cs ++ (after' ++ after) := by simp only [List.append_assoc]

theorem not_isBlank_of_isDigit {c : Char} (h : c.isDigit = true) : isBlank c = false := by
  have := Numeral.toNat_of_isDigit h
  simp only [isBlank, Bool.or_eq_false_iff, Bool.and_eq_false_iff, beq_eq_false_iff_ne, ne_eq,
    decide_eq_false_iff_not]
  omega

end LoadGenerator.Text
