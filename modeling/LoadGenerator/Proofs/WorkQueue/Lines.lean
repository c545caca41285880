import LoadGenerator.Proofs.WorkQueue.Dealings

/-!
# The two lines at a queue

Those who put stand in one line: whoever has been granted a slot, then whoever waits for one
(`putLine`). Those who get stand in the other, behind the owner of the turn (`getLine`). Whoever has
to wait comes to the end of a line (`standIn`), and whoever is served or gives up leaves it from
where it stands; nothing else moves. So slots and turns can change hands as they like, and both lines
stay in order of arrival.
-/

namespace LoadGenerator.WorkQueue

variable {α : Type} {q q' : WorkQueue α} {t : Ticket} {item : α}

def putLine (q : WorkQueue α) : List Ticket :=
  q.granted ++ q.putters

def getLine (q : WorkQueue α) : List Ticket :=
  q.turn.owner.toList ++ q.getters

theorem getLine_of_owner {o : Ticket} (h : q.turn.owner = some o) : q.getLine = o :: q.getters := by
  rw [getLine, h]
  rfl

/-- Nobody stands in line for a turn that is free. -/
theorem getLine_of_free (hs : q.Sound) (h : q.turn.owner = none) : q.getLine = [] := by
  have hfree : q.turn = .free := by
    cases ht : q.turn with
    | free => rfl
    | granted o | held o =>
      rw [ht] at h
      cases h
  rw [getLine, h, hs.turn hfree]
  rfl

/-- A line with one more participant, unless it stands there already. -/
def standIn (line : List Ticket) (t : Ticket) : List Ticket :=
  if t ∈ line then line else line ++ [t]

theorem standIn_of_mem {line : List Ticket} (h : t ∈ line) : standIn line t = line :=
  if_pos h

theorem standIn_of_not_mem {line : List Ticket} (h : t ∉ line) : standIn line t = line ++ [t] :=
  if_neg h

theorem mem_standIn {line : List Ticket} {u : Ticket} : u ∈ standIn line t ↔ u ∈ line ∨ u = t := by
  by_cases h : t ∈ line
  · rw [standIn_of_mem h]
    exact ⟨.inl, fun hu => hu.elim id fun he => he ▸ h⟩
  · rw [standIn_of_not_mem h, List.mem_append, List.mem_singleton]

theorem nodup_standIn {line : List Ticket} (h : line.Nodup) (t : Ticket) :
    (standIn line t).Nodup := by
  by_cases ht : t ∈ line
  · rwa [standIn_of_mem ht]
  · rw [standIn_of_not_mem ht, List.nodup_append]
    refine ⟨h, by simp, fun u hu v hv he => ht ?_⟩
    rw [← List.mem_singleton.1 hv, ← he]
    exact hu

theorem erase_standIn (line : List Ticket) (t : Ticket) :
    (standIn line t).erase t = line.erase t := by
  by_cases h : t ∈ line
  · rw [standIn_of_mem h]
  · rw [standIn_of_not_mem h, List.erase_append_right _ h, List.erase_of_not_mem h]
    simp

theorem append_standIn {line : List Ticket} (h : t ∉ line) (rest : List Ticket) :
    line ++ standIn rest t = standIn (line ++ rest) t := by
  by_cases hr : t ∈ rest
  · rw [standIn_of_mem hr, standIn_of_mem (List.mem_append_right _ hr)]
  · rw [standIn_of_not_mem hr, standIn_of_not_mem (by simp [h, hr]), List.append_assoc]

/-! ### Slots and turns that change hands -/

theorem putLine_releaseSlot (q : WorkQueue α) : q.releaseSlot.putLine = q.putLine := by
  unfold releaseSlot putLine
  split <;> simp [*]

theorem getLine_releaseSlot (q : WorkQueue α) : q.releaseSlot.getLine = q.getLine := by
  unfold releaseSlot
  split <;> rfl

theorem putLine_passTurn (q : WorkQueue α) : q.passTurn.putLine = q.putLine := by
  unfold passTurn
  split <;> rfl

/-- Whoever owned the turn is gone from its line. -/
theorem getLine_passTurn (q : WorkQueue α) : q.passTurn.getLine = q.getters := by
  unfold passTurn getLine
  split <;> simp [*, Turn.owner]

theorem getters_eq_erase (hs : q.Sound) (ho : ∀ o, q.turn.owner = some o → o = t) :
    q.getters = q.getLine.erase t := by
  cases h : q.turn.owner with
  | none =>
    have hline := getLine_of_free hs h
    rw [hline]
    exact (List.append_eq_nil_iff.1 hline).2
  | some o =>
    obtain rfl : o = t := ho o h
    rw [getLine_of_owner h, List.erase_cons_head]

/-! ### Putting -/

/-- Whoever has to wait for a slot stands in line for it. -/
theorem put_waiting_eq (h : q.put t item = (q', .waiting)) :
    t ∉ q.granted ∧ q' = { q with putters := standIn q.putters t } := by
  unfold put at h
  split at h
  · cases h
  rename_i hg
  split at h
  · rename_i hp
    cases h
    exact ⟨hg, by rw [standIn_of_mem hp]⟩
  rename_i hp
  split at h
  · cases h
  split at h
  · cases h
  · cases h
    exact ⟨hg, by rw [standIn_of_not_mem hp]⟩

theorem putLine_put_waiting (h : q.put t item = (q', .waiting)) :
    q'.putLine = standIn q.putLine t ∧ q'.getLine = q.getLine := by
  obtain ⟨hg, rfl⟩ := put_waiting_eq h
  exact ⟨append_standIn hg _, rfl⟩

theorem putLine_put_ok (h : q.put t item = (q', .done (.ok ()))) :
    q'.putLine = q.putLine.erase t ∧ q'.getLine = q.getLine := by
  unfold put at h
  split at h
  · rename_i hg
    cases h
    exact ⟨(List.erase_append_left _ hg).symm, rfl⟩
  rename_i hg
  split at h
  · cases h
  rename_i hp
  split at h
  · cases h
  split at h
  · cases h
    have hline : t ∉ q.putLine := by simp [putLine, hg, hp]
    exact ⟨(List.erase_of_not_mem hline).symm, rfl⟩
  · cases h

/-- Only a participant that has just come is refused. -/
theorem not_mem_putLine_of_put_error {fault : QueueFault}
    (h : q.put t item = (q', .done (.error fault))) : t ∉ q.putLine := by
  unfold put at h
  split at h
  · cases h
  split at h
  · cases h
  · simp [putLine, *]

/-! ### Getting -/

/-- Whoever has to wait for an item holds the turn, or stands in line for it. -/
theorem get_waiting_eq (h : q.get t = (q', .waiting)) :
    (q' = { q with turn := .held t } ∧ q.buffer = [] ∧ q.closed = false ∧
        ∀ o, q.turn.owner = some o → o = t) ∨
      ∃ o, q.turn.owner = some o ∧ t ≠ o ∧ q' = { q with getters := standIn q.getters t } := by
  unfold get at h
  split at h
  · rename_i ho
    obtain ⟨hq', hb, hc⟩ := serve_waiting h
    refine .inl ⟨hq', hb, hc, fun o h => ?_⟩
    rw [ho] at h
    cases h
  · rename_i owner ho
    split at h
    · rename_i he
      obtain ⟨hq', hb, hc⟩ := serve_waiting h
      refine .inl ⟨hq', hb, hc, fun o h => ?_⟩
      rw [ho] at h
      cases h
      exact he.symm
    rename_i hne
    refine .inr ⟨owner, ho, hne, ?_⟩
    split at h
    · rename_i hg
      cases h
      rw [standIn_of_mem hg]
    · rename_i hg
      cases h
      rw [standIn_of_not_mem hg]

theorem putLine_get_waiting (hs : q.Sound) (h : q.get t = (q', .waiting)) :
    q'.putLine = q.putLine ∧ q'.getLine = standIn q.getLine t := by
  rcases get_waiting_eq h with ⟨rfl, -, -, howner⟩ | ⟨o, ho, hne, rfl⟩
  · refine ⟨rfl, ?_⟩
    show t :: q.getters = _
    cases ho : q.turn.owner with
    | none =>
      -- a free turn goes to the first who comes
      have hline := getLine_of_free hs ho
      have hgetters : q.getters = [] := (List.append_eq_nil_iff.1 hline).2
      rw [hline, hgetters]
      rfl
    | some o =>
      obtain rfl := howner o ho
      rw [getLine_of_owner ho, standIn_of_mem List.mem_cons_self]
  · refine ⟨rfl, ?_⟩
    have hnot : t ∉ [o] := by simpa using hne
    have howner : ({ q with getters := standIn q.getters t } : WorkQueue α).turn.owner = some o := ho
    rw [getLine_of_owner howner, getLine_of_owner ho]
    exact append_standIn hnot _

theorem putLine_get_done {result : Option α} (hs : q.Sound) (h : q.get t = (q', .done result)) :
    q'.putLine = q.putLine ∧ q'.getLine = q.getLine.erase t := by
  rcases get_cases q t with ⟨hserve, howner⟩ | ⟨q'', hget, -⟩
  · rw [hserve] at h
    have hline := getters_eq_erase hs howner
    cases result with
    | none =>
      obtain ⟨rfl, -, -⟩ := serve_none h
      exact ⟨putLine_passTurn q, (getLine_passTurn q).trans hline⟩
    | some item =>
      obtain ⟨rest, -, rfl⟩ := serve_some h
      set q₁ : WorkQueue α := { q with buffer := rest } with hq₁
      obtain ⟨-, -, -, -, -, hg⟩ := releaseSlot_frame q₁
      refine ⟨(putLine_passTurn _).trans (putLine_releaseSlot q₁), ?_⟩
      exact (getLine_passTurn _).trans (hg.trans hline)
  · rw [hget] at h
    cases h

/-! ### Leaving -/

theorem putLine_leave (q : WorkQueue α) (t : Ticket) : (q.leave t).putLine = q.putLine.erase t := by
  unfold leave
  split
  · rename_i hg
    exact (putLine_releaseSlot _).trans (List.erase_append_left _ hg).symm
  rename_i hg
  split
  · exact (List.erase_append_right _ hg).symm
  rename_i hp
  have hline : t ∉ q.putLine := by simp [putLine, hg, hp]
  rw [List.erase_of_not_mem hline]
  split
  · exact putLine_passTurn q
  · rfl

/-- Whoever does not put leaves the line of those who get. -/
theorem getLine_leave (hs : q.Sound) (ht : t ∈ q.putLine → t ∉ q.getLine) :
    (q.leave t).getLine = q.getLine.erase t := by
  unfold leave
  split
  · rename_i hg
    rw [List.erase_of_not_mem (ht (List.mem_append_left _ hg))]
    exact getLine_releaseSlot _
  split
  · rename_i hp
    rw [List.erase_of_not_mem (ht (List.mem_append_right _ hp))]
    rfl
  split
  · rename_i ho
    rw [getLine_passTurn]
    refine getters_eq_erase hs fun o h => ?_
    rw [ho] at h
    exact (Option.some.inj h).symm
  · rename_i ho
    have hnot : t ∉ q.turn.owner.toList := by
      cases h : q.turn.owner with
      | none => simp
      | some o =>
        rw [h] at ho
        simpa using fun he => ho (congrArg some he.symm)
    exact (List.erase_append_right _ hnot).symm

end LoadGenerator.WorkQueue
