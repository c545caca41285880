import LoadGenerator.WorkQueue
import Mathlib.Tactic.Set

/-!
# What dealings with a queue leave as it is

`WorkQueue.Sound`: every slot is free, granted or taken, nobody waits for a slot while one is free,
and nobody waits for the turn while it is free. A `Dealing` of one participant, whatever it comes
to, keeps the queue sound and the places of all the others: those who put stay in line or hold a
grant (`Putting`), those who get stay in line or own the turn (`Getting`). Each operation has its
lemmas here, one for each way in which it can end; later modules do not open the operations.
-/

namespace LoadGenerator.WorkQueue

variable {α : Type} {q q' : WorkQueue α} {t u : Ticket} {item : α}

/-- Has a slot, or waits for one. -/
def Putting (q : WorkQueue α) (t : Ticket) : Prop :=
  t ∈ q.granted ∨ t ∈ q.putters

/-- Has the turn, or waits for it. -/
def Getting (q : WorkQueue α) (t : Ticket) : Prop :=
  q.turn.owner = some t ∨ t ∈ q.getters

def slots (q : WorkQueue α) : Nat :=
  q.free + q.granted.length + q.buffer.length

structure Sound (q : WorkQueue α) : Prop where
  slots : q.slots = q.capacity
  full : q.putters ≠ [] → q.free = 0
  turn : q.turn = .free → q.getters = []

/-- `q'` comes from `q` by dealings of `t` alone. -/
structure Dealing (q : WorkQueue α) (t : Ticket) (q' : WorkQueue α) : Prop where
  capacity : q'.capacity = q.capacity
  closed : q'.closed = q.closed
  sound : q.Sound → q'.Sound
  putting : ∀ u, u ≠ t → q.Putting u → q'.Putting u
  getting : ∀ u, u ≠ t → q.Getting u → q'.Getting u

theorem Dealing.refl (q : WorkQueue α) (t : Ticket) : q.Dealing t q :=
  ⟨rfl, rfl, id, fun _ _ => id, fun _ _ => id⟩

theorem sound_ofCapacity (capacity : Nat) : (ofCapacity capacity : WorkQueue α).Sound :=
  ⟨rfl, fun h => absurd rfl h, fun _ => rfl⟩

theorem Sound.buffer_le (h : q.Sound) : q.buffer.length ≤ q.capacity := by
  have := h.slots
  unfold WorkQueue.slots at this
  omega

/-! ### Slots and turns that change hands -/

theorem releaseSlot_frame (q : WorkQueue α) :
    q.releaseSlot.capacity = q.capacity ∧ q.releaseSlot.buffer = q.buffer ∧
      q.releaseSlot.outstanding = q.outstanding ∧ q.releaseSlot.closed = q.closed ∧
      q.releaseSlot.turn = q.turn ∧ q.releaseSlot.getters = q.getters := by
  unfold releaseSlot
  split <;> exact ⟨rfl, rfl, rfl, rfl, rfl, rfl⟩

theorem passTurn_frame (q : WorkQueue α) :
    q.passTurn.capacity = q.capacity ∧ q.passTurn.buffer = q.buffer ∧
      q.passTurn.outstanding = q.outstanding ∧ q.passTurn.closed = q.closed ∧
      q.passTurn.free = q.free ∧ q.passTurn.granted = q.granted ∧
      q.passTurn.putters = q.putters := by
  unfold passTurn
  split <;> exact ⟨rfl, rfl, rfl, rfl, rfl, rfl, rfl⟩

theorem slots_releaseSlot (q : WorkQueue α) : q.releaseSlot.slots = q.slots + 1 := by
  unfold releaseSlot WorkQueue.slots
  split <;> simp only [List.length_append, List.length_singleton] <;> omega

theorem slots_passTurn (q : WorkQueue α) : q.passTurn.slots = q.slots := by
  obtain ⟨-, hb, -, -, hf, hg, -⟩ := passTurn_frame q
  simp only [WorkQueue.slots, hb, hf, hg]

theorem full_releaseSlot (h : q.putters ≠ [] → q.free = 0) :
    q.releaseSlot.putters ≠ [] → q.releaseSlot.free = 0 := by
  unfold releaseSlot
  split
  · intro hp
    exact absurd ‹_› hp
  · rename_i hp
    intro _
    exact h (by simp [hp])

theorem turn_passTurn (q : WorkQueue α) : q.passTurn.turn = .free → q.passTurn.getters = [] := by
  unfold passTurn
  split
  · intro _
    assumption
  · intro h
    exact absurd h (by simp)

theorem putting_releaseSlot (h : q.Putting u) : q.releaseSlot.Putting u := by
  unfold releaseSlot
  split
  · exact h
  · rename_i hp
    rcases h with h | h
    · exact .inl (List.mem_append_left _ h)
    · rw [hp] at h
      rcases List.mem_cons.1 h with rfl | h
      · exact .inl (by simp)
      · exact .inr h

theorem getting_passTurn (h : u ∈ q.getters) : q.passTurn.Getting u := by
  unfold passTurn
  split
  · rename_i hg
    rw [hg] at h
    exact absurd h List.not_mem_nil
  · rename_i hg
    rw [hg] at h
    rcases List.mem_cons.1 h with rfl | h
    · exact .inl rfl
    · exact .inr h

/-- Passing on the turn takes it from its owner only. -/
theorem getting_passTurn_of_ne (ho : ∀ o, q.turn.owner = some o → o = t) (hu : u ≠ t)
    (h : q.Getting u) : q.passTurn.Getting u := by
  rcases h with h | h
  · exact absurd (ho u h) hu
  · exact getting_passTurn h

/-! ### Putting -/

theorem put_waiting (h : q.put t item = (q', .waiting)) :
    q.Dealing t q' ∧ q'.buffer = q.buffer ∧ q'.outstanding = q.outstanding ∧ q'.Putting t := by
  unfold put at h
  split at h
  · cases h
  split at h
  · cases h
    exact ⟨.refl q t, rfl, rfl, .inr ‹_›⟩
  split at h
  · cases h
  split at h
  · cases h
  · rename_i hfree
    cases h
    refine ⟨⟨rfl, rfl, fun hs => ⟨hs.slots, fun _ => ?_, hs.turn⟩, fun u _ hu => ?_,
      fun _ _ => id⟩, rfl, rfl, .inr (by simp)⟩
    · exact Nat.eq_zero_of_not_pos hfree
    · exact hu.imp_right (List.mem_append_left _)

theorem put_ok (h : q.put t item = (q', .done (.ok ()))) :
    q.Dealing t q' ∧ q'.buffer = q.buffer ++ [item] ∧ q'.outstanding = q.outstanding + 1 := by
  unfold put at h
  split at h
  · rename_i hg
    cases h
    have hlen := List.length_erase_of_mem hg
    have hpos := List.length_pos_of_mem hg
    refine ⟨⟨rfl, rfl, fun hs => ⟨?_, hs.full, hs.turn⟩, fun u hu hp => ?_, fun _ _ => id⟩, rfl,
      rfl⟩
    · have := hs.slots
      simp only [WorkQueue.slots, push, List.length_append, List.length_singleton] at this ⊢
      omega
    · exact hp.imp_left (List.mem_erase_of_ne hu).2
  split at h
  · cases h
  split at h
  · cases h
  split at h
  · rename_i hfree
    cases h
    refine ⟨⟨rfl, rfl, fun hs => ⟨?_, fun hp => ?_, hs.turn⟩, fun _ _ => id, fun _ _ => id⟩, rfl,
      rfl⟩
    · have := hs.slots
      simp only [WorkQueue.slots, push, List.length_append, List.length_singleton] at this ⊢
      omega
    · have := hs.full hp
      omega
  · cases h

theorem put_error {fault : QueueFault} (h : q.put t item = (q', .done (.error fault))) :
    q' = q ∧ q.closed = true := by
  unfold put at h
  split at h
  · cases h
  split at h
  · cases h
  split at h
  · cases h
    exact ⟨rfl, ‹_›⟩
  split at h <;> cases h

theorem put_of_mem_putters (hg : t ∉ q.granted) (hp : t ∈ q.putters) :
    q.put t item = (q, .waiting) := by
  unfold put
  rw [if_neg hg, if_pos hp]

/-! ### Getting -/

theorem serve_waiting (h : q.serve t = (q', .waiting)) :
    q' = { q with turn := .held t } ∧ q.buffer = [] ∧ q.closed = false := by
  unfold serve at h
  split at h
  · cases h
  split at h
  · cases h
  · cases h
    exact ⟨rfl, ‹_›, Bool.eq_false_iff.2 ‹_›⟩

theorem serve_none (h : q.serve t = (q', .done none)) :
    q' = q.passTurn ∧ q.buffer = [] ∧ q.closed = true := by
  unfold serve at h
  split at h
  · cases h
  split at h
  · cases h
    exact ⟨rfl, ‹_›, ‹_›⟩
  · cases h

theorem serve_some (h : q.serve t = (q', .done (some item))) :
    ∃ rest, q.buffer = item :: rest ∧ q' = ({ q with buffer := rest }).releaseSlot.passTurn := by
  unfold serve at h
  split at h
  · rename_i rest hb
    cases h
    exact ⟨rest, hb, rfl⟩
  split at h <;> cases h

/-- A participant is served when the turn is free or its own, and waits otherwise. -/
theorem get_cases (q : WorkQueue α) (t : Ticket) :
    (q.get t = q.serve t ∧ ∀ o, q.turn.owner = some o → o = t) ∨
      ∃ q', q.get t = (q', .waiting) ∧ q.Dealing t q' ∧ q'.buffer = q.buffer ∧
        q'.outstanding = q.outstanding ∧ q'.Getting t := by
  unfold get
  split
  · rename_i ho
    exact .inl ⟨rfl, fun o h => by rw [ho] at h; cases h⟩
  · rename_i owner ho
    split
    · rename_i he
      exact .inl ⟨rfl, fun o h => by rw [ho] at h; cases h; exact he.symm⟩
    split
    · exact .inr ⟨q, rfl, .refl q t, rfl, rfl, .inr ‹_›⟩
    · refine .inr ⟨_, rfl, ⟨rfl, rfl, fun hs => ⟨hs.slots, hs.full, fun h => ?_⟩, fun _ _ => id,
        fun u _ hu => ?_⟩, rfl, rfl, .inr (by simp)⟩
      · change q.turn = .free at h
        rw [h] at ho
        cases ho
      · exact hu.imp_right (List.mem_append_left _)

theorem get_waiting (h : q.get t = (q', .waiting)) :
    q.Dealing t q' ∧ q'.buffer = q.buffer ∧ q'.outstanding = q.outstanding ∧ q'.Getting t := by
  rcases get_cases q t with ⟨hserve, howner⟩ | ⟨q'', hget, hq''⟩
  · obtain ⟨rfl, -, -⟩ := serve_waiting (hserve ▸ h)
    refine ⟨⟨rfl, rfl, fun hs => ⟨hs.slots, hs.full, fun h => by cases h⟩, fun _ _ => id,
      fun u hu hg => ?_⟩, rfl, rfl, .inl rfl⟩
    rcases hg with hg | hg
    · exact absurd (howner u hg) hu
    · exact .inr hg
  · rw [hget] at h
    cases h
    exact hq''

/-- Who has the turn or nobody passes it on. -/
theorem passTurn_dealing (howner : ∀ o, q.turn.owner = some o → o = t) :
    q.Dealing t q.passTurn := by
  obtain ⟨hc, -, -, hcl, hf, hg, hp⟩ := passTurn_frame q
  refine ⟨hc, hcl, fun hs => ⟨?_, ?_, turn_passTurn q⟩, fun u _ hu => ?_,
    fun u hu hg => getting_passTurn_of_ne howner hu hg⟩
  · rw [slots_passTurn, hc, hs.slots]
  · rw [hp, hf]
    exact hs.full
  · unfold Putting
    rwa [hg, hp]

theorem get_none (h : q.get t = (q', .done none)) :
    q.Dealing t q' ∧ q'.buffer = q.buffer ∧ q'.outstanding = q.outstanding ∧ q.closed = true ∧
      q.buffer = [] := by
  rcases get_cases q t with ⟨hserve, howner⟩ | ⟨q'', hget, -⟩
  · obtain ⟨rfl, hbuf, hclosed⟩ := serve_none (hserve ▸ h)
    obtain ⟨-, hb, ho, -⟩ := passTurn_frame q
    exact ⟨passTurn_dealing howner, hb, ho, hclosed, hbuf⟩
  · rw [hget] at h
    cases h

theorem get_some (h : q.get t = (q', .done (some item))) :
    q.Dealing t q' ∧ q.buffer = item :: q'.buffer ∧ q'.outstanding = q.outstanding := by
  rcases get_cases q t with ⟨hserve, howner⟩ | ⟨q'', hget, -⟩
  · obtain ⟨rest, hbuf, rfl⟩ := serve_some (hserve ▸ h)
    set q₁ : WorkQueue α := { q with buffer := rest } with hq₁
    obtain ⟨hc, hb, ho, hcl, hf, hg, hp⟩ := passTurn_frame q₁.releaseSlot
    obtain ⟨hc₁, hb₁, ho₁, hcl₁, ht₁, hg₁⟩ := releaseSlot_frame q₁
    refine ⟨⟨hc.trans hc₁, hcl.trans hcl₁, fun hs => ⟨?_, ?_, turn_passTurn _⟩, fun u _ hu => ?_,
      fun u hu hgu => ?_⟩, ?_, ho.trans ho₁⟩
    · -- the slot of the item goes on, so none is lost
      have hslots := hs.slots
      rw [slots_passTurn, slots_releaseSlot, hc.trans hc₁, ← hs.slots]
      simp only [WorkQueue.slots, hq₁, hbuf, List.length_cons]
      omega
    · rw [hp, hf]
      exact full_releaseSlot (q := q₁) hs.full
    · have := putting_releaseSlot (q := q₁) hu
      unfold Putting at this ⊢
      rwa [hg, hp]
    · refine getting_passTurn_of_ne (fun o h => howner o ?_) hu ?_
      · rwa [ht₁] at h
      · unfold Getting
        rwa [ht₁, hg₁]
    · rw [hb, hb₁, hbuf]
  · rw [hget] at h
    cases h

/-- Whoever has found the buffer empty goes on waiting while it is empty and the queue open. -/
theorem get_of_held (ht : q.turn = .held t) (hb : q.buffer = []) (hc : q.closed = false) :
    q.get t = (q, .waiting) := by
  cases q
  simp only at ht hb hc
  subst ht hb hc
  simp [get, serve, Turn.owner]

theorem get_of_mem_getters {o : Ticket} (ho : q.turn.owner = some o) (hne : t ≠ o)
    (hg : t ∈ q.getters) : q.get t = (q, .waiting) := by
  unfold get
  rw [ho]
  simp only [if_neg hne, if_pos hg]

/-! ### Leaving, marking, closing -/

theorem leave_dealing (q : WorkQueue α) (t : Ticket) :
    q.Dealing t (q.leave t) ∧ (q.leave t).buffer = q.buffer ∧
      (q.leave t).outstanding = q.outstanding := by
  unfold leave
  split
  · rename_i hg
    set q₁ : WorkQueue α := { q with granted := q.granted.erase t } with hq₁
    obtain ⟨hc₁, hb₁, ho₁, hcl₁, ht₁, hg₁⟩ := releaseSlot_frame q₁
    have hlen := List.length_erase_of_mem hg
    have hpos := List.length_pos_of_mem hg
    refine ⟨⟨hc₁, hcl₁, fun hs => ⟨?_, full_releaseSlot (q := q₁) hs.full, ?_⟩, fun u hu hp => ?_,
      fun u _ hu => ?_⟩, hb₁, ho₁⟩
    · have := hs.slots
      rw [slots_releaseSlot, hc₁]
      simp only [WorkQueue.slots, hq₁] at this ⊢
      omega
    · rw [ht₁, hg₁]
      exact hs.turn
    · exact putting_releaseSlot (q := q₁) (hp.imp_left (List.mem_erase_of_ne hu).2)
    · unfold Getting
      rwa [ht₁, hg₁]
  split
  · refine ⟨⟨rfl, rfl, fun hs => ⟨hs.slots, fun hp => hs.full fun h => hp ?_, hs.turn⟩,
      fun u hu hp => hp.imp_right (List.mem_erase_of_ne hu).2, fun _ _ => id⟩, rfl, rfl⟩
    change q.putters.erase t = []
    rw [h]
    rfl
  split
  · rename_i ho
    obtain ⟨-, hb, hout, -⟩ := passTurn_frame q
    refine ⟨passTurn_dealing fun o h => ?_, hb, hout⟩
    rw [ho] at h
    cases h
    rfl
  · refine ⟨⟨rfl, rfl, fun hs => ⟨hs.slots, hs.full, fun h => ?_⟩, fun _ _ => id,
      fun u hu hg => hg.imp_right (List.mem_erase_of_ne hu).2⟩, rfl, rfl⟩
    change q.getters.erase t = []
    rw [hs.turn h]
    rfl

theorem markDone_ok (h : q.markDone = .ok q') :
    q' = { q with outstanding := q'.outstanding } ∧ q.outstanding = q'.outstanding + 1 := by
  unfold markDone at h
  split at h
  · cases h
  · cases h
    exact ⟨rfl, by simp only; omega⟩

theorem markDone_error {fault : QueueFault} (h : q.markDone = .error fault) :
    q.outstanding = 0 := by
  unfold markDone at h
  split at h
  · assumption
  · cases h

theorem Dealing.markDone (h : q.markDone = .ok q') (t : Ticket) : q.Dealing t q' := by
  obtain ⟨hq', -⟩ := markDone_ok h
  rw [hq']
  exact ⟨rfl, rfl, fun hs => ⟨hs.slots, hs.full, hs.turn⟩, fun _ _ => id, fun _ _ => id⟩

theorem Sound.close (h : q.Sound) : q.close.Sound :=
  ⟨h.slots, h.full, h.turn⟩

/-! ### Who could get further -/

/-- If nobody could get further, no slot is granted, and a turn that is not free is held before an
empty buffer of an open queue. -/
theorem granted_of_callable_nil (h : q.callable = []) :
    q.granted = [] ∧ (q.turn = .free ∨ ∃ t, q.turn = .held t ∧ q.buffer = [] ∧ q.closed = false) := by
  unfold callable at h
  obtain ⟨hg, ht⟩ := List.append_eq_nil_iff.1 h
  refine ⟨hg, ?_⟩
  split at ht
  · exact .inl ‹_›
  · cases ht
  · rename_i t hturn
    split at ht
    · rename_i hidle
      simp only [Bool.and_eq_true, List.isEmpty_iff, Bool.not_eq_true'] at hidle
      exact .inr ⟨t, hturn, hidle.1, hidle.2⟩
    · cases ht

end LoadGenerator.WorkQueue
