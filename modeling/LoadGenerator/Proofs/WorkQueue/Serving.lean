import LoadGenerator.Proofs.WorkQueue.Order

/-!
# Who is served by a dealing

Slots and the turn each have a `Line`: some own one, the others wait behind them. What one participant
does serves at most one of them, the first who waits, or itself if it has just come and nobody waits
(`Line.Serves`). It does not matter whether the slot, or the turn, has been free, granted or held
before: in each case those in line keep their places.
-/

namespace LoadGenerator.WorkQueue

variable {α : Type} {q q' : WorkQueue α} {t u : Ticket} {what : Request α} {b : Option (Answer α)}
  {item : α} {came : List Ticket}

/-- What there is to wait for. -/
inductive Good where
  | slot
  | turn
  deriving DecidableEq, Repr

/-- Those who own something, and those who wait for it. -/
structure Line where
  owners : List Ticket
  waiting : List Ticket
  deriving DecidableEq, Repr

def line (q : WorkQueue α) : Good → Line
  | .slot => ⟨q.granted, q.putters⟩
  | .turn => ⟨q.turn.owner.toList, q.getters⟩

/-- The requests that wait for it. -/
def Good.isFor : Good → Request α → Bool
  | .slot => Request.isPut
  | .turn => Request.isGet

namespace Answer

def isGot : Answer α → Bool
  | .got _ => true
  | _ => false

/-- Whoever gets this answer has owned a slot, or the turn, until then. -/
def isUseOf : Good → Answer α → Bool
  | .slot => isAccepted
  | .turn => isGot

end Answer

/-! ### Who is served by a dealing -/

namespace Line

variable {l l' : Line} {done : List Ticket}

/-- Of those who wait, with those who have just come behind them, at most the first one is served;
all others who own something afterwards, or are done with it, have owned it before. -/
def Serves (l : Line) (came : List Ticket) (l' : Line) (done : List Ticket) : Prop :=
  ∃ served : List Ticket, served.length ≤ 1 ∧
    (served ++ l'.waiting).Sublist (l.waiting ++ came) ∧
    ∀ u ∈ l'.owners ++ done, u ∈ l.owners ∨ u ∈ served

/-- Nobody is served. -/
theorem Serves.nobody (howners : ∀ u ∈ l'.owners ++ done, u ∈ l.owners)
    (hwaiting : l'.waiting.Sublist (l.waiting ++ came)) : l.Serves came l' done :=
  ⟨[], Nat.zero_le 1, hwaiting, fun u hu => .inl (howners u hu)⟩

theorem Serves.refl (l : Line) (came : List Ticket) : l.Serves came l [] :=
  .nobody (by simp) (List.sublist_append_left _ _)

/-- The first who waits is served. -/
theorem Serves.first (hl : l.waiting = t :: l'.waiting)
    (howners : ∀ u ∈ l'.owners ++ done, u ∈ l.owners ∨ u = t) (came : List Ticket) :
    l.Serves came l' done := by
  refine ⟨[t], Nat.le_refl 1, ?_, fun u hu => (howners u hu).imp_right List.mem_singleton.2⟩
  rw [hl]
  exact List.sublist_append_left _ _

/-- Nobody waits, and the only one who comes is served. -/
theorem Serves.comer (hl : l.waiting = []) (hl' : l'.waiting = [])
    (howners : ∀ u ∈ l'.owners ++ done, u ∈ l.owners ∨ u = t) : l.Serves [t] l' done := by
  refine ⟨[t], Nat.le_refl 1, ?_, fun u hu => (howners u hu).imp_right List.mem_singleton.2⟩
  rw [hl, hl']
  exact .refl _

end Line

theorem serves_releaseSlot (q : WorkQueue α) (came : List Ticket) :
    (q.line .slot).Serves came (q.releaseSlot.line .slot) [] := by
  unfold releaseSlot
  split
  · exact .refl _ came
  · rename_i t rest hp
    exact .first hp (fun u hu => by simpa [line] using hu) came

theorem line_turn_releaseSlot (q : WorkQueue α) : q.releaseSlot.line .turn = q.line .turn := by
  obtain ⟨-, -, -, -, ht, hg⟩ := releaseSlot_frame q
  rw [line, line, ht, hg]

theorem line_slot_passTurn (q : WorkQueue α) : q.passTurn.line .slot = q.line .slot := by
  obtain ⟨-, -, -, -, -, hg, hp⟩ := passTurn_frame q
  rw [line, line, hg, hp]

/-- Whoever owns the turn passes it on; whoever finds it free is served and leaves it free. -/
theorem serves_passTurn (howner : ∀ o, q.turn.owner = some o → o = t)
    (hfree : q.turn.owner = none → q.getters = [] ∧ came = [t]) :
    (q.line .turn).Serves came (q.passTurn.line .turn) [t] := by
  cases ho : q.turn.owner with
  | none =>
    obtain ⟨hgetters, rfl⟩ := hfree ho
    have hpass : q.passTurn.line .turn = ⟨[], []⟩ := by
      simp [passTurn, hgetters, line, Turn.owner]
    rw [hpass]
    exact .comer hgetters rfl fun u hu => .inr (by simpa using hu)
  | some o =>
    obtain rfl := howner o ho
    have hmem : ∀ u ∈ [o], u ∈ (q.line .turn).owners := by simp [line, ho]
    unfold passTurn
    split
    · rename_i hg
      refine .nobody hmem ?_
      show q.getters.Sublist (q.getters ++ came)
      exact List.sublist_append_left _ _
    · rename_i next rest hg
      refine .first hg (fun u hu => ?_) came
      exact (List.mem_cons.1 hu).symm.imp_left (hmem u)

theorem put_ok_cases (h : q.put t item = (q', .done (.ok ()))) :
    q'.line .turn = q.line .turn ∧
      (t ∈ q.granted ∧ q'.line .slot = ⟨q.granted.erase t, q.putters⟩ ∨
        t ∉ q.putLine ∧ 0 < q.free ∧ q'.line .slot = q.line .slot) := by
  unfold put at h
  split at h
  · cases h
    exact ⟨rfl, .inl ⟨‹_›, rfl⟩⟩
  rename_i hg
  split at h
  · cases h
  rename_i hp
  split at h
  · cases h
  split at h
  · cases h
    exact ⟨rfl, .inr ⟨by simp [putLine, hg, hp], ‹_›, rfl⟩⟩
  · cases h

/-- Whoever gives up what it owns leaves it to the first who waits. -/
theorem serves_leave (q : WorkQueue α) (t : Ticket) (good : Good) :
    (q.line good).Serves [] ((q.leave t).line good) [] := by
  have hfew : ∀ l l' : List Ticket, l'.Sublist l → l'.Sublist (l ++ []) := by
    intro l l' h
    rwa [List.append_nil]
  unfold leave
  split
  · cases good with
    | slot =>
      obtain ⟨served, hone, hfirst, howners⟩ :=
        serves_releaseSlot { q with granted := q.granted.erase t } []
      exact ⟨served, hone, hfirst, fun u hu => (howners u hu).imp_left List.mem_of_mem_erase⟩
    | turn =>
      rw [line_turn_releaseSlot]
      exact .refl _ _
  split
  · cases good with
    | slot => exact .nobody (by simp [line]) (hfew _ _ List.erase_sublist)
    | turn => exact .refl _ _
  split
  · rename_i ho
    cases good with
    | slot =>
      rw [line_slot_passTurn]
      exact .refl _ _
    | turn =>
      have howner : ∀ o, q.turn.owner = some o → o = t := by
        intro o h
        rw [ho] at h
        exact (Option.some.inj h).symm
      have hpass : (q.line .turn).Serves [] (q.passTurn.line .turn) [t] :=
        serves_passTurn howner fun h => by rw [ho] at h; cases h
      obtain ⟨served, hone, hfirst, howners⟩ := hpass
      refine ⟨served, hone, hfirst, fun u hu => howners u (List.mem_append_left _ ?_)⟩
      rwa [List.append_nil] at hu
  · cases good with
    | slot => exact .refl _ _
    | turn => exact .nobody (by simp [line]) (hfew _ _ List.erase_sublist)

/-- Who has just been answered, and has owned something until then. -/
def doneWith (good : Good) (t : Ticket) (b : Option (Answer α)) : List Ticket :=
  ((b.toList.map (t, ·)).filter (·.2.isUseOf good)).map Prod.fst

theorem Tried.serves_slot (hs : q.Sound) (h : Tried q t what q' b)
    (hcame : what.isPut = true → t ∈ q.putLine ∨ t ∉ q.putLine ∧ came = [t]) :
    (q.line .slot).Serves came (q'.line .slot) (doneWith .slot t b) := by
  cases h with
  | putWaits h =>
    obtain ⟨hg, rfl⟩ := put_waiting_eq h
    refine .nobody (by simp [line, doneWith]) ?_
    show (standIn q.putters t).Sublist (q.putters ++ came)
    rcases hcame rfl with hline | ⟨hline, rfl⟩
    · rw [standIn_of_mem ((List.mem_append.1 hline).resolve_left hg)]
      exact List.sublist_append_left _ _
    · rw [standIn_of_not_mem fun hp => hline (List.mem_append_right _ hp)]
  | @putDone _ _ result h =>
    cases result with
    | error fault =>
      rw [(put_error h).1]
      exact .refl _ _
    | ok =>
      obtain ⟨-, ⟨hg, hline'⟩ | ⟨hline, hfree, hline'⟩⟩ := put_ok_cases h
      · rw [hline']
        refine .nobody (fun u hu => ?_) (List.sublist_append_left _ _)
        rcases List.mem_append.1 hu with hu | hu
        · exact List.mem_of_mem_erase hu
        · rw [List.mem_singleton.1 hu]
          exact hg
      · obtain ⟨-, rfl⟩ := (hcame rfl).resolve_left hline
        have hputters : q.putters = [] := by
          by_contra hp
          have := hs.full hp
          omega
        rw [hline']
        refine .comer hputters hputters fun u hu => ?_
        exact (List.mem_append.1 hu).imp_right List.mem_singleton.1
  | getWaits h =>
    rcases get_waiting_eq h with ⟨rfl, -⟩ | ⟨o, -, -, rfl⟩ <;> exact .refl _ _
  | @getDone _ result h =>
    rcases get_cases q t with ⟨hserve, -⟩ | ⟨q'', hget, -⟩
    · rw [hserve] at h
      cases result with
      | none =>
        obtain ⟨rfl, -, -⟩ := serve_none h
        rw [line_slot_passTurn]
        exact .refl _ _
      | some item =>
        obtain ⟨rest, -, rfl⟩ := serve_some h
        rw [line_slot_passTurn]
        exact serves_releaseSlot { q with buffer := rest } came
    · rw [hget] at h
      cases h
  | joinWaits | joined => exact .refl _ _

theorem Tried.serves_turn (hs : q.Sound) (h : Tried q t what q' b)
    (hcame : what.isGet = true → t ∈ q.getLine ∨ t ∉ q.getLine ∧ came = [t]) :
    (q.line .turn).Serves came (q'.line .turn) (doneWith .turn t b) := by
  -- a free turn is found only by who has just come
  have hfree : what.isGet = true → q.turn.owner = none → q.getters = [] ∧ came = [t] := by
    intro hget ho
    have hline := getLine_of_free hs ho
    refine ⟨(List.append_eq_nil_iff.1 hline).2, ((hcame hget).resolve_left fun h => ?_).2⟩
    rw [hline] at h
    cases h
  cases h with
  | putWaits h =>
    obtain ⟨-, rfl⟩ := put_waiting_eq h
    exact .refl _ _
  | @putDone _ _ result h =>
    cases result with
    | error fault =>
      rw [(put_error h).1]
      exact .refl _ _
    | ok =>
      rw [(put_ok_cases h).1]
      exact .refl _ _
  | getWaits h =>
    rcases get_waiting_eq h with ⟨rfl, -, -, howner⟩ | ⟨o, ho, hne, rfl⟩
    · cases ho : q.turn.owner with
      | none =>
        obtain ⟨hgetters, rfl⟩ := hfree rfl ho
        exact .comer hgetters hgetters fun u hu => .inr (by simpa [line, Turn.owner, doneWith] using hu)
      | some o =>
        obtain rfl := howner o ho
        have howners : ({ q with turn := .held o } : WorkQueue α).line .turn = q.line .turn := by
          show Line.mk [o] q.getters = ⟨q.turn.owner.toList, q.getters⟩
          rw [ho]
          rfl
        rw [howners]
        exact .refl _ _
    · refine .nobody (by simp [line, doneWith]) ?_
      show (standIn q.getters t).Sublist (q.getters ++ came)
      have hmem : t ∈ q.getLine ↔ t ∈ q.getters := by
        rw [getLine_of_owner ho, List.mem_cons, or_iff_right hne]
      rcases hcame rfl with hline | ⟨hline, rfl⟩
      · rw [standIn_of_mem (hmem.1 hline)]
        exact List.sublist_append_left _ _
      · rw [standIn_of_not_mem fun hg => hline (hmem.2 hg)]
  | @getDone _ result h =>
    rcases get_cases q t with ⟨hserve, howner⟩ | ⟨q'', hget, -⟩
    · rw [hserve] at h
      cases result with
      | none =>
        obtain ⟨rfl, -, -⟩ := serve_none h
        exact serves_passTurn howner (hfree rfl)
      | some item =>
        obtain ⟨rest, -, rfl⟩ := serve_some h
        set q₁ : WorkQueue α := { q with buffer := rest } with hq₁
        obtain ⟨-, -, -, -, hturn, hgetters⟩ := releaseSlot_frame q₁
        have hline : q.line .turn = q₁.releaseSlot.line .turn := (line_turn_releaseSlot q₁).symm
        rw [hline]
        refine serves_passTurn ?_ ?_
        · rwa [hturn]
        · rw [hturn, hgetters]
          exact hfree rfl
    · rw [hget] at h
      cases h
  | joinWaits | joined => exact .refl _ _

theorem Tried.serves (hs : q.Sound) (h : Tried q t what q' b)
    (hput : what.isPut = true → t ∈ q.putLine ∨ t ∉ q.putLine ∧ came = [t])
    (hget : what.isGet = true → t ∈ q.getLine ∨ t ∉ q.getLine ∧ came = [t]) (good : Good) :
    (q.line good).Serves came (q'.line good) (doneWith good t b) := by
  cases good with
  | slot => exact h.serves_slot hs hput
  | turn => exact h.serves_turn hs hget

/-- Whoever gets an answer has been the first of those who get, or has come when there were none. -/
theorem Tried.getLine_serve (hs : q.Sound) (h : Tried q t what q' b)
    (hcame : what.isGet = true → t ∈ q.getLine ∨ t ∉ q.getLine ∧ came = [t]) :
    (doneWith .turn t b ++ q'.getLine).Sublist (q.getLine ++ came) := by
  have hstill : ∀ q' : WorkQueue α, q'.getLine = q.getLine →
      ([] ++ q'.getLine).Sublist (q.getLine ++ came) := by
    intro q' hline
    rw [List.nil_append, hline]
    exact List.sublist_append_left _ _
  cases h with
  | putWaits h => exact hstill _ (putLine_put_waiting h).2
  | @putDone _ _ result h =>
    cases result with
    | error fault => exact hstill _ (by rw [(put_error h).1])
    | ok => exact hstill _ (putLine_put_ok h).2
  | joinWaits | joined => exact hstill _ rfl
  | getWaits h =>
    rcases hcame rfl with hline | ⟨hline, rfl⟩
    · exact hstill _ ((putLine_get_waiting hs h).2.trans (standIn_of_mem hline))
    · show q'.getLine.Sublist _
      rw [(putLine_get_waiting hs h).2, standIn_of_not_mem hline]
  | @getDone _ result h =>
    show (t :: q'.getLine).Sublist _
    rw [(putLine_get_done hs h).2]
    rcases get_cases q t with ⟨-, howner⟩ | ⟨q'', hget, -⟩
    · cases ho : q.turn.owner with
      | none =>
        have hline := getLine_of_free hs ho
        obtain ⟨-, rfl⟩ := (hcame rfl).resolve_left (by simp [hline])
        rw [hline]
        exact .refl _
      | some o =>
        obtain rfl := howner o ho
        rw [getLine_of_owner ho, List.erase_cons_head]
        exact List.sublist_append_left _ _
    · rw [hget] at h
      cases h

end LoadGenerator.WorkQueue
