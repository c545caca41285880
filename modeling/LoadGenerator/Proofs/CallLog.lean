import LoadGenerator.CallLog
import LoadGenerator.Proofs.Counting
import LoadGenerator.Worker

/-!
# Counting the calls of a run

The log keeps the calls of earlier runs too, so a run counts the calls made `since` it started:
`countSince` says how many of them have come to a state. A call in flight is answered, lost with the
worker that made it, or abandoned; the lemmas say how starting a call, replying to it and moving it
on change the counts.
-/

namespace LoadGenerator

namespace CallState

def isAnswered : CallState → Bool
  | .returned (.response _) => true
  | .returned (.failure _) => true
  | _ => false

/-- The caller has taken a response of status 200. -/
def isSuccess : CallState → Bool
  | .returned (.response status) => status == 200
  | _ => false

/-- The caller has taken an answer that is no success. -/
def isFailure (s : CallState) : Bool :=
  s.isAnswered && !s.isSuccess

def isTransportError : CallState → Bool
  | .returned (.failure _) => true
  | _ => false

def isHttpFailure (s : CallState) : Bool :=
  s.isFailure && !s.isTransportError

/-- The transport has broken down under the caller. -/
def isLost : CallState → Bool
  | .returned .breakdown => true
  | _ => false

/-- The caller has gone away. -/
def isAbandoned : CallState → Bool
  | .abandoned => true
  | _ => false

/-- The state of a new call, which may be replied to at once. -/
def ofReply? : Option Reply → CallState
  | none => .waiting
  | some reply => .replied reply

theorem isInFlight_ofReply? (reply : Option Reply) : (ofReply? reply).isInFlight = true := by
  cases reply <;> rfl

theorem of_isInFlight {s : CallState} (h : s.isInFlight = true) :
    s.isAnswered = false ∧ s.isSuccess = false ∧ s.isTransportError = false ∧ s.isLost = false ∧
      s.isAbandoned = false := by
  cases s with
  | waiting | replied => exact ⟨rfl, rfl, rfl, rfl, rfl⟩
  | returned | abandoned => cases h

end CallState

namespace CallLog

variable {log before : CallLog} {n m : Nat} {s u : CallState} {reply : Reply} {target : Target}

/-- The calls made since the log was as it was before. -/
def since (log before : CallLog) : List Call :=
  log.calls.toList.drop before.size

/-- How many of the calls made since then have come to a state of some kind. -/
def countSince (log before : CallLog) (p : CallState → Bool) : Nat :=
  (log.since before).countP fun call => p call.state

/-! ### Single calls -/

theorem state?_eq_some_iff : log.state? n = some s ↔
    0 < n ∧ ∃ call, log.calls.toList[n - 1]? = some call ∧ call.state = s := by
  cases n with
  | zero => simp [state?, get?]
  | succ n => simp [state?, get?]

theorem le_size_of_state? (h : log.state? n = some s) : n ≤ log.size := by
  obtain ⟨hn, call, hcall, -⟩ := state?_eq_some_iff.1 h
  have := (List.getElem?_eq_some_iff.1 hcall).1
  simp only [Array.length_toList] at this
  unfold size
  omega

theorem size_set (log : CallLog) (n : Nat) (s : CallState) : (log.set n s).size = log.size := by
  cases n with
  | zero => rfl
  | succ n => simp [set, size]

theorem state?_set_self (h : log.state? n = some s) : (log.set n u).state? n = some u := by
  cases n with
  | zero => simp [state?, get?] at h
  | succ n =>
    obtain ⟨-, call, hcall, -⟩ := state?_eq_some_iff.1 h
    simp only [Nat.add_sub_cancel, Array.getElem?_toList] at hcall
    simp [state?, get?, set, Array.getElem?_modify, hcall]

theorem state?_set_of_ne (h : m ≠ n) : (log.set n u).state? m = log.state? m := by
  cases n with
  | zero => rfl
  | succ n =>
    cases m with
    | zero => rfl
    | succ m =>
      have hne : n ≠ m := fun he => h (he ▸ rfl)
      simp [state?, get?, set, Array.getElem?_modify, hne]

theorem size_start (log : CallLog) (target : Target) : (log.start target).size = log.size + 1 := by
  simp [start, size]

theorem state?_start_of_le (h : m ≤ log.size) : (log.start target).state? m = log.state? m := by
  cases m with
  | zero => rfl
  | succ m =>
    have hne : m ≠ log.calls.size := by unfold size at h; omega
    simp [state?, get?, start, Array.getElem?_push, hne]

theorem state?_start_new : (log.start target).state? (log.size + 1) = some .waiting := by
  simp [state?, get?, start, size]

theorem reply_eq (log : CallLog) (n : Nat) (r : Reply) :
    (log.state? n = some .waiting ∧ log.reply n r = log.set n (.replied r)) ∨
      log.reply n r = log := by
  unfold reply isWaiting
  split
  · rename_i h
    exact .inl ⟨eq_of_beq h, rfl⟩
  · exact .inr rfl

theorem size_reply (log : CallLog) (n : Nat) (r : Reply) : (log.reply n r).size = log.size := by
  rcases reply_eq log n r with ⟨-, h⟩ | h
  · rw [h, size_set]
  · rw [h]

/-- A reply that has been taken stays. -/
theorem state?_reply_of_returned {taken : Reply} (n : Nat) (r : Reply)
    (h : log.state? m = some (.returned taken)) :
    (log.reply n r).state? m = some (.returned taken) := by
  rcases reply_eq log n r with ⟨hwaiting, hset⟩ | hsame
  · have hne : m ≠ n := by
      rintro rfl
      rw [hwaiting] at h
      cases h
    rw [hset, state?_set_of_ne hne, h]
  · rw [hsame, h]

theorem startWith_some (log : CallLog) (target : Target) (r : Reply) :
    log.startWith target (some r) = (log.start target).set (log.size + 1) (.replied r) := by
  simp [startWith, reply, isWaiting, state?_start_new]

theorem size_startWith (log : CallLog) (target : Target) (r : Option Reply) :
    (log.startWith target r).size = log.size + 1 := by
  cases r with
  | none => exact size_start log target
  | some r => rw [startWith_some, size_set, size_start]

theorem state?_startWith_of_le (r : Option Reply) (h : m ≤ log.size) :
    (log.startWith target r).state? m = log.state? m := by
  cases r with
  | none => exact state?_start_of_le h
  | some r => rw [startWith_some, state?_set_of_ne (by omega), state?_start_of_le h]

theorem state?_startWith_new (r : Option Reply) :
    (log.startWith target r).state? (log.size + 1) = some (.ofReply? r) := by
  cases r with
  | none => exact state?_start_new
  | some r => rw [startWith_some, state?_set_self state?_start_new]; rfl

theorem mem_filter {p : CallState → Bool} :
    n ∈ log.filter p ↔ ∃ s, log.state? n = some s ∧ p s = true := by
  unfold filter
  rw [List.mem_filterMap]
  constructor
  · rintro ⟨⟨call, m⟩, hmem, hm⟩
    simp only [Option.ite_none_right_eq_some, Option.some.injEq] at hm
    obtain ⟨hp, rfl⟩ := hm
    obtain ⟨hpos, hcall⟩ := List.mk_mem_zipIdx_iff_le_and_getElem?_sub.1 hmem
    exact ⟨call.state, state?_eq_some_iff.2 ⟨hpos, call, hcall, rfl⟩, hp⟩
  · rintro ⟨s, hs, hp⟩
    obtain ⟨hpos, call, hcall, rfl⟩ := state?_eq_some_iff.1 hs
    refine ⟨(call, n), List.mk_mem_zipIdx_iff_le_and_getElem?_sub.2 ⟨hpos, hcall⟩, ?_⟩
    simp [hp]

theorem mem_waiting : n ∈ log.waiting ↔ log.state? n = some .waiting := by
  unfold waiting
  rw [mem_filter]
  constructor
  · rintro ⟨s, hs, he⟩
    rw [hs, eq_of_beq he]
  · exact fun hs => ⟨.waiting, hs, rfl⟩

theorem reply?_eq_some (h : log.reply? n = some reply) : log.state? n = some (.replied reply) := by
  unfold reply? at h
  split at h
  · cases h
    assumption
  · cases h

theorem reply?_eq_none (h : log.reply? n = none) : log.state? n ≠ some (.replied reply) := by
  intro hs
  simp [reply?, hs] at h

/-! ### The calls of a run -/

theorem since_self (log : CallLog) : log.since log = [] := by
  simp [since, size]

theorem length_since (log before : CallLog) :
    (log.since before).length = log.size - before.size := by
  simp [since, size]

theorem since_start (target : Target) (h : before.size ≤ log.size) :
    (log.start target).since before = log.since before ++ [{ target := target }] := by
  unfold size at h
  simp [since, start, size, List.drop_append_of_le_length, h]

theorem since_set_of_le (h : n ≤ before.size) : (log.set n u).since before = log.since before := by
  cases n with
  | zero => rfl
  | succ n => simp only [since, set, Array.toList_modify, List.drop_modify_of_lt _ _ _ _ h]

theorem since_set_of_lt (h : before.size < n) : (log.set n u).since before =
    (log.since before).modify (n - 1 - before.size) fun call => { call with state := u } := by
  cases n with
  | zero => omega
  | succ n =>
    simp only [since, set, Array.toList_modify, Nat.add_sub_cancel]
    exact List.drop_modify_of_ge _ _ _ _ (by omega)

theorem getElem?_since (hn : before.size < n) (h : log.state? n = some s) :
    ∃ call, (log.since before)[n - 1 - before.size]? = some call ∧ call.state = s := by
  obtain ⟨-, call, hcall, hs⟩ := state?_eq_some_iff.1 h
  refine ⟨call, ?_, hs⟩
  rw [since, List.getElem?_drop, ← hcall]
  congr 1
  omega

/-- A call made since then is among those since then. -/
theorem get?_of_state? (hn : before.size < n) (h : log.state? n = some s) :
    ∃ call, log.get? n = some call ∧ call ∈ log.since before ∧ call.state = s := by
  obtain ⟨hpos, call, hcall, rfl⟩ := state?_eq_some_iff.1 h
  refine ⟨call, ?_, ?_, rfl⟩
  · obtain ⟨m, rfl⟩ := Nat.exists_eq_succ_of_ne_zero (Nat.ne_of_gt hpos)
    rw [← hcall, Array.getElem?_toList]
    rfl
  · have hdrop : (log.since before)[n - 1 - before.size]? = log.calls.toList[n - 1]? := by
      rw [since, List.getElem?_drop]
      congr 1
      omega
    exact List.mem_of_getElem? (hdrop.trans hcall)

theorem state?_of_getElem?_since {i : Nat} {call : Call} (h : (log.since before)[i]? = some call) :
    log.state? (before.size + i + 1) = some call.state := by
  rw [since, List.getElem?_drop] at h
  exact state?_eq_some_iff.2 ⟨Nat.succ_pos _, call, h, rfl⟩

theorem targets_set (log before : CallLog) (n : Nat) (s : CallState) :
    ((log.set n s).since before).map Call.target = (log.since before).map Call.target := by
  rcases Nat.lt_or_ge before.size n with h | h
  · rw [since_set_of_lt h]
    apply List.ext_getElem?
    intro i
    simp only [List.getElem?_map, List.getElem?_modify]
    split <;> cases (log.since before)[i]? <;> rfl
  · rw [since_set_of_le h]

theorem targets_reply (log before : CallLog) (n : Nat) (r : Reply) :
    ((log.reply n r).since before).map Call.target = (log.since before).map Call.target := by
  rcases reply_eq log n r with ⟨-, h⟩ | h
  · rw [h, targets_set]
  · rw [h]

theorem targets_startWith (target : Target) (r : Option Reply) (h : before.size ≤ log.size) :
    ((log.startWith target r).since before).map Call.target =
      (log.since before).map Call.target ++ [target] := by
  have hstart : ((log.start target).since before).map Call.target =
      (log.since before).map Call.target ++ [target] := by
    rw [since_start target h, List.map_append]
    rfl
  cases r with
  | none => exact hstart
  | some r => rw [startWith_some, targets_set, hstart]

variable {p : CallState → Bool}

/-- A call that moves on leaves one count and enters another. -/
theorem countSince_set (hn : before.size < n) (h : log.state? n = some s) :
    (log.set n u).countSince before p + (if p s then 1 else 0) =
      log.countSince before p + (if p u then 1 else 0) := by
  obtain ⟨call, hcall, rfl⟩ := getElem?_since hn h
  have hset : (log.set n u).since before =
      (log.since before).set (n - 1 - before.size) { call with state := u } := by
    rw [since_set_of_lt hn, List.modify_eq_set_getElem?, hcall]
    rfl
  rw [countSince, hset]
  exact countP_set_of_getElem? (q := fun call => p call.state) hcall

theorem countSince_pos (hn : before.size < n) (h : log.state? n = some s) (hp : p s = true) :
    0 < log.countSince before p := by
  obtain ⟨call, hcall, rfl⟩ := getElem?_since hn h
  exact List.countP_pos_iff.2 ⟨call, List.mem_of_getElem? hcall, hp⟩

/-- A call that a count does not see yet may enter it. -/
theorem countSince_set_of_not (hn : before.size < n) (h : log.state? n = some s) (hp : p s = false) :
    (log.set n u).countSince before p = log.countSince before p + (if p u then 1 else 0) := by
  have hcount := countSince_set (p := p) (u := u) hn h
  rw [hp] at hcount
  exact hcount

theorem countSince_set_of_le (h : n ≤ before.size) :
    (log.set n u).countSince before p = log.countSince before p := by
  rw [countSince, since_set_of_le h, countSince]

theorem countSince_reply (n : Nat) (r : Reply) (hp : p (.replied r) = p .waiting) :
    (log.reply n r).countSince before p = log.countSince before p := by
  rcases reply_eq log n r with ⟨hw, h⟩ | h
  · rw [h]
    rcases Nat.lt_or_ge before.size n with hn | hn
    · have := countSince_set (p := p) (u := .replied r) hn hw
      rw [hp] at this
      omega
    · exact countSince_set_of_le hn
  · rw [h]

theorem countSince_startWith (target : Target) (r : Option Reply) (h : before.size ≤ log.size) :
    (log.startWith target r).countSince before p =
      log.countSince before p + (if p (.ofReply? r) then 1 else 0) := by
  have hstart : (log.start target).countSince before p =
      log.countSince before p + (if p .waiting then 1 else 0) := by
    rw [countSince, since_start target h, List.countP_append]
    simp [countSince]
  cases r with
  | none => exact hstart
  | some r =>
    have hnew : (log.start target).state? (log.size + 1) = some .waiting := state?_start_new
    have := countSince_set (p := p) (u := .replied r)
      (show before.size < log.size + 1 by omega) hnew
    rw [hstart] at this
    rw [startWith_some]
    change _ = _ + (if p (.replied r) = true then 1 else 0)
    omega

theorem countSince_le (log before : CallLog) (p : CallState → Bool) :
    log.countSince before p ≤ (log.since before).length :=
  List.countP_le_length

theorem countSince_self (log : CallLog) (p : CallState → Bool) : log.countSince log p = 0 := by
  rw [countSince, since_self]
  rfl

theorem countSince_add {q r : CallState → Bool}
    (h : ∀ s, (p s).toNat = (q s).toNat + (r s).toNat) :
    log.countSince before p = log.countSince before q + log.countSince before r := by
  unfold countSince
  induction log.since before with
  | nil => rfl
  | cons call rest ih =>
    have := h call.state
    simp only [List.countP_cons, ih]
    revert this
    cases p call.state <;> cases q call.state <;> cases r call.state <;> simp <;> omega

/-- Every call of a run is in flight, answered, lost or abandoned. -/
theorem length_since_eq (log before : CallLog) : (log.since before).length =
    log.countSince before CallState.isInFlight + log.countSince before CallState.isAnswered +
      log.countSince before CallState.isLost + log.countSince before CallState.isAbandoned := by
  have hall : (log.since before).length = log.countSince before fun _ => true := by
    simp [countSince]
  have hboth : log.countSince before (fun _ => true) =
      log.countSince before (fun s => s.isInFlight || s.isAnswered) +
        log.countSince before (fun s => s.isLost || s.isAbandoned) :=
    countSince_add fun s => by rcases s with _ | _ | (_ | _ | _) | _ <;> rfl
  have hused : log.countSince before (fun s => s.isInFlight || s.isAnswered) =
      log.countSince before CallState.isInFlight + log.countSince before CallState.isAnswered :=
    countSince_add fun s => by rcases s with _ | _ | (_ | _ | _) | _ <;> rfl
  have hgone : log.countSince before (fun s => s.isLost || s.isAbandoned) =
      log.countSince before CallState.isLost + log.countSince before CallState.isAbandoned :=
    countSince_add fun s => by rcases s with _ | _ | (_ | _ | _) | _ <;> rfl
  omega

theorem countSince_isAnswered (log before : CallLog) :
    log.countSince before CallState.isAnswered =
      log.countSince before CallState.isSuccess + log.countSince before CallState.isFailure := by
  refine countSince_add fun s => ?_
  rcases s with _ | _ | (status | _ | _) | _
  case returned.response =>
    simp only [CallState.isFailure, CallState.isAnswered, CallState.isSuccess]
    cases status == 200 <;> rfl
  all_goals rfl

theorem countSince_isFailure (log before : CallLog) :
    log.countSince before CallState.isFailure =
      log.countSince before CallState.isHttpFailure +
        log.countSince before CallState.isTransportError := by
  refine countSince_add fun s => ?_
  rcases s with _ | _ | (status | _ | _) | _
  case returned.response =>
    simp only [CallState.isHttpFailure, CallState.isFailure, CallState.isAnswered,
      CallState.isSuccess, CallState.isTransportError]
    cases status == 200 <;> rfl
  all_goals rfl

end CallLog

end LoadGenerator
