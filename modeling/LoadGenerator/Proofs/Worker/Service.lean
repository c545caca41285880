import LoadGenerator.Proofs.Run.Settling
import LoadGenerator.Proofs.WorkQueue.Requests
import LoadGenerator.Proofs.Worker.Course

/-!
# One worker at a closed queue

Some items are put, the queue is closed, and one worker is started (`alone`). It is in line, or it
waits for the reply to its call, or it is over (`Attentive`); whenever it is in line its next step
leads somewhere, so it gets to its end whether the transport answers at once or later
(`worker_serves`).
-/

namespace LoadGenerator

namespace Engine

variable {script : Script} {e : Engine} {w : Worker}

/-- A worker that is the only task is in line, or it could not get further and does not look for an
item. -/
structure Attentive (e : Engine) : Prop where
  late : e.late = []
  line : e.ready = [0] ∨ e.ready = []
  rest : e.ready = [] → ∀ w, e.tasks = [.worker w] →
    w.phase ≠ .seeking ∧ e.isEnabled (.worker w) = false

theorem run_of_ready {t : TaskId} {rest : List TaskId} (h : e.ready = t :: rest) (fuel : Nat) :
    e.run script (fuel + 1) = (e.poll script t).run script fuel := by
  rw [run, h, ← tick_eq_poll h]
  rfl

theorem callable_alone (ht : e.tasks = [.worker w]) (hq : e.queue.callable = []) :
    e.callable = if e.isEnabled (.worker w) then [0] else [] := by
  unfold callable
  rw [ht, hq]
  by_cases henabled : e.isEnabled (.worker w) = true
  · simp [henabled]
  · simp [henabled]

theorem attentive_callBack (ht : e.tasks = [.worker w]) (hq : e.queue.callable = [])
    (hlate : e.late = []) (hready : e.ready = [0] ∨ e.ready = [] ∧ w.phase ≠ .seeking) :
    Attentive e.callBack := by
  have hcalls : e.callable.filter (· ∉ e.late) = if e.isEnabled (.worker w) then [0] else [] := by
    rw [hlate, callable_alone ht hq]
    split <;> rfl
  have hback : e.callBack.ready =
      (if e.isEnabled (.worker w) then [0] else []).foldl enqueue e.ready :=
    congrArg (List.foldl enqueue e.ready) hcalls
  refine ⟨hlate, ?_, fun hnil v hv => ?_⟩
  · rw [hback]
    rcases hready with hready | ⟨hready, -⟩ <;> rw [hready] <;> split <;> simp [enqueue]
  · have hv : e.tasks = [.worker v] := hv
    rw [ht] at hv
    cases hv
    rw [hback] at hnil
    show _ ∧ e.isEnabled (.worker w) = false
    rcases hready with hready | ⟨hready, hphase⟩
    · rw [hready] at hnil
      split at hnil <;> simp [enqueue] at hnil
    · refine ⟨hphase, Bool.eq_false_iff.2 fun henabled => ?_⟩
      rw [hready, if_pos henabled] at hnil
      simp [enqueue] at hnil

theorem attentive_endTurn (ht : e.tasks = [.worker w]) (hq : e.queue.callable = [])
    (hlate : e.late = [])
    (hready : e.ready.drop 1 = [0] ∨ e.ready.drop 1 = [] ∧ w.phase ≠ .seeking) :
    Attentive e.endTurn := by
  have hback : Attentive (callBack
      { e with ready := e.ready.drop 1, putInTurn := 0, turns := e.turns + 1 }) :=
    attentive_callBack ht hq hlate hready
  unfold endTurn callLate
  split
  · rw [hback.late]
    exact ⟨rfl, hback.line, hback.rest⟩
  · exact hback

end Engine

variable {policy : FailurePolicy} {items : List WorkItem} {replies : Nat → Reply} {k : Nat}
  {w : Worker} {e : Engine} {script : Script}

namespace Stock

variable {taken done : Nat} {q : WorkQueue WorkItem}

theorem not_getting (h : Stock items taken done q) (t : TaskId) : ¬ q.Getting t := by
  simp [WorkQueue.Getting, h.turn, h.getters, Turn.owner]

theorem placed (h : Stock items taken done q) (tasks : List Task) : Placed q tasks := by
  have hget : q.getLine = [] := by simp [WorkQueue.getLine, h.turn, h.getters, Turn.owner]
  have hput : q.putLine = [] := by simp [WorkQueue.putLine, h.granted, h.putters]
  exact ⟨by simp [hget], by simp [hput], by simp [hget], by simp [hput]⟩

end Stock

namespace Serving

/-- A step of the worker in line brings it nearer to its end, or it is put aside. -/
theorem poll_nearer (h : Serving policy items replies k e) (script : Script) (ha : e.Attentive)
    (hready : e.ready = [0]) :
    (e.poll script 0).ready = [] ∨ (e.poll script 0).movesLeft < e.movesLeft := by
  obtain ⟨taken, done, hstock⟩ := h.exists_stock
  have hfront : Serving policy items replies k (e.front 0) := h.alike ⟨rfl, rfl, rfl, rfl, rfl⟩
  obtain ⟨w, hw, hm⟩ := hfront.exists_worker script
  have htask : (e.front 0).tasks[0]? = some (.worker w) := by rw [hw]; rfl
  obtain ⟨hline, hlate, -⟩ := hm.frame htask
  rcases hm.vain_or_lt (hstock.placed _) htask with hvain | hlt
  · left
    have hline : ((e.front 0).step script 0).1.ready = [0] := by
      rw [hline]
      show 0 :: e.ready.erase 0 = [0]
      rw [hready]
      rfl
    rw [Engine.poll_eq, hvain.stuck, if_neg Bool.false_ne_true,
      Engine.ready_endTurn (hlate.trans ha.late), hline]
    -- nobody else could be called back
    refine Engine.foldl_enqueue_of_subset fun u hu => ?_
    obtain ⟨hcall, hne⟩ := hvain.callable u (List.mem_filter.1 hu).1
    rw [Engine.callable_alone hw hstock.callable] at hcall
    split at hcall
    · exact absurd (List.mem_singleton.1 hcall) hne
    · cases hcall
  · right
    obtain ⟨hqueue, -, -, -, htasks⟩ := Engine.poll_alike script e 0
    rw [Engine.movesLeft, hqueue, htasks]
    exact hlt

section Steps

variable (hroom : items.length < UInt64.size) (hsane : ∀ n, replies n ≠ .breakdown)
  (hscript : ∀ n reply, script n = some reply → reply = replies n)

include hroom hsane hscript

theorem attentive_poll (h : Serving policy items replies k e) (ha : e.Attentive) (t : TaskId) :
    (e.poll script t).Attentive := by
  obtain ⟨taken, done, hstock⟩ := h.exists_stock
  have hfront : Serving policy items replies k (e.front t) := h.alike ⟨rfl, rfl, rfl, rfl, rfl⟩
  obtain ⟨w, hw, hm⟩ := hfront.exists_worker script
  rw [Engine.poll_eq]
  by_cases ht : t = 0
  · subst ht
    have htask : (e.front 0).tasks[0]? = some (.worker w) := by rw [hw]; rfl
    obtain ⟨k', -, hstep⟩ := hfront.step hroom hsane hscript hw hm
    obtain ⟨hline, hlate, -⟩ := hm.frame htask
    obtain ⟨taken', done', hstock'⟩ := hstep.exists_stock
    obtain ⟨v, hv, -⟩ := hstep.exists_worker script
    have herase : e.ready.erase 0 = [] := by
      rcases ha.line with hline | hline <;> rw [hline] <;> rfl
    have hline : ((e.front 0).step script 0).1.ready = [0] := by
      rw [hline]
      show 0 :: e.ready.erase 0 = [0]
      rw [herase]
    split
    · exact Engine.attentive_callBack hv hstock'.callable (hlate.trans ha.late) (.inl hline)
    · refine Engine.attentive_endTurn hv hstock'.callable (hlate.trans ha.late)
        (.inr ⟨by rw [hline]; rfl, fun hseek => ?_⟩)
      have hstuck := hm.stuck htask (Bool.eq_false_iff.2 ‹_›) (v := v) (by rw [hv]; rfl) hseek
      exact hstock'.not_getting 0 hstuck
  · -- there is no such task
    have hnone : (e.front t).tasks[t]? = none := by
      rw [hw, List.getElem?_eq_none]
      exact Nat.pos_of_ne_zero ht
    have hstep : (e.front t).step script t = (e.front t, false) := by rw [Engine.step, hnone]
    have herase : e.ready.erase t = e.ready := by
      refine List.erase_of_not_mem fun hmem => ht ?_
      rcases ha.line with hline | hline <;> rw [hline] at hmem
      · exact List.mem_singleton.1 hmem
      · cases hmem
    rw [hstep, if_neg Bool.false_ne_true]
    refine Engine.attentive_endTurn (e := e.front t) hw hstock.callable ha.late ?_
    show e.ready.erase t = _ ∨ e.ready.erase t = _ ∧ _
    rw [herase]
    exact ha.line.imp_right fun hnil => ⟨hnil, (ha.rest hnil w hw).1⟩

theorem attentive_react (h : Serving policy items replies k e) (ha : e.Attentive) (event : Event)
    (hcalm : ∀ reason, event ≠ .cancel reason) : (e.react script event).Attentive := by
  cases event with
  | poll t => exact h.attentive_poll hroom hsane hscript ha t
  | reply n reply =>
    obtain ⟨taken, done, hstock⟩ := h.exists_stock
    obtain ⟨w, hw, -⟩ := h.exists_worker script
    exact Engine.attentive_callBack (e := { e with log := e.log.reply n reply }) hw hstock.callable
      ha.late (ha.line.imp_right fun hnil => ⟨hnil, (ha.rest hnil w hw).1⟩)
  | cancel reason => exact absurd rfl (hcalm reason)
  | pause => exact ⟨ha.late, ha.line, ha.rest⟩

/-- The worker runs until it waits for a reply or is over. -/
theorem run (fuel : Nat) (h : Serving policy items replies k e) (ha : e.Attentive)
    (hfuel : e.ready = [] ∨ e.movesLeft < fuel) : ∃ k', k ≤ k' ∧
      Serving policy items replies k' (e.run script fuel) ∧ (e.run script fuel).Attentive ∧
        (e.run script fuel).ready = [] := by
  induction fuel generalizing e k with
  | zero => exact ⟨k, Nat.le_refl k, h, ha, hfuel.resolve_right (Nat.not_lt_zero _)⟩
  | succ fuel ih =>
    rcases ha.line with hready | hready
    · obtain ⟨k₁, hle₁, hpoll⟩ := h.react hroom hsane hscript (.poll 0) (fun _ he => by cases he)
        fun _ _ he => by cases he
      have hattentive := h.attentive_poll hroom hsane hscript ha 0
      have hnearer : (e.poll script 0).ready = [] ∨ (e.poll script 0).movesLeft < fuel := by
        refine (h.poll_nearer script ha hready).imp_right fun hlt => ?_
        have hmoves := hfuel.resolve_left (by simp [hready])
        omega
      obtain ⟨k', hle, hrun⟩ := ih hpoll hattentive hnearer
      rw [Engine.run_of_ready hready]
      exact ⟨k', Nat.le_trans hle₁ hle, hrun⟩
    · rw [Engine.run, hready]
      exact ⟨k, Nat.le_refl k, h, ha, hready⟩

theorem settle (h : Serving policy items replies k e) (ha : e.Attentive) :
    ∃ k', k ≤ k' ∧ Serving policy items replies k' (e.settle script) ∧
      (e.settle script).Attentive ∧ (e.settle script).ready = [] := by
  have hpause : Serving policy items replies k { e with turns := 0 } :=
    h.alike ⟨rfl, rfl, rfl, rfl, rfl⟩
  have hlt : ({ e with turns := 0 } : Engine).movesLeft < e.stepsLeft := e.movesLeft_lt_stepsLeft
  exact hpause.run hroom hsane hscript e.stepsLeft ⟨ha.late, ha.line, ha.rest⟩ (.inr hlt)

end Steps

/-- A worker that is not in line waits for a reply, or is over. -/
theorem at_rest (h : Serving policy items replies k e) (ha : e.Attentive) (hready : e.ready = []) :
    (Served policy items replies (callsDue policy replies items.length) e ∧ e.log.waiting = []) ∨
      ∃ w, Working policy items replies k (k + 1) w e ∧ w.phase = .calling (k + 1) ∧
        k < items.length ∧ e.log.state? (k + 1) = some .waiting ∧
          ∀ call ∈ e.log.waiting, call = k + 1 := by
  cases h with
  | seeking h hw => exact absurd hw (ha.rest hready _ h.tasks).1
  | @calling w _ h hw hk hs =>
    refine .inr ⟨w, h, hw, hk, hs.resolve_right fun hs => ?_, fun call hcall => ?_⟩
    · have henabled := (ha.rest hready _ h.tasks).2
      have hreply : e.log.reply? (k + 1) = some (replies (k + 1)) := by rw [CallLog.reply?, hs]
      simp [Engine.isEnabled, hw, hreply] at henabled
    · have hstate := CallLog.mem_waiting.1 hcall
      have hle := CallLog.le_size_of_state? hstate
      rw [h.size_eq hk] at hle
      exact Nat.le_antisymm hle (Nat.lt_of_not_le fun hle => h.answered call hle hstate)
  | served h _ hs hm =>
    subst hm
    refine .inl ⟨h, List.eq_nil_iff_forall_not_mem.2 fun call hcall => ?_⟩
    exact hs call (CallLog.mem_waiting.1 hcall)

end Serving

namespace Engine

/-- Replies to the call that waits and lets everything run, again and again while there is one. -/
def attend (script : Script) (replies : Nat → Reply) : Nat → Engine → Engine
  | 0, e => e
  | most + 1, e =>
    match e.log.waiting with
    | [] => e
    | call :: _ => attend script replies most ((e.respond call (replies call)).1.settle script)

/-- A queue with some items in it, and one worker that has just started. -/
def alone (queue : WorkQueue WorkItem) (id : UInt64) (policy : FailurePolicy) : Engine :=
  ({ queue } : Engine).spawn (.worker { id, policy })

end Engine

section Rounds

variable (hroom : items.length < UInt64.size) (hsane : ∀ n, replies n ≠ .breakdown)
  (hscript : ∀ n reply, script n = some reply → reply = replies n)

include hroom hsane hscript

/-- Once it has been replied to, the worker is in line and gets to the next answer. -/
theorem Working.run (h : Working policy items replies k (k + 1) w e)
    (hw : w.phase = .calling (k + 1)) (hk : k < items.length)
    (hs : e.log.state? (k + 1) = some (.replied (replies (k + 1)))) (ha : e.Attentive)
    {fuel : Nat} (hfuel : e.movesLeft < fuel) : ∃ k', k < k' ∧
      Serving policy items replies k' (e.run script fuel) ∧ (e.run script fuel).Attentive ∧
        (e.run script fuel).ready = [] := by
  have hready : e.ready = [0] := by
    refine ha.line.resolve_right fun hnil => ?_
    have henabled := (ha.rest hnil _ h.tasks).2
    have hreply : e.log.reply? (k + 1) = some (replies (k + 1)) := by rw [CallLog.reply?, hs]
    simp [Engine.isEnabled, hw, hreply] at henabled
  cases fuel with
  | zero => omega
  | succ fuel =>
    rw [Engine.run_of_ready hready]
    -- the first step takes the reply, whatever comes then
    have hpoll : Serving policy items replies (k + 1) (e.poll script 0) := by
      have hfront : Working policy items replies k (k + 1) w (e.front 0) :=
        h.alike ⟨rfl, rfl, rfl, rfl, rfl⟩
      obtain ⟨v, hv, hm⟩ := (Serving.calling hfront hw hk (.inr hs)).exists_worker script
      obtain rfl : w = v := by
        have hsame := hfront.tasks.symm.trans hv
        cases hsame
        rfl
      exact (Serving.of_replied hfront hw hk hroom hsane hs hm).alike
        (Engine.poll_alike script e 0)
    have hserving : Serving policy items replies k e := .calling h hw hk (.inr hs)
    have hattentive := hserving.attentive_poll hroom hsane hscript ha 0
    have hnearer := (hserving.poll_nearer script ha hready).imp_right
      fun hcloser => hcloser.trans_le (Nat.le_of_lt_succ hfuel)
    exact hpoll.run hroom hsane hscript fuel hattentive hnearer

/-- A reply to the call that waits gets the worker to the next answer. -/
theorem Working.respond (h : Working policy items replies k (k + 1) w e)
    (hw : w.phase = .calling (k + 1)) (hk : k < items.length)
    (hs : e.log.state? (k + 1) = some .waiting) (ha : e.Attentive) :
    ∃ k', k < k' ∧
      Serving policy items replies k' ((e.respond (k + 1) (replies (k + 1))).1.settle script) ∧
      ((e.respond (k + 1) (replies (k + 1))).1.settle script).Attentive ∧
      ((e.respond (k + 1) (replies (k + 1))).1.settle script).ready = [] := by
  have hattentive : (e.respond (k + 1) (replies (k + 1))).1.Attentive :=
    (Serving.calling h hw hk (.inl hs)).attentive_react hroom hsane hscript ha
      (.reply (k + 1) (replies (k + 1))) fun _ he => by cases he
  have hworking : Working policy items replies k (k + 1) w
      (e.respond (k + 1) (replies (k + 1))).1 :=
    (h.reply _ _).alike (Engine.callBack_alike _)
  have hreplied : (e.respond (k + 1) (replies (k + 1))).1.log.state? (k + 1) =
      some (.replied (replies (k + 1))) := by
    show (e.log.reply (k + 1) (replies (k + 1))).state? (k + 1) = _
    have hset : e.log.reply (k + 1) (replies (k + 1)) =
        e.log.set (k + 1) (.replied (replies (k + 1))) := by
      simp [CallLog.reply, CallLog.isWaiting, hs]
    rw [hset, CallLog.state?_set_self hs]
  generalize (e.respond (k + 1) (replies (k + 1))).1 = e' at *
  have hpause : Working policy items replies k (k + 1) w { e' with turns := 0 } :=
    hworking.alike ⟨rfl, rfl, rfl, rfl, rfl⟩
  exact hpause.run hroom hsane hscript hw hk hreplied
    ⟨hattentive.late, hattentive.line, hattentive.rest⟩ e'.movesLeft_lt_stepsLeft

/-- Every round gets the worker one answer further. -/
theorem Serving.attend (most : Nat) (h : Serving policy items replies k e) (ha : e.Attentive)
    (hready : e.ready = []) (hmost : items.length ≤ k + most) :
    Served policy items replies (callsDue policy replies items.length)
      (e.attend script replies most) := by
  induction most generalizing e k with
  | zero =>
    rcases h.at_rest ha hready with ⟨hserved, -⟩ | ⟨w, -, -, hk, -⟩
    · exact hserved
    · omega
  | succ most ih =>
    rcases h.at_rest ha hready with ⟨hserved, hnone⟩ | ⟨w, hworking, hw, hk, hs, hcalls⟩
    · rw [Engine.attend, hnone]
      exact hserved
    · cases hwaiting : e.log.waiting with
      | nil =>
        have hmem := CallLog.mem_waiting.2 hs
        rw [hwaiting] at hmem
        cases hmem
      | cons call rest =>
        obtain rfl := hcalls call (by rw [hwaiting]; exact List.mem_cons_self)
        obtain ⟨k', hlt, hserving, hattentive, hnil⟩ :=
          hworking.respond hroom hsane hscript hw hk hs ha
        rw [Engine.attend, hwaiting]
        exact ih hserving hattentive hnil (by omega)

end Rounds

/-! ### From the first put to the end -/

namespace WorkQueue

variable {α : Type} {item : α}

/-- The queue once some items have been put one after the other and it has been closed. -/
def stocked (q : WorkQueue α) (items : List α) : WorkQueue α :=
  (((⟨q, {}⟩ : Session α).run (items.map fun item => .start (.put item))).act .close).1.queue

theorem Session.queue_start_put (s : Session α) (item : α) :
    (s.act (.start (.put item))).1.queue = (s.queue.put s.requests.next item).1 := by
  simp only [Session.act, Session.start, Waitlist.request, attempt]
  rcases s.queue.put s.requests.next item with ⟨q', result | _⟩ <;> rfl

/-- An open queue that holds some items and that nobody uses. -/
def filled (capacity : Nat) (buffer : List α) : WorkQueue α where
  capacity := capacity
  free := capacity - buffer.length
  buffer := buffer
  outstanding := buffer.length

theorem put_filled {capacity : Nat} {buffer : List α} (hroom : buffer.length < capacity)
    (t : TaskId) (item : α) :
    ((filled capacity buffer).put t item).1 = filled capacity (buffer ++ [item]) := by
  have hfree : 0 < capacity - buffer.length := Nat.sub_pos_of_lt hroom
  simp [put, push, filled, hfree, Nat.sub_sub]

/-- As long as there are slots for them, items are put at once. -/
theorem Session.queue_run_puts {capacity : Nat} (items : List α) (s : Session α) (before : List α)
    (hfit : before.length + items.length ≤ capacity) (hq : s.queue = filled capacity before) :
    (s.run (items.map fun item => .start (.put item))).queue =
      filled capacity (before ++ items) := by
  induction items generalizing s before with
  | nil =>
    rw [List.append_nil]
    exact hq
  | cons item rest ih =>
    rw [List.length_cons] at hfit
    have hput : (s.act (.start (.put item))).1.queue = filled capacity (before ++ [item]) := by
      rw [queue_start_put, hq, put_filled (by omega)]
    have hrest := ih (s.act (.start (.put item))).1 (before ++ [item])
      (by rw [List.length_append, List.length_singleton]; omega) hput
    rwa [List.append_assoc] at hrest

end WorkQueue

theorem stock_stocked {capacity : UInt64} {q : WorkQueue WorkItem}
    (hnew : WorkQueue.new capacity = .ok q) (hfit : items.length ≤ capacity.toNat) :
    Stock items 0 0 (q.stocked items) := by
  obtain ⟨-, -, rfl⟩ := WorkQueue.new_eq_ok_iff.1 hnew
  have hqueue := WorkQueue.Session.queue_run_puts items ⟨.ofCapacity capacity.toNat, {}⟩ []
    (by simpa using hfit) rfl
  unfold WorkQueue.stocked
  simp only [WorkQueue.Session.act]
  rw [hqueue]
  exact ⟨rfl, rfl, rfl, rfl, rfl, rfl, rfl⟩

/-- One worker works off what is in a closed queue, up to the first request that gets no response if
it is to abort then. It gets there whether the transport answers a call at once or when everything
else has come to rest; and whatever happens in between, this is what it has done once it is over. -/
theorem worker_serves {capacity : UInt64} {q : WorkQueue WorkItem}
    (hnew : WorkQueue.new capacity = .ok q) (hfit : items.length ≤ capacity.toNat)
    (hsane : ∀ n, replies n ≠ .breakdown)
    (hscript : ∀ n reply, script n = some reply → reply = replies n) (id : UInt64)
    (policy : FailurePolicy) :
    Served policy items replies (callsDue policy replies items.length)
        (((Engine.alone (q.stocked items) id policy).settle script).attend script replies
          items.length) ∧
      ∀ events : List Event, (∀ reason, .cancel reason ∉ events) →
        (∀ n reply, .reply n reply ∈ events → reply = replies n) →
        ∀ w, ((Engine.alone (q.stocked items) id policy).play script events).tasks[0]? =
            some (.worker w) → w.hasEnded = true →
          Served policy items replies (callsDue policy replies items.length)
            ((Engine.alone (q.stocked items) id policy).play script events) := by
  have hstock := stock_stocked hnew hfit
  have hroom : items.length < UInt64.size := Nat.lt_of_le_of_lt hfit (UInt64.toNat_lt_size _)
  have hserving : Serving policy items replies 0 (Engine.alone (q.stocked items) id policy) := by
    refine .seeking (w := { id, policy }) ⟨rfl, rfl, rfl, hstock, rfl, fun n _ hn => ?_, .nil, rfl,
      fun _ i hi => absurd hi (Nat.not_lt_zero i)⟩ rfl
    have hle := CallLog.le_size_of_state? hn
    obtain ⟨hpos, -⟩ := CallLog.state?_eq_some_iff.1 hn
    exact Nat.not_lt.2 hle hpos
  have hattentive : (Engine.alone (q.stocked items) id policy).Attentive :=
    ⟨rfl, .inl rfl, fun hnil => by cases hnil⟩
  refine ⟨?_, fun events hcalm hreplies w hw hended => ?_⟩
  · obtain ⟨k, -, hsettled, ha, hready⟩ := hserving.settle hroom hsane hscript hattentive
    exact hsettled.attend hroom hsane hscript items.length ha hready (Nat.le_add_left _ _)
  · obtain ⟨k, -, hplay⟩ := hserving.play hroom hsane hscript events hcalm hreplies
    have hsame : ∀ {v}, ((Engine.alone (q.stocked items) id policy).play script events).tasks =
        [.worker v] → v = w := by
      intro v hv
      rw [hv] at hw
      exact Task.worker.inj (Option.some.inj hw)
    cases hplay with
    | seeking h hphase =>
      obtain rfl := hsame h.tasks
      rw [(Worker.of_seeking hphase).1] at hended
      cases hended
    | calling h hphase =>
      obtain rfl := hsame h.tasks
      rw [(Worker.of_calling hphase).1] at hended
      cases hended
    | served h _ _ hm => exact hm ▸ h

/-- The second of four requests gets no response, and the first is the only one that is answered at
once. -/
theorem worker_serves_aborted :
    let item : WorkItem := ⟨⟨"localhost", 80⟩⟩
    let other : WorkItem := ⟨⟨"[::1]", 8080⟩⟩
    let replies : Nat → Reply := fun n =>
      if n = 2 then .failure ⟨.timeout, "30s"⟩ else .response 200
    let script : Script := fun n => if n = 1 then some (.response 200) else none
    let e := ((Engine.alone ((WorkQueue.ofCapacity 4).stocked [item, other, item, item]) 7
      .abort).settle script).attend script replies 4
    WorkQueue.new 4 = .ok (.ofCapacity 4 : WorkQueue WorkItem) ∧ (∀ n, replies n ≠ .breakdown) ∧
      (∀ n reply, script n = some reply → reply = replies n) ∧ callsDue .abort replies 4 = 2 ∧
      e.context.reason = some (.transportFailure "[::1]:8080" "timed out: 30s") ∧
      Served .abort [item, other, item, item] replies 2 e := by
  intro item other replies script e
  have hnew : WorkQueue.new 4 = .ok (.ofCapacity 4 : WorkQueue WorkItem) := rfl
  have hsane : ∀ n, replies n ≠ .breakdown := by
    intro n
    by_cases hn : n = 2 <;> simp [replies, hn]
  have hscript : ∀ n reply, script n = some reply → reply = replies n := by
    intro n reply hreply
    by_cases hn : n = 1
    · simpa [script, replies, hn] using hreply.symm
    · simp [script, hn] at hreply
  have hfit : [item, other, item, item].length ≤ (4 : UInt64).toNat := by decide
  have hserved := (worker_serves hnew hfit hsane hscript 7 .abort).1
  have hdue : callsDue .abort replies 4 = 2 := by decide +kernel
  exact ⟨hnew, hsane, hscript, hdue, by decide +kernel, hdue ▸ hserved⟩

end LoadGenerator
