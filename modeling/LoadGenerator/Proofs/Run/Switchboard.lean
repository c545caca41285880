import LoadGenerator.Proofs.Engine.Switchboard
import LoadGenerator.Proofs.Run.Effort
import LoadGenerator.Proofs.Run.Happenings

/-!
# Whoever is called back has been told

In a `Switchboard` those are called back who have been told of something. They are the tasks that
the engine would have called back, at every turn of every history (`serves_undergoAll`): the engine
looks for nothing that a notice does not tell, and nobody whom it would have called back has missed
a notice (`Serves.mem_called_iff`).
-/

namespace LoadGenerator

open Contexts (Watch)
open WorkQueue (Notifier)

namespace Engine

variable {script : Script} {e : Engine}

/-- Whoever stands in line, or is late, need not be called. -/
theorem foldl_enqueue_filterMap (calls : List (Task × TaskId)) (p q : Task × TaskId → Bool)
    (late line : List TaskId) (hpq : ∀ x ∈ calls, p x = true → q x = true)
    (hqp : ∀ x ∈ calls, q x = true → (x.2 ∈ line ∨ x.2 ∈ late) ∨ p x = true) :
    ((calls.filterMap fun x => if q x then some x.2 else none).filter (· ∉ late)).foldl enqueue
        line =
      ((calls.filterMap fun x => if p x then some x.2 else none).filter (· ∉ late)).foldl enqueue
        line := by
  induction calls generalizing line with
  | nil => rfl
  | cons x rest ih =>
    -- whoever has a place in line keeps it while the line gets longer
    have hrest : ∀ line', (∀ t ∈ line, t ∈ line') → _ := fun line' hsub =>
      ih line' (fun y hy => hpq y (List.mem_cons_of_mem _ hy)) fun y hy hq =>
        (hqp y (List.mem_cons_of_mem _ hy) hq).imp_left fun h => h.imp_left (hsub _)
    have hsame := hrest line fun _ => id
    by_cases hlate : x.2 ∈ late
    · cases hp : p x <;> cases hq : q x <;> simpa [hp, hq, hlate] using hsame
    cases hp : p x with
    | true =>
      have hmore := hrest (enqueue line x.2) fun t ht => mem_enqueue.2 (.inl ht)
      simpa [hp, hpq x List.mem_cons_self hp, hlate] using hmore
    | false =>
      cases hq : q x with
      | false => simpa [hp, hq] using hsame
      | true =>
        have hplace := (hqp x List.mem_cons_self hq).resolve_right (by simp [hp])
        have hold := hplace.resolve_right hlate
        simpa [hp, hq, hlate, enqueue, hold] using hsame

/-- Whoever is told to drop everything can do so, unless it has ended. -/
theorem abort_cases (task : Task) :
    task.abort = task ∨ ∀ e : Engine, e.isEnabled task.abort = true := by
  cases task with
  | worker w =>
    by_cases hended : w.hasEnded = true
    · exact .inl (if_pos hended)
    · refine .inr fun e => ?_
      have habort : Task.abort (.worker w) = .worker { w with aborted := true } := if_neg hended
      rw [habort]
      cases hw : w.phase with
      | seeking | calling => simp [isEnabled]
      | ended how => simp [Worker.hasEnded, hw] at hended
  | producer | joiner | shutdown | driver => exact .inl rfl

theorem allEnded_of_spawn {task : Task} {members : List TaskId}
    (h : (e.spawn task).allEnded members = true) : e.allEnded members = true := by
  refine List.all_eq_true.2 fun t ht => ?_
  have hended := List.all_eq_true.1 h t ht
  rw [worker?_eq_bind] at hended ⊢
  cases hold : e.tasks[t]? with
  | none => rfl
  | some x =>
    have hlt := (List.getElem?_eq_some_iff.1 hold).1
    have hsame : (e.spawn task).tasks[t]? = some x := (List.getElem?_append_left hlt).trans hold
    rwa [hsame] at hended

end Engine

namespace Switchboard

/-- Calls back the tasks that have been told and are not late. -/
def callBack (s : Switchboard) : Switchboard :=
  { s with engine := { s.engine with
      ready := (s.called.filter (· ∉ s.engine.late)).foldl Engine.enqueue s.engine.ready } }

def endTurn (s : Switchboard) : Switchboard :=
  let s := ({ s with engine := { s.engine with
    ready := s.engine.ready.drop 1, putInTurn := 0, turns := s.engine.turns + 1 } }).callBack
  { s with engine := s.engine.callLate }

/-- One step of a task that goes first. -/
def poll (script : Script) (s : Switchboard) (t : TaskId) : Switchboard :=
  match ({ s with engine := s.engine.front t }).step script t with
  | (s, true) => s.callBack
  | (s, false) => s.endTurn

def react (script : Script) (s : Switchboard) : Event → Switchboard
  | .poll t => s.poll script t
  | .reply call reply =>
    ({ s with engine := { s.engine with log := s.engine.log.reply call reply } }).callBack
  | .cancel reason =>
    ({ s with engine := s.engine.cancel reason, watch := s.watch.cancel 0 reason }).callBack
  | .pause => { s with engine := { s.engine with turns := 0 } }


def undergo (script : Script) (s : Switchboard) : Happening → Switchboard
  | .event event => s.react script event
  | .spawn task => { s with engine := s.engine.spawn task }
  | .markDone =>
    match s.engine.queue.markDone with
    | .ok _ => (s.use s.notifier.markDone).callBack
    | .error _ => s
  | .close => (s.use s.notifier.close).callBack
  | .abort members =>
    { s with
      engine := s.engine.abortAll members
      listeners := s.notifier.close.listeners }.callBack

def undergoAll (script : Script) (s : Switchboard) (happenings : List Happening) : Switchboard :=
  happenings.foldl (undergo script) s

/-- The switchboard of an engine in which nobody waits. -/
def ofEngine (e : Engine) : Switchboard where
  engine := e
  watch := { channels := [⟨e.context.reason, 0⟩] }

variable {script : Script} {s s' : Switchboard} {e : Engine} {t u : TaskId} {task : Task}

/-! ### Calling back -/

theorem hasNotice_of_isEnabled (h : s.InTune) (t : TaskId)
    (he : s.engine.isEnabled task = true) : s.hasNotice t task = true := by
  have hawake : s.engine.context.isCancelled = true → decide (s.watch.Sleeps t) = false := by
    intro hc
    refine decide_eq_false fun hs => ?_
    rw [h.not_isCancelled hs] at hc
    cases hc
  have htold : s.engine.queue.drained = true → s.joiners.contains t = false := by
    intro hdrained
    simpa using h.not_mem_joiners (t := t) hdrained
  cases task with
  | worker w =>
    cases hw : w.phase with
    | seeking =>
      simp only [Engine.isEnabled, hasNotice, hw, Bool.or_eq_true] at he ⊢
      exact he.imp_right fun hc => by rw [hawake hc]; rfl
    | calling call => simpa [Engine.isEnabled, hasNotice, hw] using he
    | ended how => simp [Engine.isEnabled, hw] at he
  | producer p => cases he
  | joiner done =>
    simp only [Engine.isEnabled, hasNotice, Bool.and_eq_true] at he ⊢
    exact he.imp_right fun hd => by rw [htold hd]; rfl
  | shutdown x => exact he
  | driver d =>
    cases hs : d.stage with
    | submitting =>
      simp only [Engine.isEnabled, hasNotice, hs] at he ⊢
      rw [hawake he]
      rfl
    | draining =>
      simp only [Engine.isEnabled, hasNotice, hs, Bool.or_eq_true] at he ⊢
      exact he.imp (fun hc => by rw [hawake hc]; rfl) fun hd => by rw [htold hd]; rfl
    | stopping => simpa [Engine.isEnabled, hasNotice, hs] using he
    | _ => simp [Engine.isEnabled, hs] at he

/-- If nobody's wait has ended but for a reason, whoever has been told of something had been told of
it before, or could get further. -/
theorem hasNotice_cases
    (hsleeps : s.watch.Sleeps u → s'.watch.Sleeps u ∨ s'.engine.context.isCancelled = true)
    (hjoins : u ∈ s.joiners → u ∈ s'.joiners ∨ s'.engine.queue.drained = true)
    (hn : s'.hasNotice u task = true) :
    s.hasNotice u task = true ∨ s'.engine.isEnabled task = true := by
  have hawake : ¬ s'.watch.Sleeps u →
      ¬ s.watch.Sleeps u ∨ s'.engine.context.isCancelled = true := by
    intro hnot
    by_cases hs : s.watch.Sleeps u
    · exact .inr ((hsleeps hs).resolve_left hnot)
    · exact .inl hs
  have htold : u ∉ s'.joiners → u ∉ s.joiners ∨ s'.engine.queue.drained = true := by
    intro hnot
    by_cases hj : u ∈ s.joiners
    · exact .inr ((hjoins hj).resolve_left hnot)
    · exact .inl hj
  cases task with
  | worker w =>
    cases hw : w.phase with
    | seeking =>
      simp only [hasNotice, Engine.isEnabled, hw, Bool.or_eq_true, Bool.not_eq_true',
        decide_eq_false_iff_not] at hn ⊢
      rcases hn with ha | hnot
      · exact .inl (.inl ha)
      · exact (hawake hnot).imp .inr .inr
    | calling call => exact .inr (by simpa [hasNotice, Engine.isEnabled, hw] using hn)
    | ended how => simp [hasNotice, hw] at hn
  | producer p => cases hn
  | joiner done =>
    simp only [hasNotice, Engine.isEnabled, Bool.and_eq_true, Bool.not_eq_true',
      List.contains_eq_mem, decide_eq_false_iff_not] at hn ⊢
    exact (htold hn.2).imp (⟨hn.1, ·⟩) (⟨hn.1, ·⟩)
  | shutdown x => exact .inr hn
  | driver d =>
    cases hs : d.stage with
    | submitting =>
      simp only [hasNotice, Engine.isEnabled, hs, Bool.not_eq_true',
        decide_eq_false_iff_not] at hn ⊢
      exact hawake hn
    | draining =>
      simp only [hasNotice, Engine.isEnabled, hs, Bool.or_eq_true, Bool.not_eq_true',
        decide_eq_false_iff_not, List.contains_eq_mem] at hn ⊢
      rcases hn with hnot | hnot
      · exact (hawake hnot).imp .inl .inl
      · exact (htold hnot).imp .inr .inr
    | stopping => exact .inr (by simpa [hasNotice, Engine.isEnabled, hs] using hn)
    | _ => simp [hasNotice, hs] at hn

/-- The waits of a task have ended for a reason only, and it has at most been told to drop
everything: if it has been told of something, it has its place in a line or could get further. -/
theorem due_of_kept {place : Prop}
    (hsleeps : s.watch.Sleeps u → s'.watch.Sleeps u ∨ s'.engine.context.isCancelled = true)
    (hjoins : u ∈ s.joiners → u ∈ s'.joiners ∨ s'.engine.queue.drained = true)
    (hold : ∀ x, s.engine.tasks[u]? = some x → s.hasNotice u x = true → place)
    (hu : s.engine.tasks[u]? = some task ∨ (s.engine.tasks[u]?).map Task.abort = some task)
    (hn : s'.hasNotice u task = true) : place ∨ s'.engine.isEnabled task = true := by
  have hsame : ∀ x, s.engine.tasks[u]? = some x → s'.hasNotice u x = true →
      place ∨ s'.engine.isEnabled x = true :=
    fun x hx hn => (hasNotice_cases hsleeps hjoins hn).imp_left (hold x hx)
  rcases hu with hu | hu
  · exact hsame task hu hn
  · obtain ⟨x, hx, rfl⟩ := Option.map_eq_some_iff.1 hu
    rcases Engine.abort_cases x with habort | henabled
    · exact hsame _ (habort.symm ▸ hx) hn
    · exact .inr (henabled _)

/-- Whoever has been told of something stands in a line or is late, or could get further. -/
def Due (s : Switchboard) (line : List TaskId) : Prop :=
  ∀ (t : TaskId) task, s.engine.tasks[t]? = some task → s.hasNotice t task = true →
    (t ∈ line ∨ t ∈ s.engine.late) ∨ s.engine.isEnabled task = true

/-- The switchboard is in tune with an engine, and whoever has been told of something elsewhere than
at the queue has its place in a line. -/
structure Serves (s : Switchboard) (e : Engine) : Prop extends s.InTune where
  engine : s.engine = e
  called : ∀ (t : TaskId) task, s.engine.tasks[t]? = some task → s.hasNotice t task = true →
    t ∈ s.engine.ready ∨ t ∈ s.engine.late

theorem mem_called (ht : s.engine.tasks[t]? = some task) (hn : s.hasNotice t task = true) :
    t ∈ s.called := by
  refine List.mem_append_right _ (List.mem_filterMap.2 ⟨(task, t), ?_, if_pos hn⟩)
  exact List.mem_zipIdx_iff_getElem?.2 ht

theorem engine_callBack (h : s.InTune) (hdue : s.Due s.engine.ready) :
    s.callBack.engine = s.engine.callBack := by
  have hcalls := Engine.foldl_enqueue_filterMap s.engine.tasks.zipIdx
    (fun x => s.engine.isEnabled x.1) (fun x => s.hasNotice x.2 x.1) s.engine.late
    ((s.engine.queue.callable.filter (· ∉ s.engine.late)).foldl Engine.enqueue s.engine.ready)
    (fun x _ => hasNotice_of_isEnabled h x.2)
    (fun x hx hn => (hdue x.2 x.1 (List.mem_zipIdx_iff_getElem?.1 hx) hn).imp_left fun hline =>
      hline.imp_left fun hline => Engine.mem_foldl_enqueue.2 (.inl hline))
  unfold callBack Engine.callBack called Engine.callable
  rw [h.notifier.told_eq, List.filter_append, List.filter_append, List.foldl_append,
    List.foldl_append]
  exact congrArg (fun ready => { s.engine with ready }) hcalls

theorem serves_callBack (h : s.InTune) (hdue : s.Due s.engine.ready) :
    s.callBack.Serves s.engine.callBack := by
  refine ⟨⟨h.notifier, h.watch, h.context⟩, engine_callBack h hdue, fun t task ht hn => ?_⟩
  by_cases hlate : t ∈ s.engine.late
  · exact .inr hlate
  · refine .inl (Engine.mem_foldl_enqueue.2 (.inr (List.mem_filter.2 ⟨mem_called ht hn, ?_⟩)))
    simpa using hlate

theorem Serves.callLate (h : s.Serves e) :
    ({ s with engine := s.engine.callLate } : Switchboard).Serves e.callLate := by
  obtain rfl := h.engine
  unfold Engine.callLate
  split
  · refine ⟨⟨h.notifier, h.watch, h.context⟩, rfl, fun t task ht hn => .inl ?_⟩
    exact Engine.mem_foldl_enqueue.2 (h.called t task ht hn)
  · exact h

theorem serves_endTurn (h : s.InTune) (hdue : s.Due (s.engine.ready.drop 1)) :
    s.endTurn.Serves s.engine.endTurn :=
  (serves_callBack (s := { s with engine := { s.engine with
    ready := s.engine.ready.drop 1, putInTurn := 0, turns := s.engine.turns + 1 } })
    ⟨h.notifier, h.watch, h.context⟩ hdue).callLate

/-! ### Steps -/

/-- After a step of the first in line whoever else has been told of something has its place, or
could get further. -/
theorem Mirrors.due_others {r : Switchboard × Bool} {result : Engine × Bool} {rest : List TaskId}
    (hm : s.Mirrors t r result) (hmove : Engine.TaskMove script s.engine t result)
    (hready : s.engine.ready = t :: rest)
    (hold : ∀ (u : TaskId) task, u ≠ t → s.engine.tasks[u]? = some task →
      s.hasNotice u task = true → u ∈ rest ∨ u ∈ s.engine.late)
    (hne : u ≠ t) (hu : r.1.engine.tasks[u]? = some task) (hn : r.1.hasNotice u task = true) :
    (u ∈ r.1.engine.ready.drop 1 ∨ u ∈ r.1.engine.late) ∨ r.1.engine.isEnabled task = true := by
  obtain ⟨hlate, more, hline, htasks⟩ := hmove.frame
  rw [← hm.engine] at hlate hline htasks
  rw [hline, hready]
  rcases htasks u task hne hu with hmore | hu
  · exact .inl (.inl (List.mem_append_right rest hmore))
  · refine due_of_kept (hm.watch.sleeping u hne) (hm.notifier.joining u hne)
      (fun x hx hn => ?_) hu hn
    exact (hold u x hne hx hn).imp (List.mem_append_left more) (hlate u)

theorem Serves.poll (h : s.Serves e) (hslots : e.Slotted) (script : Script) (t : TaskId) :
    (s.poll script t).Serves (e.poll script t) := by
  obtain rfl := h.engine
  have hfront : ({ s with engine := s.engine.front t } : Switchboard).InTune :=
    ⟨h.notifier, h.watch, h.context⟩
  have hmove := Engine.step_move script (s.engine.front t) t
  have hm := step_mirrors script t hfront fun w => hslots.not_mem
  obtain ⟨-, more, hline, -⟩ := hmove.frame
  rw [Engine.poll_eq, ← hm.engine, ← hm.more]
  unfold Switchboard.poll
  rcases hr : ({ s with engine := s.engine.front t } : Switchboard).step script t with ⟨s', b⟩
  rw [hr] at hm
  rw [← hm.engine] at hline
  have hothers : ∀ (u : TaskId) task, u ≠ t → s'.engine.tasks[u]? = some task →
      s'.hasNotice u task = true →
        (u ∈ s'.engine.ready.drop 1 ∨ u ∈ s'.engine.late) ∨ s'.engine.isEnabled task = true :=
    fun u task => hm.due_others hmove rfl fun u task hne hu hn =>
      (h.called u task hu hn).imp_left (List.mem_erase_of_ne hne).2
  -- a task that leaves the line has been told of nothing, or could get further
  cases b with
  | true =>
    refine serves_callBack hm.inTune fun u task hu hn => ?_
    by_cases hut : u = t
    · rw [hline, hut]
      exact .inl (.inl List.mem_cons_self)
    · exact (hothers u task hut hu hn).imp_left fun hplace => hplace.imp_left List.mem_of_mem_drop
  | false =>
    refine serves_endTurn hm.inTune fun u task hu hn => ?_
    by_cases hut : u = t
    · subst hut
      exact .inr (hm.stuck rfl task hu hn)
    · exact hothers u task hut hu hn

/-! ### From outside -/

/-- Something happens outside that ends no wait but for a reason, and changes no task but to tell it
to drop everything. -/
theorem Serves.disturb (h : s.Serves e) (s' : Switchboard) (hs : s'.InTune)
    (hready : s'.engine.ready = s.engine.ready) (hlate : s'.engine.late = s.engine.late)
    (hsleeps : ∀ u, s.watch.Sleeps u → s'.watch.Sleeps u ∨ s'.engine.context.isCancelled = true)
    (hjoins : ∀ u ∈ s.joiners, u ∈ s'.joiners ∨ s'.engine.queue.drained = true)
    (htasks : ∀ (u : TaskId) task, s'.engine.tasks[u]? = some task →
      s.engine.tasks[u]? = some task ∨ (s.engine.tasks[u]?).map Task.abort = some task) :
    s'.callBack.Serves s'.engine.callBack := by
  refine serves_callBack hs fun u task hu hn => ?_
  rw [hready, hlate]
  exact due_of_kept (hsleeps u) (hjoins u) (h.called u) (htasks u task hu) hn

theorem Serves.react (h : s.Serves e) (hslots : e.Slotted) (script : Script) (event : Event) :
    (s.react script event).Serves (e.react script event) := by
  obtain rfl := h.engine
  cases event with
  | poll t => exact h.poll hslots script t
  | reply call reply =>
    exact h.disturb { s with engine := { s.engine with log := s.engine.log.reply call reply } }
      ⟨h.notifier, h.watch, h.context⟩ rfl rfl (fun _ => .inl) (fun _ => .inl) fun _ _ => .inl
  | cancel reason =>
    have hwatched := h.watched_cancel 0 reason
    have hcancelled := Cancellation.isCancelled_cancel s.engine.context reason
    exact h.disturb { s with engine := s.engine.cancel reason, watch := s.watch.cancel 0 reason }
      ⟨h.notifier, hwatched.informed, hwatched.context⟩ rfl rfl (fun _ _ => .inr hcancelled)
      (fun _ => .inl) fun _ _ => .inl
  | pause => exact ⟨⟨h.notifier, h.watch, h.context⟩, rfl, h.called⟩

/-- Whoever joins is in line at once. -/
theorem Serves.spawn (h : s.Serves e) (task : Task) :
    ({ s with engine := s.engine.spawn task } : Switchboard).Serves (e.spawn task) := by
  obtain rfl := h.engine
  refine ⟨⟨h.notifier, h.watch, h.context⟩, rfl, fun u x hu hn => ?_⟩
  have hsame : s.hasNotice u x = true := by
    cases x with
    | shutdown d =>
      simp only [hasNotice, Bool.and_eq_true] at hn ⊢
      exact ⟨hn.1, Engine.allEnded_of_spawn hn.2⟩
    | driver d =>
      cases hs : d.stage with
      | stopping =>
        simp only [hasNotice, hs] at hn ⊢
        exact Engine.allEnded_of_spawn hn
      | submitting | draining => simpa [hasNotice, hs] using hn
      | _ => simp [hasNotice, hs] at hn
    | worker | producer | joiner => exact hn
  rcases Nat.lt_or_ge u s.engine.tasks.length with hlt | hge
  · have hold : s.engine.tasks[u]? = some x := (List.getElem?_append_left hlt).symm.trans hu
    exact (h.called u x hold hsame).imp_left (List.mem_append_left _)
  · have hlt := (List.getElem?_eq_some_iff.1 hu).1
    obtain rfl : u = s.engine.tasks.length := by
      have hlength : (s.engine.spawn task).tasks.length = s.engine.tasks.length + 1 := by
        simp [Engine.spawn]
      exact Nat.le_antisymm (Nat.le_of_lt_succ (Nat.lt_of_lt_of_eq hlt hlength)) hge
    exact .inl (List.mem_append_right _ (List.mem_singleton.2 rfl))

theorem Serves.markDone (h : s.Serves e) {queue : WorkQueue WorkItem}
    (hq : e.queue.markDone = .ok queue) :
    (s.use s.notifier.markDone).callBack.Serves ({ e with queue }).callBack := by
  obtain rfl := h.engine
  have hdealing := h.notifier.markDone
  have hqueue : s.notifier.markDone.queue = queue := by
    unfold Notifier.markDone
    rw [show s.notifier.queue.markDone = .ok queue from hq]
  rw [← hqueue]
  -- a dealing of anybody else does as well
  exact h.disturb (s.use s.notifier.markDone) ⟨(hdealing 0).tuned, h.watch, h.context⟩ rfl rfl
    (fun _ => .inl) (fun u => (hdealing (u + 1)).joining u (Nat.ne_of_lt u.lt_succ_self))
    fun _ _ => .inl

theorem Serves.abort (h : s.Serves e) (members : List TaskId) :
    ({ s with
        engine := s.engine.abortAll members
        listeners := s.notifier.close.listeners } : Switchboard).callBack.Serves
      (e.abortAll members).callBack := by
  obtain rfl := h.engine
  have htasks := s.engine.getElem?_abortAll members
  rw [Engine.abortAll_eq]
  generalize (s.engine.abortAll members).tasks = tasks at htasks ⊢
  refine h.disturb { s with
    engine := { s.engine with queue := s.engine.queue.close, tasks }
    listeners := s.notifier.close.listeners } ⟨(h.notifier.close 0).tuned, h.watch, h.context⟩
    rfl rfl (fun _ => .inl) (fun _ => .inl) fun u task hu => ?_
  have hu : tasks[u]? = some task := hu
  rw [htasks] at hu
  split at hu
  · exact .inr hu
  · exact .inl hu

theorem Serves.undergo (h : s.Serves e) (hslots : e.Slotted) (script : Script)
    (happening : Happening) : (s.undergo script happening).Serves (e.undergo script happening) := by
  cases happening with
  | event event => exact h.react hslots script event
  | spawn task => exact h.spawn task
  | markDone =>
    obtain rfl := h.engine
    unfold Switchboard.undergo Engine.undergo
    cases hq : s.engine.queue.markDone with
    | error fault => exact h
    | ok queue => exact h.markDone hq
  | close =>
    obtain rfl := h.engine
    exact h.disturb (s.use s.notifier.close) ⟨(h.notifier.close 0).tuned, h.watch, h.context⟩
      rfl rfl (fun _ => .inl) (fun _ => .inl) fun _ _ => .inl
  | abort members => exact h.abort members

theorem Serves.undergoAll (h : s.Serves e) (hslots : e.Slotted) (script : Script)
    (happenings : List Happening) :
    (s.undergoAll script happenings).Serves (e.undergoAll script happenings) := by
  induction happenings generalizing s e with
  | nil => exact h
  | cons happening rest ih =>
    exact ih (h.undergo hslots script happening) (hslots.undergo script happening)

/-! ### Histories -/

theorem serves_idle (capacity : Nat) (context : Cancellation) (log : CallLog) :
    (ofEngine (.idle capacity context log)).Serves (.idle capacity context log) := by
  have hinformed : (ofEngine (.idle capacity context log)).watch.Informed := by
    refine ⟨fun i => ?_, nofun⟩
    rcases i with _ | i <;> exact Nat.one_pos
  have htuned : (ofEngine (.idle capacity context log)).notifier.Tuned :=
    ⟨⟨fun h => absurd rfl h, nofun⟩, nofun⟩
  exact ⟨⟨htuned, hinformed, rfl⟩, rfl, fun t task ht => by cases ht⟩

/-- Whatever happens, the engine does what it would do if those who have been told were called back
and nobody else. -/
theorem serves_undergoAll (capacity : Nat) (context : Cancellation) (log : CallLog)
    (script : Script) (happenings : List Happening) :
    ((ofEngine (.idle capacity context log)).undergoAll script happenings).Serves
      ((Engine.idle capacity context log).undergoAll script happenings) :=
  (serves_idle capacity context log).undergoAll (.idle capacity context log) script happenings

/-- Of those who have no place in a line, the ones who have been told of something are the ones who
could get further. -/
theorem Serves.mem_called_iff (h : s.Serves e) (hready : t ∉ e.ready) (hlate : t ∉ e.late) :
    t ∈ s.called ↔ t ∈ e.callable := by
  obtain rfl := h.engine
  have hnot : ∀ task, s.engine.tasks[t]? = some task → s.hasNotice t task = false := by
    intro task ht
    refine Bool.eq_false_iff.2 fun hn => ?_
    exact (h.called t task ht hn).elim hready hlate
  rw [Engine.mem_callable, Switchboard.called, h.notifier.told_eq, List.mem_append,
    List.mem_filterMap]
  refine or_congr_right ⟨?_, ?_⟩
  · rintro ⟨⟨task, u⟩, hmem, hu⟩
    simp only [Option.ite_none_right_eq_some, Option.some.injEq] at hu
    obtain ⟨hn, rfl⟩ := hu
    rw [hnot task (List.mem_zipIdx_iff_getElem?.1 hmem)] at hn
    cases hn
  · rintro ⟨task, ht, henabled⟩
    have hn := hasNotice_of_isEnabled h.toInTune t henabled
    rw [hnot task ht] at hn
    cases hn

/-- In a run those are called back who have been told. -/
theorem engine_run (o : Orchestrator) (script : Script) (events : List Event) :
    ((ofEngine (.idle o.capacity o.current o.log)).undergoAll script
      (.spawn (.driver o.driver) :: events.map .event)).engine = o.launch.play script events :=
  (serves_undergoAll o.capacity o.current o.log script _).engine.trans
    (o.play_launch script events).symm

/-- So it is at a bench. -/
theorem engine_bench {b : Bench} (h : b.Used) : ∃ capacity happenings,
    ((ofEngine (.idle capacity {} {})).undergoAll Bench.script happenings).engine = b.engine := by
  obtain ⟨capacity, happenings, he⟩ := h.eq_undergoAll
  exact ⟨capacity, happenings, (serves_undergoAll capacity {} {} _ happenings).engine.trans he.symm⟩

end Switchboard

end LoadGenerator
