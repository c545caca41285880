import LoadGenerator.Proofs.Run.Invariant

/-!
# Replies reach the log as they are given

Which replies calls get is up to the transport: `Answers` bounds what it gives, at once or later.
A run only hands replies on, so the log holds no others (`obeyed_launch`).
-/

namespace LoadGenerator

def CallState.reply? : CallState → Option Reply
  | .replied reply => some reply
  | .returned reply => some reply
  | _ => none

/-- Every reply that a call gets from then on, at once or later, is one that it may get. -/
structure Answers (before : CallLog) (P : Nat → Reply → Prop) (script : Script)
    (events : List Event) : Prop where
  atOnce : ∀ n reply, before.size < n → script n = some reply → P n reply
  later : ∀ n reply, before.size < n → Event.reply n reply ∈ events → P n reply

/-- Every reply that a call has got since then is one that it may get. -/
def Obeyed (before : CallLog) (P : Nat → Reply → Prop) (log : CallLog) : Prop :=
  ∀ n s reply, before.size < n → log.state? n = some s → s.reply? = some reply → P n reply

namespace Obeyed

variable {before log : CallLog} {P : Nat → Reply → Prop} {n : Nat} {s u : CallState}

theorem set (h : Obeyed before P log) (hs : log.state? n = some s)
    (hu : ∀ reply, u.reply? = some reply → before.size < n → P n reply) :
    Obeyed before P (log.set n u) := by
  intro m s' reply hm hs' hreply
  by_cases hmn : m = n
  · subst hmn
    rw [CallLog.state?_set_self hs] at hs'
    cases hs'
    exact hu reply hreply hm
  · rw [CallLog.state?_set_of_ne hmn] at hs'
    exact h m s' reply hm hs' hreply

theorem take (h : Obeyed before P log) (target : Target) (r : Option Reply)
    (hr : ∀ reply, r = some reply → before.size < log.size + 1 → P (log.size + 1) reply) :
    Obeyed before P (log.startWith target r) := by
  intro m s' reply hm hs' hreply
  rcases Nat.lt_trichotomy m (log.size + 1) with hlt | rfl | hgt
  · rw [CallLog.state?_startWith_of_le r (Nat.le_of_lt_succ hlt)] at hs'
    exact h m s' reply hm hs' hreply
  · rw [CallLog.state?_startWith_new] at hs'
    cases hs'
    cases r with
    | none => cases hreply
    | some r =>
      cases hreply
      exact hr _ rfl hm
  · have hle := CallLog.le_size_of_state? hs'
    rw [CallLog.size_startWith] at hle
    omega

theorem reply {r : Reply} (h : Obeyed before P log)
    (hr : before.size < n → P n r) :
    Obeyed before P (log.reply n r) := by
  rcases CallLog.reply_eq log n r with ⟨hw, heq⟩ | heq
  · rw [heq]
    refine h.set hw fun reply hreply hn => ?_
    cases hreply
    exact hr hn
  · rw [heq]
    exact h

end Obeyed

namespace RunInv

variable {o : Orchestrator} {d : RunDriver} {e : Engine} {P : Nat → Reply → Prop}

theorem obeyed_worker {script : Script} {t : TaskId} {w : Worker} {r : Engine × Bool}
    (h : RunInv o d e) (hob : Obeyed o.log P e.log)
    (hscript : ∀ n reply, o.log.size < n → script n = some reply → P n reply)
    (ht : e.tasks[t]? = some (.worker w)) (hm : Engine.WorkerMove script e t w r) :
    Obeyed o.log P r.1.log := by
  cases hm with
  | rest | dropPlace | quit | await | retire => exact hob
  | @dropCall call hw =>
    obtain ⟨-, s, hs, -⟩ := h.links.held t call (callOf_eq_some.2 ⟨w, ht, hw⟩)
    exact hob.set hs fun reply hreply => by cases hreply
  | start => exact hob.take _ _ fun reply hreply hn => hscript _ reply hn hreply
  | lose hw ha hr =>
    have hs := CallLog.reply?_eq_some hr
    exact hob.set hs fun reply hreply hn => hob _ _ reply hn hs hreply
  | answer hw ha hr | blunder hw ha hr =>
    have hs := CallLog.reply?_eq_some hr
    exact hob.set hs fun reply hreply hn => hob _ _ reply hn hs hreply

theorem obeyed_step {script : Script} (h : RunInv o d e) (hob : Obeyed o.log P e.log)
    (hscript : ∀ n reply, o.log.size < n → script n = some reply → P n reply) (t : TaskId) :
    Obeyed o.log P (e.step script t).1.log := by
  rcases h.crew.step_cases script t with ⟨-, hstep⟩ | ⟨rfl, hm⟩ | ⟨w, ht, hm⟩
  · rw [hstep]
    exact hob
  · rw [hm.log]
    exact hob
  · exact h.obeyed_worker hob hscript ht hm

theorem obeyed_play {script : Script} {events : List Event} (hsize : 0 < o.size)
    (h : RunInv o d e) (hob : Obeyed o.log P e.log) (ha : Answers o.log P script events) :
    Obeyed o.log P (e.play script events).log := by
  induction events generalizing d e with
  | nil => exact hob
  | cons event rest ih =>
    obtain ⟨d', h'⟩ := h.react hsize script event
    refine ih h' ?_ ⟨ha.atOnce, fun n reply hn hmem =>
      ha.later n reply hn (List.mem_cons_of_mem _ hmem)⟩
    cases event with
    | poll t =>
      show Obeyed o.log P (e.poll script t).log
      rw [(Engine.poll_alike script e t).log]
      exact (h.front t).obeyed_step hob ha.atOnce t
    | reply n r => exact hob.reply fun hn => ha.later n r hn List.mem_cons_self
    | cancel | pause => exact hob

end RunInv

/-- The log of a run holds only replies that the transport may give. -/
theorem obeyed_launch {o : Orchestrator} {P : Nat → Reply → Prop} {script : Script}
    {events : List Event} (hsize : 0 < o.size) (ha : Answers o.log P script events) :
    Obeyed o.log P (o.launch.play script events).log := by
  refine (RunInv.launch o).obeyed_play hsize (fun n s reply hn hs => ?_) ha
  have := CallLog.le_size_of_state? hs
  exact absurd hn (Nat.not_lt.2 this)

end LoadGenerator
