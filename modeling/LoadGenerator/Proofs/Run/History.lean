import LoadGenerator.Orchestrator
import LoadGenerator.Proofs.Config.Validation
import LoadGenerator.Proofs.Engine.Moves

/-!
# Histories of a run

An `Event` is one thing that may happen next in a run: a task makes a step, a call is replied to,
the run is cancelled. `Engine.play` lets any events happen in any order, so a task may step whenever
it likes and not only when it is first in line; the theorems about runs hold for all of these
histories. Those that the line gives rise to are among them (`calmly_settle`), and so is every
engine that an orchestrator runs (`Orchestrator.Follows`).
-/

namespace LoadGenerator

/-- What may happen to the engine of a run. After a `pause` the turns are counted afresh. -/
inductive Event where
  | poll (t : TaskId)
  | reply (call : Nat) (reply : Reply)
  | cancel (reason : CancelReason)
  | pause
  deriving DecidableEq, Repr

namespace Engine

variable {script : Script} {e : Engine} {t : TaskId}

/-- One step of a task that goes first. -/
def poll (script : Script) (e : Engine) (t : TaskId) : Engine :=
  { e with ready := t :: e.ready.erase t }.tick script

def front (e : Engine) (t : TaskId) : Engine :=
  { e with ready := t :: e.ready.erase t }

theorem poll_eq (script : Script) (e : Engine) (t : TaskId) :
    e.poll script t =
      if ((e.front t).step script t).2 then ((e.front t).step script t).1.callBack
      else ((e.front t).step script t).1.endTurn := by
  rcases h : (e.front t).step script t with ⟨e', more⟩
  unfold front at h
  cases more with
  | true => simp [poll, tick, h]
  | false => simp [poll, tick, h]

/-- A task that goes first makes its step before the line changes. -/
theorem poll_alike (script : Script) (e : Engine) (t : TaskId) :
    ((e.front t).step script t).1.Alike (e.poll script t) := by
  rw [poll_eq]
  split
  · exact callBack_alike _
  · exact endTurn_alike _

def react (script : Script) (e : Engine) : Event → Engine
  | .poll t => e.poll script t
  | .reply call reply => (e.respond call reply).1
  | .cancel reason => (e.cancel reason).callBack
  | .pause => { e with turns := 0 }

def play (script : Script) (e : Engine) (events : List Event) : Engine :=
  events.foldl (react script) e

theorem play_append (script : Script) (e : Engine) (events more : List Event) :
    e.play script (events ++ more) = (e.play script events).play script more :=
  List.foldl_append

theorem play_concat (script : Script) (e : Engine) (events : List Event) (event : Event) :
    e.play script (events ++ [event]) = (e.play script events).react script event :=
  play_append script e events [event]

/-- What every event keeps, every history keeps. -/
theorem play_induction {P : Engine → Prop} (h₀ : P e)
    (step : ∀ e event, P e → P (e.react script event)) (events : List Event) :
    P (e.play script events) := by
  induction events generalizing e with
  | nil => exact h₀
  | cons event rest ih => exact ih (step e event h₀)

/-! ### The line as a history -/

theorem tick_eq_poll {rest : List TaskId} (h : e.ready = t :: rest) :
    e.tick script = e.poll script t := by
  have he : { e with ready := t :: e.ready.erase t } = e := by
    rw [h, List.erase_cons_head, ← h]
  rw [poll, he]

/-- A history in which nobody cancels from outside leads from one engine to another. -/
def Calmly (script : Script) (e e' : Engine) : Prop :=
  ∃ events, (∀ reason, Event.cancel reason ∉ events) ∧ e' = e.play script events

theorem Calmly.refl (script : Script) (e : Engine) : Calmly script e e :=
  ⟨[], fun _ => List.not_mem_nil, rfl⟩

theorem Calmly.trans {e₁ e₂ : Engine} (h : Calmly script e e₁) (h' : Calmly script e₁ e₂) :
    Calmly script e e₂ := by
  obtain ⟨events, hcalm, rfl⟩ := h
  obtain ⟨more, hmore, rfl⟩ := h'
  refine ⟨events ++ more, fun reason hmem => ?_, (play_append script e events more).symm⟩
  exact (List.mem_append.1 hmem).elim (hcalm reason) (hmore reason)

theorem calmly_react (script : Script) (e : Engine) {event : Event}
    (h : ∀ reason, event ≠ .cancel reason) : Calmly script e (e.react script event) :=
  ⟨[event], fun reason hmem => h reason (List.mem_singleton.1 hmem).symm, rfl⟩

/-- What every event but a cancellation keeps, such a history keeps. -/
theorem Calmly.induction {P : Engine → Prop} {e' : Engine} (h : Calmly script e e') (h₀ : P e)
    (step : ∀ e event, (∀ reason, event ≠ .cancel reason) → P e → P (e.react script event)) :
    P e' := by
  obtain ⟨events, hcalm, rfl⟩ := h
  induction events generalizing e with
  | nil => exact h₀
  | cons event rest ih =>
    refine ih (step e event (fun reason he => ?_) h₀) fun reason hmem => ?_
    · exact hcalm reason (he ▸ List.mem_cons_self)
    · exact hcalm reason (List.mem_cons_of_mem _ hmem)

theorem calmly_run (script : Script) (fuel : Nat) (e : Engine) :
    Calmly script e (e.run script fuel) := by
  induction fuel generalizing e with
  | zero => exact .refl script e
  | succ fuel ih =>
    unfold run
    cases h : e.ready with
    | nil => exact .refl script e
    | cons t rest =>
      have hpoll : Calmly script e (e.react script (.poll t)) :=
        calmly_react script e fun _ he => by cases he
      have htick : e.tick script = e.poll script t := tick_eq_poll h
      rw [htick]
      exact hpoll.trans (ih _)

theorem calmly_settle (script : Script) (e : Engine) : Calmly script e (e.settle script) := by
  have hpause : Calmly script e (e.react script .pause) :=
    calmly_react script e fun _ he => by cases he
  exact hpause.trans (calmly_run script _ _)

theorem calmly_respond (script : Script) (e : Engine) (call : Nat) (reply : Reply) :
    Calmly script e (e.respond call reply).1 := by
  have hreply : Calmly script e (e.react script (.reply call reply)) :=
    calmly_react script e fun _ he => by cases he
  exact hreply

theorem calmly_respondNth (script : Script) (e : Engine) (place : Nat) (reply : Reply) :
    Calmly script e (e.respondNth place reply).1 := by
  unfold respondNth
  split
  · exact .refl script e
  · exact calmly_respond script e _ reply

theorem calmly_respondEach (script : Script) (reply : Reply) (calls : List Nat) (e : Engine) :
    Calmly script e (e.respondEach script reply calls).1 := by
  induction calls generalizing e with
  | nil => exact .refl script e
  | cons call calls ih =>
    exact ((calmly_respond script e call reply).trans (calmly_settle script _)).trans (ih _)

theorem calmly_drain (script : Script) (reply : Reply) (most : Nat) (e : Engine) :
    Calmly script e (e.drain script reply most).1 := by
  induction most generalizing e with
  | zero => exact .refl script e
  | succ most ih =>
    unfold drain
    split
    · exact .refl script e
    · exact ((calmly_respond script e _ reply).trans (calmly_settle script _)).trans (ih _)

theorem calmly_receive (script : Script) (e : Engine) (reply : Reply) (whom : Addressee) :
    Calmly script e (e.receive script reply whom).1 := by
  cases whom with
  | call number => exact calmly_respond script e number reply
  | place n => exact calmly_respondNth script e n reply
  | waiting => exact calmly_respondEach script reply e.log.waiting e
  | each most => exact calmly_drain script reply most e

end Engine

namespace Orchestrator

variable {o o' : Orchestrator} {script : Script} {e : Engine}

/-- The configuration is valid, and the target is the one that it names. -/
structure Valid (o : Orchestrator) : Prop where
  config : o.config.validate = .ok ()
  target : o.config.parsedTarget = .ok o.target

theorem valid_of_build {config : Config} {hasTransport : Bool}
    (h : build config hasTransport = .ok o) : o.Valid ∧ o.config = config := by
  unfold build at h
  split at h
  · split at h
    · cases h
    · cases ht : config.parsedTarget with
      | error e =>
        rw [ht] at h
        cases h
      | ok target =>
        rw [ht] at h
        cases h
        exact ⟨⟨‹_›, ht⟩, rfl⟩
  · cases h

/-- Three requests by two workers. -/
def small (policy : FailurePolicy) : Orchestrator where
  config := {
    target := "localhost:80", totalRequests := 3, concurrency := 2, queueCapacityMultiplier := 1
    failurePolicy := policy }
  target := ⟨"localhost", 80⟩

theorem valid_small (policy : FailurePolicy) : (small policy).Valid := by
  cases policy with
  | goOn => exact ⟨by rfl, by rfl⟩
  | abort => exact ⟨by rfl, by rfl⟩

def total (o : Orchestrator) : Nat :=
  o.config.totalRequests.toNat

def size (o : Orchestrator) : Nat :=
  o.config.concurrency.toNat

def capacity (o : Orchestrator) : Nat :=
  o.config.concurrency.toNat * o.config.queueCapacityMultiplier.toNat

/-- The engine of a run that is about to start. -/
def launch (o : Orchestrator) : Engine :=
  { queue := .ofCapacity o.capacity, context := o.current, log := o.log : Engine }.spawn <|
    .driver {
      size := o.size
      policy := o.config.failurePolicy
      source := ⟨o.target, o.total⟩ }

theorem of_validate (h : o.config.validate = .ok ()) :
    0 < o.size ∧ 0 < o.total ∧ 0 < o.config.queueCapacityMultiplier.toNat ∧
      o.capacity ≤ WorkQueue.maxCapacity :=
  have hpasses := Config.validate_eq_ok.mp h
  ⟨hpasses .concurrency, hpasses .requestCount, hpasses .multiplier, hpasses .capacity⟩

theorem toNat_queueCapacity (h : o.capacity < UInt64.size) :
    o.config.queueCapacity.toNat = o.capacity :=
  Count.toNat_mulCapped h

/-- A run of a valid configuration starts, with a queue of the exact capacity. -/
theorem engine_eq_launch (h : o.config.validate = .ok ()) : o.engine = .ok o.launch := by
  obtain ⟨hsize, -, hmult, hmax⟩ := of_validate h
  have hcap : o.config.queueCapacity.toNat = o.capacity :=
    toNat_queueCapacity (Nat.lt_of_le_of_lt hmax (by decide))
  have hne : ¬ o.config.queueCapacity = 0 := by
    intro h0
    rw [h0] at hcap
    have hpos : 0 < o.capacity := Nat.mul_pos hsize hmult
    have h0' : (0 : UInt64).toNat = 0 := rfl
    omega
  unfold engine WorkQueue.new
  rw [if_neg hne, hcap, if_neg (Nat.not_lt.2 hmax)]
  rfl

/-- A run that can start has workers, and is launched with a queue of the exact capacity, whether
the configuration is valid or not. -/
theorem of_engine_eq_ok (h : o.engine = .ok e) : 0 < o.size ∧ e = o.launch := by
  unfold engine WorkQueue.new at h
  split at h
  · cases h
  rename_i queue hqueue
  cases h
  split at hqueue
  · cases hqueue
  rename_i hne
  split at hqueue
  · cases hqueue
  rename_i hmax
  cases hqueue
  have hlt : o.capacity < UInt64.size := by
    refine Nat.lt_of_not_le fun hge => hmax ?_
    have hcapped : o.config.queueCapacity = Count.max := Count.mulCapped_eq_max hge
    rw [hcapped]
    decide
  have hcap := toNat_queueCapacity hlt
  refine ⟨Nat.pos_of_ne_zero fun h0 => hne ?_, ?_⟩
  · refine UInt64.toNat_inj.1 ?_
    rw [hcap, capacity, ← size, h0, Nat.zero_mul]
    rfl
  · rw [hcap]
    rfl

/-- A history has led from the launch of `o₀` to the engine that `o` runs, if it runs one. -/
def Follows (script : Script) (o₀ o : Orchestrator) : Prop :=
  ∀ e signals, o.activity = .running e signals → ∃ events, e = o₀.launch.play script events

theorem follows_start (h : o.config.validate = .ok ()) (signals : Bool) :
    Follows script o (o.start signals) := by
  intro e signals' he
  rw [start, engine_eq_launch h] at he
  cases he
  exact ⟨[], rfl⟩

/-- As long as a run goes on, whatever is done leads to an engine that a history leads to. -/
theorem Follows.proceed {o₀ : Orchestrator} {signals : Bool}
    (h : ∃ events, e = o₀.launch.play script events) : Follows script o₀ (o.proceed e signals) := by
  intro e' signals' he
  unfold Orchestrator.proceed at he
  split at he
  · cases he
  · cases he
    exact h

theorem Follows.settle {o₀ : Orchestrator} (h : Follows script o₀ o) :
    Follows script o₀ (o.settle script) := by
  unfold Orchestrator.settle
  split
  · exact h
  · rename_i e signals ha
    obtain ⟨events, rfl⟩ := h e signals ha
    obtain ⟨more, -, hmore⟩ := Engine.calmly_settle script (o₀.launch.play script events)
    exact .proceed ⟨events ++ more, by rw [hmore, Engine.play_append]⟩

theorem Follows.cancel {o₀ : Orchestrator} (h : Follows script o₀ o) (reason : CancelReason) :
    Follows script o₀ (o.cancel reason) := by
  intro e' signals' he
  unfold Orchestrator.cancel at he
  cases ha : o.activity with
  | idle context =>
    rw [ha] at he
    cases he
  | running e signals =>
    rw [ha] at he
    cases he
    obtain ⟨events, rfl⟩ := h e _ ha
    exact ⟨events ++ [.cancel reason], by rw [Engine.play_concat]; rfl⟩

theorem Follows.cancelContext {o₀ : Orchestrator} (h : Follows script o₀ o) (i : Nat)
    (reason : CancelReason) : Follows script o₀ (o.cancelContext i reason) := by
  unfold Orchestrator.cancelContext
  split
  · exact h
  · exact h.cancel reason

theorem Follows.interrupt {o₀ : Orchestrator} (h : Follows script o₀ o) :
    Follows script o₀ (o.interrupt script) := by
  unfold Orchestrator.interrupt
  split
  · simp only
    split
    · exact h.settle.cancel _
    · exact h.settle
  · exact h

/-- Every action but the start of another run keeps to the histories of the present one. -/
theorem Follows.act {o₀ : Orchestrator} (h : Follows script o₀ o) (action : Action)
    (ha : ∀ signals, action ≠ .run signals) : Follows script o₀ (o.act script action).1 := by
  cases action with
  | run signals => exact absurd rfl (ha signals)
  | interrupt => exact h.interrupt
  | takeHandle => exact h
  | cancel reason => exact h.cancel reason
  | cancelHandle handle reason => exact h.cancelContext _ reason
  | look => exact h
  | reply reply whom =>
    change Follows script o₀ (o.receive script reply whom).1
    unfold receive
    split
    · exact h
    · rename_i e signals hrun
      obtain ⟨events, rfl⟩ := h e signals hrun
      obtain ⟨more, -, hmore⟩ := Engine.calmly_receive script (o₀.launch.play script events) reply
        whom
      exact .proceed ⟨events ++ more, by rw [Engine.play_append]; exact hmore⟩

end Orchestrator

end LoadGenerator
