import LoadGenerator.Proofs.Orchestrator.Course

/-!
# Runs of one orchestrator have nothing to do with each other

Whoever asks to cancel a run that is over changes nothing but the context of that run (`Akin`), and
whoever asks between two runs asks for the second one, which is `Underway` without a call then and
ends before its driver makes a third step. With the course that an orchestrator takes this says that
its runs are `Independent`.
-/

namespace LoadGenerator

namespace Orchestrator

variable {script : Script} {o o' o₁ o₂ : Orchestrator} {deed : Deed}
  {made : List (Nat × CancelReason)} {reason : CancelReason}

/-! ### Handles of runs that are over -/

/-- The same but for the contexts of the runs that are over. -/
def Akin (o o' : Orchestrator) : Prop :=
  ∃ past : List PastRun, past.map PastRun.how = o.past.map PastRun.how ∧ o' = { o with past }

theorem map_how_modify (past : List PastRun) (i : Nat) (reason : CancelReason) :
    (past.modify i fun run => { run with context := run.context.cancel reason }).map PastRun.how =
      past.map PastRun.how := by
  refine List.ext_getElem? fun n => ?_
  rw [List.getElem?_map, List.getElem?_modify, List.getElem?_map]
  cases past[n]? with
  | none => rfl
  | some run => by_cases h : i = n <;> simp [h]

namespace Akin

theorem length_eq (h : Akin o o') : o'.past.length = o.past.length := by
  obtain ⟨past, hhow, rfl⟩ := h
  simpa using congrArg List.length hhow

theorem start (h : Akin o o') (signals : Bool) : Akin (o.start signals) (o'.start signals) := by
  obtain ⟨past, hhow, rfl⟩ := h
  have hengine : engine { o with past } = o.engine := rfl
  unfold Orchestrator.start
  rw [hengine]
  split
  · exact ⟨past ++ [⟨o.current, _⟩], by simp [Orchestrator.conclude, hhow], rfl⟩
  · exact ⟨past, hhow, rfl⟩

theorem proceed (h : Akin o o') (e : Engine) (signals : Bool) :
    Akin (o.proceed e signals) (o'.proceed e signals) := by
  obtain ⟨past, hhow, rfl⟩ := h
  unfold Orchestrator.proceed
  split
  · exact ⟨past ++ [⟨e.context, _⟩], by simp [Orchestrator.conclude, hhow], rfl⟩
  · exact ⟨past, hhow, rfl⟩

theorem cancelContext (h : Akin o o') (i : Nat) (reason : CancelReason) :
    Akin (o.cancelContext i reason) (o'.cancelContext i reason) := by
  have hlength := h.length_eq
  obtain ⟨past, hhow, rfl⟩ := h
  unfold Orchestrator.cancelContext
  rw [hlength]
  split
  · have hleft := map_how_modify o.past i reason
    have hright := map_how_modify past i reason
    exact ⟨_, hright.trans (hhow.trans hleft.symm), rfl⟩
  · exact ⟨past, hhow, rfl⟩

theorem perform (h : Akin o o') (script : Script) (deed : Deed) :
    Akin (o.perform script deed) (o'.perform script deed) := by
  have hactivity : o'.activity = o.activity := by
    obtain ⟨past, -, rfl⟩ := h
    rfl
  cases deed with
  | run signals =>
    have hrunning : o'.isRunning = o.isRunning := by rw [isRunning, isRunning, hactivity]
    simp only [Orchestrator.perform, hrunning]
    split
    · exact h
    · exact h.start signals
  | takeHandle =>
    have hlength := h.length_eq
    obtain ⟨past, hhow, rfl⟩ := h
    exact ⟨past, hhow, by simp only [Orchestrator.perform, takeHandle, hlength]⟩
  | cancel reason =>
    obtain ⟨past, hhow, rfl⟩ := h
    exact ⟨past, hhow, rfl⟩
  | cancelHandle handle reason =>
    have hhandled : o'.handled handle = o.handled handle := by
      have hlength := h.length_eq
      obtain ⟨past, -, rfl⟩ := h
      simp only [handled, hlength]
    simp only [Orchestrator.perform, hhandled]
    exact h.cancelContext _ reason
  | reply | settle | poll =>
    simp only [Orchestrator.perform, receive, Orchestrator.settle, hactivity]
    cases o.activity with
    | idle => exact h
    | running e signals => exact h.proceed _ signals

theorem performAll (h : Akin o o') (script : Script) (deeds : List Deed) :
    Akin (o.performAll script deeds) (o'.performAll script deeds) := by
  induction deeds generalizing o o' with
  | nil => exact h
  | cons deed deeds ih => exact ih (h.perform script deed)

end Akin

/-- Who cancels a run that is over through a handle changes nothing but the context of that run. -/
theorem akin_cancelHandle {handle : Nat} (h : o.handled handle < o.past.length) (script : Script)
    (reason : CancelReason) : Akin o (o.perform script (.cancelHandle handle reason)) := by
  show Akin o (o.cancelContext (o.handled handle) reason)
  unfold cancelContext
  rw [if_pos h]
  exact ⟨_, map_how_modify _ _ reason, rfl⟩

/-! ### Runs that are cancelled before they start -/

/-- The run that `o` has started after it had been cancelled for the reason goes on as `o₁`. -/
structure Underway (o : Orchestrator) (reason : CancelReason) (o₁ : Orchestrator) : Prop where
  past : o₁.past.length = o.past.length
  running : ∃ e signals, o₁.activity = .running e signals ∧ Forestalled o reason e

namespace Underway

theorem start {context : Cancellation} (hidle : o.activity = .idle context)
    (hr : context.reason = some reason) {e : Engine} (he : o.engine = .ok e) (signals : Bool) :
    Underway o reason (o.start signals) := by
  have hcurrent : o.current.reason = some reason := by rw [current, hidle, hr]
  unfold Orchestrator.start
  rw [he, (of_engine_eq_ok he).2]
  exact ⟨rfl, _, signals, rfl, .launch hcurrent⟩

/-- The run goes on without a call, or it ends for the reason that it was given. -/
theorem turn (hsize : 0 < o.size) (h : Underway o reason o₁) (hturn : Turn script o₁ deed o₂) :
    Underway o reason o₂ ∨ ∃ context log,
      o₂ = o₁.conclude context log (.failed (.ofReason reason)) ∧ log.size = o.log.size := by
  obtain ⟨hpast, e, signals, hrun, hforestalled⟩ := h
  have hcalm : ∀ {e' : Engine}, e.Calmly script e' → Forestalled o reason e' := fun hcalm =>
    hcalm.induction hforestalled fun _ event _ h => h.react hsize script event
  cases hturn with
  | rest | handle => exact .inl ⟨hpast, e, signals, hrun, hforestalled⟩
  | stale => exact .inl ⟨(List.length_modify ..).trans hpast, e, signals, hrun, hforestalled⟩
  | @cancel _ other =>
    refine .inl ⟨hpast, _, signals, ?_, hforestalled.react hsize script (.cancel other)⟩
    rw [Orchestrator.cancel, hrun]
    rfl
  | refuse _ hidle | launch _ hidle =>
    rw [hrun] at hidle
    cases hidle
  | advance _ hrun' hmove =>
    rw [hrun] at hrun'
    cases hrun'
    exact .inl ⟨hpast, _, signals, rfl, hcalm hmove⟩
  | finish _ hrun' hmove hend =>
    rw [hrun] at hrun'
    cases hrun'
    have hover := hcalm hmove
    cases hover.runEnd? hend
    exact .inr ⟨_, _, rfl, hover.calls⟩

theorem performAll (hsize : 0 < o.size) (h : Underway o reason o₁) (script : Script)
    (deeds : List Deed) (hpast : (o₁.performAll script deeds).past.length = o.past.length) :
    Underway o reason (o₁.performAll script deeds) := by
  induction deeds generalizing o₁ with
  | nil => exact h
  | cons deed deeds ih =>
    rcases h.turn hsize (perform_turn script o₁ deed) with h' | ⟨context, log, hover, -⟩
    · exact ih h' hpast
    · have hle := past_le_performAll script (o₁.perform script deed) deeds
      change _ ≤ (o₁.performAll script (deed :: deeds)).past.length at hle
      rw [hover, length_past_conclude, hpast, h.past] at hle
      exact absurd hle (Nat.not_succ_le_self _)

theorem verdict (hsize : 0 < o.size) (h : Underway o reason o₁) {run : PastRun}
    (hended : o₁.ended? script deed = some run) : run.how = .failed (.ofReason reason) ∧
      (o₁.perform script deed).log.size = o.log.size := by
  unfold ended? at hended
  rcases h.turn hsize (perform_turn script o₁ deed) with h' | ⟨context, log, hover, hcalls⟩
  · have hlt := (List.getElem?_eq_some_iff.1 hended).1
    rw [h'.past, h.past] at hlt
    exact absurd hlt (Nat.lt_irrefl _)
  · rw [hover, getElem?_past_conclude] at hended
    cases hended
    rw [hover]
    exact ⟨rfl, hcalls⟩

/-- The run ends with the first step of its driver from now on, or with the second one. -/
theorem returns (hsize : 0 < o.size) (h : Underway o reason o₁) (script : Script) :
    o.past.length < (o₁.performAll script [.poll 0, .poll 0]).past.length := by
  obtain ⟨e, signals, hrun, hforestalled⟩ := h.running
  have hfirst : o₁.perform script (.poll 0) = o₁.proceed (e.poll script 0) signals := by
    simp only [perform, hrun]
  have hsecond : o₁.performAll script [.poll 0, .poll 0] =
      (o₁.proceed (e.poll script 0) signals).perform script (.poll 0) :=
    congrArg (perform script · (.poll 0)) hfirst
  rw [hsecond, ← h.past]
  cases hover : runEnd? (e.poll script 0) with
  | some how =>
    have hle := (perform_turn script (o₁.proceed (e.poll script 0) signals) (.poll 0)).past_le
    rw [proceed_eq_conclude hover, length_past_conclude] at hle
    rw [proceed_eq_conclude hover]
    exact hle
  | none =>
    obtain ⟨how, hhow⟩ := hforestalled.poll_poll hsize script hover
    have hproceed : o₁.proceed (e.poll script 0) signals =
        { o₁ with activity := .running (e.poll script 0) signals } := by
      simp only [proceed, hover]
    have hlast : perform script { o₁ with activity := .running (e.poll script 0) signals }
        (.poll 0) = proceed _ ((e.poll script 0).poll script 0) signals := rfl
    rw [hproceed, hlast, proceed_eq_conclude hhow, length_past_conclude]
    exact Nat.lt_succ_self _

end Underway

/-- What is to be expected of the run that `o` has started after it had been cancelled for the
reason, and that goes on as `o₁`: no call has been started, or will be; whatever deed ends it, it
fails for the reason; two steps of the driver end it. -/
structure Prevented (script : Script) (o : Orchestrator) (reason : CancelReason)
    (o₁ : Orchestrator) : Prop where
  calls : o₁.calls.size = o.log.size
  verdict : ∀ deed run, o₁.ended? script deed = some run → run.how = .failed (.ofReason reason) ∧
    (o₁.perform script deed).log.size = o.log.size
  returns : o.past.length < (o₁.performAll script [.poll 0, .poll 0]).past.length

theorem Underway.prevented (hsize : 0 < o.size) (h : Underway o reason o₁) (script : Script) :
    Prevented script o reason o₁ := by
  refine ⟨?_, fun deed run hended => h.verdict hsize hended, h.returns hsize script⟩
  obtain ⟨e, signals, hrun, hforestalled⟩ := h.running
  rw [calls, hrun]
  exact hforestalled.calls

/-! ### Independence -/

/-- The runs that `o` makes have nothing to do with each other, after the requests that have been
made.
* A run that ends leaves a fresh context behind, however it ends.
* A run that is cancelled has been asked to itself, or has a worker that has failed.
* A handle belongs for ever to the run that goes on or comes next when it is taken.
* A handle of a run that is over cancels nothing.
* A run that has been cancelled before it starts cannot start at all, or ends for the first reason
  that it was given, in its first turn and without a call. -/
structure Independent (script : Script) (made : List (Nat × CancelReason)) (o : Orchestrator) :
    Prop where
  fresh : ∀ deed run, o.ended? script deed = some run → (o.perform script deed).activity = .idle {}
  cause : ∀ deed run error, o.ended? script deed = some run → run.how = .failed error →
    error.isCancellation = true → ∃ reason, error = .ofReason reason ∧
      ((o.past.length, reason) ∈ made ∨ o.FailedFast (o.perform script deed).log reason)
  handle : ∀ more, ((o.perform script .takeHandle).performAll script more).handled
    o.handles.length = o.past.length
  stale : ∀ handle reason more, o.handled handle < o.past.length →
    (o.performAll script more).Akin
      ((o.perform script (.cancelHandle handle reason)).performAll script more)
  forestalled : ∀ context reason signals, o.activity = .idle context →
    firstRequest o.past.length made = some reason →
      (∃ error, o.engine = .error error ∧
        o.perform script (.run signals) = o.conclude context o.log (.failed error)) ∨
      (∃ run, (o.perform script (.run signals)).ended? script .settle = some run) ∧
        ∀ more, ((o.perform script (.run signals)).performAll script more).past.length =
          o.past.length →
            Prevented script o reason ((o.perform script (.run signals)).performAll script more)

theorem ended?_settle {context : Cancellation} (hidle : o.activity = .idle context)
    (hr : context.reason = some reason) {e : Engine} (he : o.engine = .ok e) (signals : Bool)
    (script : Script) : ∃ run, (o.start signals).ended? script .settle = some run := by
  obtain ⟨hsize, rfl⟩ := of_engine_eq_ok he
  have hcurrent : o.current.reason = some reason := by rw [current, hidle, hr]
  have hover := Forestalled.settle hsize hcurrent script
  have hstart : o.start signals = { o with activity := .running o.launch signals } := by
    simp only [start, he]
  refine ⟨⟨(o.launch.settle script).context, .failed (.ofReason reason)⟩, ?_⟩
  rw [hstart]
  show (proceed _ (o.launch.settle script) signals).past[o.past.length]? = _
  rw [proceed_eq_conclude hover]
  exact getElem?_past_conclude _ _ _ _

theorem Course.forestalled (h : Course made o) (script : Script) {context : Cancellation}
    (hidle : o.activity = .idle context) (hfirst : firstRequest o.past.length made = some reason)
    (signals : Bool) :
    (∃ error, o.engine = .error error ∧
      o.perform script (.run signals) = o.conclude context o.log (.failed error)) ∨
    (∃ run, (o.perform script (.run signals)).ended? script .settle = some run) ∧
      ∀ more, ((o.perform script (.run signals)).performAll script more).past.length =
        o.past.length →
          Prevented script o reason ((o.perform script (.run signals)).performAll script more) := by
  have hr : context.reason = some reason := (h.idle context hidle).trans hfirst
  have hperform : o.perform script (.run signals) = o.start signals := by
    simp only [perform, isRunning, hidle, Bool.false_eq_true, if_false]
  rw [hperform]
  cases he : o.engine with
  | error error =>
    refine .inl ⟨error, rfl, ?_⟩
    simp only [Orchestrator.start, he, current, hidle]
  | ok e =>
    have hunderway := Underway.start hidle hr he signals
    have hsize := (of_engine_eq_ok he).1
    refine .inr ⟨ended?_settle hidle hr he signals script, fun more hpast => ?_⟩
    exact (hunderway.performAll hsize script more hpast).prevented hsize script

/-- Whatever is done with an orchestrator, its runs are independent. -/
theorem runs_independent (config : Config) (target : Target) (script : Script)
    (deeds : List Deed) :
    let o : Orchestrator := { config, target }
    Independent script (requests script o deeds) (o.performAll script deeds) := by
  intro o
  have hcourse : Course (requests script o deeds) (o.performAll script deeds) :=
    (Course.start config target).performAll script deeds
  exact {
    fresh := fun deed run hended => (ending_of_ended? hended).idle
    cause := fun deed run error hended => hcourse.cause (ending_of_ended? hended)
    handle := handled_takeHandle script _
    stale := fun handle reason more h => (akin_cancelHandle h script reason).performAll script more
    forestalled := fun context reason signals hidle hfirst =>
      hcourse.forestalled script hidle hfirst signals }

/-- A handle that has cancelled the first run is of no use against the second one. -/
example :
    let script : Script := fun _ => none
    let deeds : List Deed := [.takeHandle, .cancelHandle 0 .interrupted, .run false, .settle,
      .run false, .settle, .cancelHandle 0 .interrupted, .reply (.response 200) (.each 3)]
    (((small .goOn).performAll script deeds).past.map fun run =>
      match run.how with
      | .failed error => some error
      | .completed _ _ => none) = [some .interrupted, none] := by
  decide +kernel

end Orchestrator

end LoadGenerator
