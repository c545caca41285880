import LoadGenerator.Bench
import LoadGenerator.Proofs.Config.Validation
import LoadGenerator.Proofs.Orchestrator.Independence

/-!
# A valid configuration always starts

The size of the queue of a run is computed three times: exactly when the configuration is validated,
capped when the queue is made, and once more when the queue checks its capacity. All of them agree
for a valid configuration (`Config.Startable`), so there is an orchestrator for it, and each of its
runs has its queue and its workers and fails for no reason but a cancellation, whatever is done
(`Unobstructed`).
-/

namespace LoadGenerator

/-- The run has not failed, or it has failed because it was cancelled. -/
def RunEnd.Undisturbed (how : RunEnd) : Prop :=
  ∀ error, how = .failed error → error.isCancellation = true

theorem Error.isCancellation_ofReason (reason : CancelReason) :
    (Error.ofReason reason).isCancellation = true := by
  cases reason <;> rfl

theorem RunInv.undisturbed {o : Orchestrator} {d : RunDriver} {e : Engine} {how : RunEnd}
    (h : RunInv o d e) (hend : Orchestrator.runEnd? e = some how) : how.Undisturbed := by
  rintro error rfl
  obtain ⟨reason, -, rfl⟩ := h.stages.failed error (h.runEnd?_eq_some.1 hend)
  exact Error.isCancellation_ofReason reason

namespace Orchestrator

variable {script : Script} {o o' : Orchestrator} {deed : Deed} {made : List (Nat × CancelReason)}
  {d : RunDriver} {e : Engine}

/-! ### What a deed leaves as it is -/

theorem Turn.config_eq (h : Turn script o deed o') : o'.config = o.config := by
  cases h <;> rfl

theorem config_performAll (script : Script) (o : Orchestrator) (deeds : List Deed) :
    (o.performAll script deeds).config = o.config := by
  induction deeds generalizing o with
  | nil => rfl
  | cons deed deeds ih => exact (ih _).trans (perform_turn script o deed).config_eq

/-- A run that a deed brings to its end was under way, so nothing but a cancellation has ended it
early. -/
theorem Turn.undisturbed (hturn : Turn script o deed o') (hvalid : o.config.validate = .ok ())
    (hcourse : Course made o) (h : ∀ how ∈ o.past.map PastRun.how, how.Undisturbed) :
    ∀ how ∈ o'.past.map PastRun.how, how.Undisturbed := by
  cases hturn with
  | rest | handle | cancel | launch | advance => exact h
  | @stale i reason =>
    rw [map_how_modify]
    exact h
  | refuse _ _ he =>
    rw [engine_eq_launch hvalid] at he
    cases he
  | @finish _ e' _ how _ hrun hcalm hend =>
    obtain ⟨hsize, ⟨d, hinv⟩, hcaused⟩ := hcourse.running _ _ hrun
    obtain ⟨⟨d', hinv'⟩, -⟩ := hinv.caused_calmly hsize hcaused hcalm
    intro how' hmem
    rw [conclude, List.map_append] at hmem
    rcases List.mem_append.1 hmem with hmem | hmem
    · exact h how' hmem
    · rw [List.mem_singleton.1 hmem]
      exact hinv'.undisturbed hend

theorem undisturbed_performAll (hvalid : o.config.validate = .ok ()) (hcourse : Course made o)
    (h : ∀ how ∈ o.past.map PastRun.how, how.Undisturbed) (script : Script) (deeds : List Deed) :
    ∀ how ∈ (o.performAll script deeds).past.map PastRun.how, how.Undisturbed := by
  induction deeds generalizing made o with
  | nil => exact h
  | cons deed deeds ih =>
    have hturn := perform_turn script o deed
    refine ih ?_ (hcourse.turn hturn) (hturn.undisturbed hvalid hcourse h)
    rw [hturn.config_eq]
    exact hvalid

/-! ### The pool of a run -/

/-- The first step of the driver starts as many workers as the configuration says. -/
theorem tasks_step_starting (hsize : 0 < o.size) (h : RunInv o d e) (hs : d.stage = .starting)
    (script : Script) : (e.step script 0).1.tasks =
      .driver { d with members := (List.range o.size).map (1 + ·), stage := .submitting } ::
        Engine.poolWorkers o.size o.config.failurePolicy := by
  have hdriver : e.tasks[0]? = some (.driver d) := h.crew.driver
  have hlen : e.tasks.length = 1 := by
    rcases h.crew.length with hl | hl
    · exact hl.2
    · exact absurd hs hl.1
  have hne : d.size ≠ 0 := by
    have hd := h.crew.size
    omega
  obtain ⟨task, htasks⟩ := List.length_eq_one_iff.1 hlen
  rw [Engine.step, hdriver]
  simp only [Engine.stepDriver, hs, if_neg hne]
  rw [Engine.spawnAll_eq, ← h.crew.size, ← h.crew.policy]
  simp only [Engine.setTask, Engine.nextIds, htasks, List.set_cons_zero, List.length_singleton]
  rfl

/-- The engine of a run has the queue of the exact capacity and, once its driver has made a step,
the workers that the configuration asks for. -/
structure Manned (script : Script) (o : Orchestrator) (e : Engine) : Prop where
  capacity : e.queue.capacity = o.config.queueSize
  pool : ∃ d, e.tasks[0]? = some (.driver d) ∧
    (d.stage = .starting → (e.step script 0).1.tasks =
      .driver { d with members := (List.range o.size).map (1 + ·), stage := .submitting } ::
        Engine.poolWorkers o.size o.config.failurePolicy) ∧
    (d.stage ≠ .starting → d.members.length = o.size ∧
      ∀ t ∈ d.members, ∃ w, e.worker? t = some w)

theorem manned (hsize : 0 < o.size) (h : RunInv o d e) (script : Script) :
    Manned script o e := by
  refine ⟨h.accounts.capacity, d, h.crew.driver, fun hs => tasks_step_starting hsize h hs script,
    fun hs => ⟨?_, fun t ht => ?_⟩⟩
  · rw [(h.crew.length.resolve_left fun hl => hs hl.1).2.2]
    simp
  · obtain ⟨w, hw⟩ := (h.crew.mem_members hs).1 ht
    exact ⟨w, Engine.worker?_eq_some.2 hw⟩

/-- Nothing but a cancellation keeps the runs of an orchestrator from going on: each starts, has its
queue and its workers, and does not end with an error of the configuration. -/
structure Unobstructed (script : Script) (o : Orchestrator) : Prop where
  start : ∀ context signals, o.activity = .idle context →
    (o.start signals).activity = .running o.launch signals
  manned : ∀ e signals, o.activity = .running e signals → Manned script o e
  failed : ∀ run ∈ o.past, ∀ error, run.how = .failed error → error.isCancellation = true ∧
    (∀ detail, error ≠ .config detail) ∧ ∀ part, error ≠ .missing part

theorem unobstructed_performAll {config : Config} (hvalid : config.validate = .ok ())
    (target : Target) (script : Script) (deeds : List Deed) :
    let o : Orchestrator := { config, target }
    Unobstructed script (o.performAll script deeds) := by
  intro o
  have hcourse : Course _ (o.performAll script deeds) :=
    (Course.start config target).performAll script deeds
  have hpast : ∀ how ∈ (o.performAll script deeds).past.map PastRun.how, how.Undisturbed :=
    undisturbed_performAll hvalid (Course.start config target) (by simp) script deeds
  have hconfig : (o.performAll script deeds).config = config := config_performAll script o deeds
  refine ⟨fun context signals hidle => ?_, fun e signals hrun => ?_, fun run hrun error hhow => ?_⟩
  · rw [start, engine_eq_launch (hconfig ▸ hvalid)]
  · obtain ⟨hsize, ⟨d, hinv⟩, -⟩ := hcourse.running e signals hrun
    exact Orchestrator.manned hsize hinv script
  · have hcancelled := hpast _ (List.mem_map_of_mem hrun) error hhow
    refine ⟨hcancelled, fun detail he => ?_, fun part he => ?_⟩
    · rw [he] at hcancelled
      cases hcancelled
    · rw [he] at hcancelled
      cases hcancelled

end Orchestrator

/-! ### The configuration -/

namespace Config

/-- A configuration for which nothing that a run needs can be refused. -/
structure Startable (c : Config) : Prop where
  capacity : c.queueCapacity.toNat = c.queueSize
  room : c.concurrency.toNat ≤ c.queueSize
  queue : WorkQueue.new c.queueCapacity = .ok (.ofCapacity c.queueSize : WorkQueue WorkItem)
  pool : ∀ (b : Bench) policy parts, (∀ part ∈ Worker.needed, part ∈ Part.queue :: parts) →
    ∃ description, (b.start c.concurrency.toNat policy parts).2 =
      .pool c.concurrency.toNat description
  built : ∃ target, Target.parse c.target = .ok target ∧
    Orchestrator.build c true = .ok { config := c, target }
  runs : ∀ o, Orchestrator.build c true = .ok o → ∀ script deeds,
    (o.performAll script deeds).Unobstructed script

variable {c : Config}

theorem start_pool (h : c.Passes .concurrency) (b : Bench) (policy : FailurePolicy)
    {parts : List Part} (hparts : ∀ part ∈ Worker.needed, part ∈ Part.queue :: parts) :
    ∃ description, (b.start c.concurrency.toNat policy parts).2 =
      .pool c.concurrency.toNat description := by
  have hne : c.concurrency.toNat ≠ 0 := Nat.one_le_iff_ne_zero.1 h
  have hmissing : Worker.missing? (.queue :: parts) = none := by
    unfold Worker.missing?
    rw [List.find?_eq_none]
    intro part hpart
    have hmem : part ∈ Part.queue :: parts := hparts part hpart
    simp [List.mem_cons.1 hmem]
  unfold Bench.start
  rw [if_neg hne, hmissing]
  exact ⟨_, rfl⟩

theorem startable (h : c.validate = .ok ()) : c.Startable := by
  have hpasses := validate_eq_ok.1 h
  have hconcurrency : 1 ≤ c.concurrency.toNat := hpasses .concurrency
  have hmultiplier : 1 ≤ c.queueCapacityMultiplier.toNat := hpasses .multiplier
  have hmax : c.queueSize ≤ WorkQueue.maxCapacity := hpasses .capacity
  obtain ⟨target, htarget⟩ := hpasses .target
  have hroom : c.concurrency.toNat ≤ c.queueSize := Nat.le_mul_of_pos_right _ hmultiplier
  have hcapacity : c.queueCapacity.toNat = c.queueSize :=
    Orchestrator.toNat_queueCapacity (o := { config := c, target })
      (Nat.lt_of_le_of_lt hmax (by decide))
  have hbuild : Orchestrator.build c true = .ok { config := c, target } := by
    unfold Orchestrator.build
    rw [if_pos rfl, h, parsedTarget_eq_ok.2 htarget]
    rfl
  refine ⟨hcapacity, hroom, ?_, fun b policy parts => start_pool hconcurrency b policy,
    ⟨target, htarget, hbuild⟩, fun o ho script deeds => ?_⟩
  · have hne : ¬ c.queueCapacity = 0 := one_le_toNat.1 (by omega)
    unfold WorkQueue.new
    rw [if_neg hne, hcapacity, if_neg (Nat.not_lt.2 hmax)]
  · rw [hbuild] at ho
    cases ho
    exact Orchestrator.unobstructed_performAll h target script deeds

/-- A configuration is valid exactly if it passes every check, else validating reports the first one
that it does not pass; and nothing that a run of a valid configuration needs is ever refused. -/
theorem valid_iff_passes_and_startable (c : Config) :
    (c.validate = .ok () ↔ ∀ check, c.Passes check) ∧
    (∀ e, c.validate = .error e ↔
      ∃ check, c.firstFailure? = some check ∧ c.Reports check e) ∧
    (c.validate = .ok () → c.Startable) :=
  ⟨validate_eq_ok, fun _ => validate_eq_error, startable⟩

/-- The largest queue for three workers, and a product that is zero in 64 bits; the target of the
latter is none, which is checked last. -/
theorem startable_largest :
    let c : Config := {
      target := "[::1]:0", concurrency := 3, queueCapacityMultiplier := 768614336404564650 }
    let wide : Config := {
      target := "nowhere", concurrency := 4294967296, queueCapacityMultiplier := 4294967296 }
    c.validate = .ok () ∧ c.Startable ∧ wide.firstFailure? = some .capacity ∧
      wide.validate = .error (.queueCapacity ("concurrency 4294967296 x multiplier 4294967296 " ++
        "exceeds the maximum queue capacity 2305843009213693951")) := by
  intro c wide
  have hvalid : c.validate = .ok () := by decide +kernel
  have hfirst : wide.firstFailure? = some .capacity := by decide +kernel
  have hreport := ((valid_iff_passes_and_startable wide).2.1 _).2 ⟨.capacity, hfirst, .capacity⟩
  exact ⟨hvalid, (valid_iff_passes_and_startable c).2.2 hvalid, hfirst,
    hreport.trans (by decide +kernel)⟩

end Config

end LoadGenerator
