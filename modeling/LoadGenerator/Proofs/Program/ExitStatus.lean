import LoadGenerator.Program
import LoadGenerator.Proofs.Orchestrator.Deeds
import LoadGenerator.Proofs.Run.Completion

/-!
# What the exit status of the program tells

The program comes to one of four ends (`Fate`): it does not take its arguments, it cannot make a run
of them, its run completes, or its run is cancelled. Status 0 tells that the run has completed, and
only then anything is printed. Status 2 does not tell that the run was aborted, because arguments
that are not taken have the same one (`not_forall_aborted_of_status`).
-/

namespace LoadGenerator

/-- Some history of a run of the orchestrator ends it so. -/
def Orchestrator.CanEnd (o : Orchestrator) (how : RunEnd) : Prop :=
  ∃ script events, runEnd? (o.launch.play script events) = some how

namespace Orchestrator

variable {o : Orchestrator} {counts : Snapshot} {shares : List WorkerStats} {error : Error}

theorem canEnd_settle {script : Script} {how : RunEnd}
    (h : runEnd? (o.launch.settle script) = some how) : o.CanEnd how := by
  obtain ⟨events, -, hevents⟩ := Engine.calmly_settle script o.launch
  rw [hevents] at h
  exact ⟨script, events, h⟩

/-- The run that the program makes ends as its engine does. -/
theorem runOnce_eq {client : HttpClient} {how : RunEnd} (hvalid : o.Valid)
    (h : runEnd? (o.launch.settle (o.clientScript client)) = some how) :
    o.runOnce client = how := by
  unfold runOnce
  rw [start, engine_eq_launch hvalid.config]
  simp only [settle]
  rw [proceed_eq_conclude h]
  simp [endedSince, conclude]

/-- The counts of a completed run can be summarized, whatever the clock says. -/
theorem CanEnd.summarize (h : o.CanEnd (.completed counts shares)) (hvalid : o.Valid)
    (clock : Invocation.Clock) : ∃ summary : Summary,
      o.summarize counts clock.seconds clock.nanos clock.startedAt = .ok summary := by
  obtain ⟨script, events, hend⟩ := h
  have htally := CompleteTally.of_runEnd? hvalid hend
  obtain ⟨summary, hsummary, -⟩ := htally.summary clock.seconds clock.nanos clock.startedAt
  exact ⟨summary, hsummary⟩

theorem CanEnd.exists_reason (h : o.CanEnd (.failed error)) (hvalid : o.Valid) :
    ∃ reason, error = .ofReason reason := by
  obtain ⟨script, events, hend⟩ := h
  obtain ⟨d, hinv⟩ := exists_runInv (of_validate hvalid.config).1 script events
  obtain ⟨reason, -, herror⟩ := hinv.stages.failed error (hinv.runEnd?_eq_some.1 hend)
  exact ⟨reason, herror⟩

end Orchestrator

/-- The exit status of the program after its run was cancelled. -/
def CancelReason.exitStatus : CancelReason → Nat
  | .interrupted => 1
  | .transportFailure _ _ => 2

namespace Invocation

/-- The text that the program prints for a summary. -/
def printed (i : Invocation) (summary : Summary) : String :=
  (if i.json then summary.toPrettyJson else summary.display) ++ "\n"

section

variable {i : Invocation} {o : Orchestrator} {how : RunEnd} {clock : Clock}

theorem finish_completed {counts : Snapshot} {shares : List WorkerStats} {summary : Summary}
    (hhow : how = .completed counts shares)
    (h : o.summarize counts clock.seconds clock.nanos clock.startedAt = .ok summary) :
    i.finish o how clock = .ok (0, i.printed summary) := by
  unfold finish
  -- without its definition no attempt is made to compute the summary of an unknown run
  obtain ⟨summarize, hsummarize⟩ : ∃ f, f = o.summarize := ⟨_, rfl⟩
  rw [← hsummarize] at h ⊢
  subst hhow
  simp only [h, printed]

theorem finish_failed {reason : CancelReason} (hhow : how = .failed (.ofReason reason)) :
    i.finish o how clock = .ok (reason.exitStatus, "") := by
  subst hhow
  cases reason <;> rfl

end

/-- The run that arguments and files ask for, if there can be one. -/
def asked? (arguments : List String) (files : Files) (made : Except HttpClient.BuildFault Unit) :
    Option (Invocation × Orchestrator) :=
  match parse arguments with
  | .error _ => none
  | .ok i =>
    match i.orchestrator files made with
    | .error _ => none
    | .ok o => some (i, o)

variable {arguments : List String} {files : Files} {made : Except HttpClient.BuildFault Unit}
  {i : Invocation} {o : Orchestrator}

theorem asked?_eq_some : asked? arguments files made = some (i, o) ↔
    parse arguments = .ok i ∧ i.orchestrator files made = .ok o := by
  unfold asked?
  cases parse arguments with
  | error stop => simp
  | ok i' =>
    simp only [Except.ok.injEq]
    cases ho : i'.orchestrator files made with
    | error failure =>
      constructor
      · intro h
        cases h
      · rintro ⟨rfl, h⟩
        rw [ho] at h
        cases h
    | ok o' =>
      constructor
      · intro h
        cases h
        exact ⟨rfl, ho⟩
      · rintro ⟨rfl, h⟩
        rw [ho] at h
        cases h
        rfl

/-- There is an orchestrator if the configuration, the client and the orchestrator can be made. -/
theorem orchestrator_eq_ok : i.orchestrator files made = .ok o ↔
    ∃ config, i.prepare files = .ok config ∧ made = .ok () ∧
      Orchestrator.build config true = .ok o := by
  unfold orchestrator
  cases i.prepare files with
  | error failure => simp [bind, Except.bind]
  | ok config =>
    cases made with
    | error f => simp [bind, Except.bind, Except.mapError]
    | ok =>
      cases hbuild : Orchestrator.build config true with
      | error e => simp [bind, Except.bind, Except.mapError, hbuild]
      | ok o' => simp [bind, Except.bind, Except.mapError, hbuild]

theorem valid_of_orchestrator (h : i.orchestrator files made = .ok o) : o.Valid := by
  obtain ⟨config, -, -, hbuild⟩ := orchestrator_eq_ok.mp h
  exact (Orchestrator.valid_of_build hbuild).1

end Invocation

open Invocation

/-- What the program comes to, unless it is asked for help or for the version. -/
inductive Fate (arguments : List String) (files : Files) (run : Orchestrator → RunEnd)
    (clock : Clock) (made : Except HttpClient.BuildFault Unit) : Exit → Prop
  | malformed {stop : Stop} (hparse : parse arguments = .error stop) :
      Fate arguments files run clock made { status := 2, failure := some stop.message }
  | refused {i : Invocation} {failure : Failure} (hparse : parse arguments = .ok i)
      (hrefused : i.orchestrator files made = .error failure) :
      Fate arguments files run clock made { status := 1, failure := some failure.report }
  | completed {i : Invocation} {o : Orchestrator} {counts : Snapshot} {shares : List WorkerStats}
      {summary : Summary} (hasked : asked? arguments files made = some (i, o))
      (hrun : run o = .completed counts shares)
      (hsummary : o.summarize counts clock.seconds clock.nanos clock.startedAt = .ok summary) :
      Fate arguments files run clock made { status := 0, output := i.printed summary }
  | cancelled {i : Invocation} {o : Orchestrator} {reason : CancelReason}
      (hasked : asked? arguments files made = some (i, o))
      (hrun : run o = .failed (.ofReason reason)) :
      Fate arguments files run clock made { status := reason.exitStatus }

section

variable {arguments : List String} {files : Files} {run : Orchestrator → RunEnd} {clock : Clock}
  {made : Except HttpClient.BuildFault Unit}

theorem program_fate
    (hstop : ∀ stop, parse arguments = .error stop → stop.isRequest = false)
    (hrun : ∀ i o, asked? arguments files made = some (i, o) → o.CanEnd (run o)) :
    Fate arguments files run clock made (program arguments files run clock made) := by
  unfold program
  cases hparse : parse arguments with
  | error stop =>
    simp only [Exit.ofStop, hstop stop hparse]
    exact .malformed hparse
  | ok i =>
    cases ho : i.orchestrator files made with
    | error failure =>
      simp only [ho, bind, Except.bind, Exit.ofResult]
      exact .refused hparse ho
    | ok o =>
      have hasked := asked?_eq_some.2 ⟨hparse, ho⟩
      have hvalid := valid_of_orchestrator ho
      have hend := hrun i o hasked
      simp only [ho, bind, Except.bind]
      obtain ⟨how, hhow⟩ : ∃ how, run o = how := ⟨_, rfl⟩
      rw [hhow] at hend
      cases how with
      | completed counts shares =>
        obtain ⟨summary, hsummary⟩ := hend.summarize hvalid clock
        rw [finish_completed hhow hsummary]
        exact .completed hasked hhow hsummary
      | failed error =>
        obtain ⟨reason, rfl⟩ := hend.exists_reason hvalid
        rw [finish_failed hhow]
        exact .cancelled hasked hhow

/-- What an exit of the program tells about its run. -/
structure Tells (arguments : List String) (files : Files) (run : Orchestrator → RunEnd)
    (clock : Clock) (made : Except HttpClient.BuildFault Unit) (exit : Exit) : Prop where
  status : exit.status = 0 ∨ exit.status = 1 ∨ exit.status = 2
  completed : exit.status = 0 ↔ ∃ i o counts shares, asked? arguments files made = some (i, o) ∧
    run o = .completed counts shares
  summary : ∀ i o counts shares, asked? arguments files made = some (i, o) →
    run o = .completed counts shares → ∃ summary,
      o.summarize counts clock.seconds clock.nanos clock.startedAt = .ok summary ∧
        exit.output = i.printed summary
  silent : exit.status ≠ 0 → exit.output = ""
  failed : exit.status = 1 ↔
    (∃ i failure, parse arguments = .ok i ∧ i.orchestrator files made = .error failure) ∨
      ∃ i o, asked? arguments files made = some (i, o) ∧ run o = .failed .interrupted
  aborted : exit.status = 2 ↔ (∃ stop, parse arguments = .error stop) ∨
    ∃ i o target reason, asked? arguments files made = some (i, o) ∧
      run o = .failed (.aborted target reason)

theorem Fate.tells {exit : Exit} (h : Fate arguments files run clock made exit) :
    Tells arguments files run clock made exit := by
  cases h with
  | malformed hparse =>
    have hasked : asked? arguments files made = none := by simp only [asked?, hparse]
    exact ⟨by simp, by simp [hasked], by simp [hasked], by simp, by simp [hasked, hparse],
      by simp [hparse]⟩
  | refused hparse hrefused =>
    have hasked : asked? arguments files made = none := by simp only [asked?, hparse, hrefused]
    exact ⟨by simp, by simp [hasked], by simp [hasked], by simp, by simp [hparse, hrefused],
      by simp [hasked, hparse]⟩
  | completed hasked hrun hsummary =>
    obtain ⟨hparse, ho⟩ := asked?_eq_some.1 hasked
    refine ⟨by simp, by simp [hasked, hrun], ?_, by simp, by simp [hasked, hrun, hparse, ho],
      by simp [hasked, hrun, hparse]⟩
    intro i' o' counts' shares' hasked' hrun'
    rw [hasked] at hasked'
    cases hasked'
    rw [hrun] at hrun'
    cases hrun'
    exact ⟨_, hsummary, rfl⟩
  | @cancelled i o reason hasked hrun =>
    obtain ⟨hparse, ho⟩ := asked?_eq_some.1 hasked
    have hnot : ∀ i' o' counts shares, asked? arguments files made = some (i', o') →
        run o' ≠ .completed counts shares := by
      intro i' o' counts shares hasked' hrun'
      rw [hasked] at hasked'
      cases hasked'
      rw [hrun] at hrun'
      cases hrun'
    cases reason with
    | interrupted =>
      have hinterrupted : run o = .failed .interrupted := hrun
      exact ⟨.inr (.inl rfl), by simp [CancelReason.exitStatus, hasked, hrun],
        fun i' o' counts shares hasked' hrun' => absurd hrun' (hnot i' o' counts shares hasked'),
        fun _ => rfl, by simp [CancelReason.exitStatus, hasked, hinterrupted],
        by simp [CancelReason.exitStatus, hasked, hinterrupted, hparse]⟩
    | transportFailure target message =>
      have haborted : run o = .failed (.aborted target message) := hrun
      exact ⟨.inr (.inr rfl), by simp [CancelReason.exitStatus, hasked, hrun],
        fun i' o' counts shares hasked' hrun' => absurd hrun' (hnot i' o' counts shares hasked'),
        fun _ => rfl, by simp [CancelReason.exitStatus, hasked, haborted, hparse, ho],
        by simp [CancelReason.exitStatus, hasked, haborted]⟩

/-- Unless help or the version is asked for, the program exits with 0 exactly if its run completed,
with the summary printed and nothing else ever; with 1 if it can make no run or the run was
interrupted; and with 2 if the run was aborted or the arguments are not taken. -/
theorem exit_tells
    (hstop : ∀ stop, parse arguments = .error stop → stop.isRequest = false)
    (hrun : ∀ i o, asked? arguments files made = some (i, o) → o.CanEnd (run o)) :
    Tells arguments files run clock made (program arguments files run clock made) :=
  (program_fate hstop hrun).tells

end

/-- The first of three requests fails, and the run is aborted for it. -/
theorem exit_tells_aborted :
    let arguments := ["-t", "^:1", "-n", "3", "-c", "1", "--fail-fast"]
    let exit := program arguments (fun _ => .error .missing) Orchestrator.runOnce {}
    (∀ stop, parse arguments = .error stop → stop.isRequest = false) ∧
      (∀ i o, asked? arguments (fun _ => .error .missing) (.ok ()) = some (i, o) →
        o.CanEnd o.runOnce) ∧
      Tells arguments (fun _ => .error .missing) Orchestrator.runOnce {} (.ok ()) exit ∧
      exit.status = 2 ∧ exit.output = "" := by
  intro arguments exit
  let i : Invocation := {
    target := some "^:1", requests := some 3, concurrency := some 1, failFast := true }
  let o : Orchestrator := {
    config := { target := "^:1", totalRequests := 3, concurrency := 1, failurePolicy := .abort }
    target := ⟨"^", 1⟩ }
  have hparse : parse arguments = .ok i := by decide +kernel
  have hvalid : o.Valid := ⟨by decide +kernel, by decide +kernel⟩
  have ho : i.orchestrator (fun _ => .error .missing) = .ok o := by
    have hprepare : i.prepare (fun _ => .error .missing) = .ok o.config := rfl
    have hbuild : Orchestrator.build o.config true = .ok o := by
      unfold Orchestrator.build
      rw [if_pos rfl, hvalid.config, hvalid.target]
      rfl
    exact orchestrator_eq_ok.mpr ⟨o.config, hprepare, rfl, hbuild⟩
  have hasked : asked? arguments (fun _ => .error .missing) (.ok ()) = some (i, o) :=
    asked?_eq_some.2 ⟨hparse, ho⟩
  have hend : Orchestrator.runEnd? (o.launch.settle (o.clientScript .offline)) =
      some (.failed (.aborted "^:1" (HttpClient.get o.target).message)) := by decide +kernel
  have hstop : ∀ stop, parse arguments = .error stop → stop.isRequest = false := by
    intro stop hstop
    rw [hparse] at hstop
    cases hstop
  have hrun : ∀ i o, asked? arguments (fun _ => .error .missing) (.ok ()) = some (i, o) →
      o.CanEnd o.runOnce := by
    intro i' o' hasked'
    rw [hasked] at hasked'
    cases hasked'
    rw [Orchestrator.runOnce_eq hvalid hend]
    exact Orchestrator.canEnd_settle hend
  have htells : Tells arguments (fun _ => .error .missing) Orchestrator.runOnce {} (.ok ()) exit :=
    exit_tells hstop hrun
  have hstatus := htells.aborted.2
    (.inr ⟨i, o, _, _, hasked, Orchestrator.runOnce_eq hvalid hend⟩)
  refine ⟨hstop, hrun, htells, hstatus, htells.silent ?_⟩
  rw [hstatus]
  exact Nat.succ_ne_zero 1

/-- Status 2 does not tell that a run was aborted. -/
theorem not_forall_aborted_of_status :
    ¬ ∀ (arguments : List String) (files : Files) (run : Orchestrator → RunEnd) (clock : Clock)
        (made : Except HttpClient.BuildFault Unit),
      (∀ stop, parse arguments = .error stop → stop.isRequest = false) →
      (∀ i o, asked? arguments files made = some (i, o) → o.CanEnd (run o)) →
      ((program arguments files run clock made).status = 2 ↔
        ∃ i o target reason, asked? arguments files made = some (i, o) ∧
          run o = .failed (.aborted target reason)) := by
  intro h
  have hparse : parse ["--bogus"] = .error (.unknown "--bogus") := by decide +kernel
  have hasked : asked? ["--bogus"] (fun _ => .error .missing) (.ok ()) = none := by
    simp only [asked?, hparse]
  have hiff := h ["--bogus"] (fun _ => .error .missing) Orchestrator.runOnce {} (.ok ())
    (fun stop hstop => by rw [hparse] at hstop; cases hstop; rfl)
    (fun i o ho => by rw [hasked] at ho; cases ho)
  have hstatus :
      (program ["--bogus"] (fun _ => .error .missing) Orchestrator.runOnce {}).status = 2 := by
    simp only [program, hparse]
    rfl
  obtain ⟨i, o, target, reason, ho, -⟩ := hiff.1 hstatus
  rw [hasked] at ho
  cases ho

end LoadGenerator
