import LoadGenerator.Proofs.Orchestrator.Deeds
import LoadGenerator.Proofs.Run.Causes

/-!
# The course of an orchestrator

A run is cancelled through the context that it starts with, and leaves a fresh one behind
(`Ending.idle`). So a run that is cancelled has been asked to itself, or has a worker that has
failed (`Course.cause`), whoever has asked to cancel which run before.
-/

namespace LoadGenerator

/-- The invariant of a run looks at the configuration of an orchestrator and at its old calls. -/
theorem RunInv.congr {o o' : Orchestrator} {d : RunDriver} {e : Engine} (h : RunInv o d e)
    (hconfig : o'.config = o.config) (htarget : o'.target = o.target) (hlog : o'.log = o.log) :
    RunInv o' d e := by
  obtain ⟨config, target, past, handles, log, activity⟩ := o
  obtain ⟨config', target', past', handles', log', activity'⟩ := o'
  cases hconfig
  cases htarget
  cases hlog
  obtain ⟨hcrew, haccounts, hlinks, hcounts, hstages, hendings, hreport⟩ := h
  exact ⟨⟨hcrew.driver, hcrew.worker, hcrew.size, hcrew.policy, hcrew.target, hcrew.length⟩,
    ⟨haccounts.before, haccounts.sound, haccounts.capacity, haccounts.items, haccounts.outstanding,
      haccounts.buffered, haccounts.called⟩, hlinks, hcounts, hstages, hendings, hreport⟩

namespace Orchestrator

variable {script : Script} {o o' : Orchestrator} {deed : Deed}
  {made : List (Nat × CancelReason)} {reason : CancelReason}

theorem handled_le (h : ∀ i ∈ o.handles, i ≤ o.past.length) (handle : Nat) :
    o.handled handle ≤ o.past.length := by
  unfold handled
  cases hi : o.handles[handle]? with
  | none => exact Nat.le_refl _
  | some i => exact h i (List.mem_of_getElem? hi)

theorem le_of_request? (h : ∀ i ∈ o.handles, i ≤ o.past.length) {i : Nat}
    (hreq : o.request? deed = some (i, reason)) : i ≤ o.past.length := by
  cases deed with
  | cancel =>
    cases hreq
    exact Nat.le_refl _
  | cancelHandle handle =>
    cases hreq
    exact handled_le h handle
  | run | takeHandle | reply | settle | poll => cases hreq

/-! ### The course of an orchestrator -/

/-- What an orchestrator has come to after the requests that have been made: nobody has asked to
cancel a run to come but the next one, and the context of the next run knows of these requests only.
The present run is cancelled for no reason but one of those that it has been given itself or the
verdict of one of its workers. -/
structure Course (made : List (Nat × CancelReason)) (o : Orchestrator) : Prop where
  handles : ∀ i ∈ o.handles, i ≤ o.past.length
  requests : ∀ request ∈ made, request.1 ≤ o.past.length
  idle : ∀ context, o.activity = .idle context →
    context.reason = firstRequest o.past.length made
  running : ∀ e signals, o.activity = .running e signals → 0 < o.size ∧ (∃ d, RunInv o d e) ∧
    o.Caused (fun reason => (o.past.length, reason) ∈ made) e

namespace Course

theorem start (config : Config) (target : Target) : Course [] { config, target } where
  handles _ h := by cases h
  requests _ h := by cases h
  idle _ h := by cases h; rfl
  running _ _ h := by cases h

theorem conclude (h : Course made o) (context : Cancellation) (log : CallLog) (how : RunEnd) :
    Course made (o.conclude context log how) := by
  have hlength := length_past_conclude o context log how
  refine ⟨fun i hi => ?_, fun request hmem => ?_, fun context' hidle => ?_,
    fun e signals hrun => ?_⟩
  · rw [hlength]
    exact Nat.le_succ_of_le (h.handles i hi)
  · rw [hlength]
    exact Nat.le_succ_of_le (h.requests request hmem)
  · cases hidle
    rw [hlength, firstRequest_eq_none fun request hmem =>
      Nat.ne_of_lt (Nat.lt_succ_of_le (h.requests request hmem))]
  · cases hrun

theorem takeHandle (h : Course made o) : Course made o.takeHandle := by
  refine ⟨fun i hi => ?_, h.requests, h.idle, fun e signals hrun => ?_⟩
  · rcases List.mem_append.1 hi with hi | hi
    · exact h.handles i hi
    · exact Nat.le_of_eq (List.mem_singleton.1 hi)
  · obtain ⟨hsize, ⟨d, hinv⟩, hcaused⟩ := h.running e signals hrun
    exact ⟨hsize, ⟨d, hinv.congr rfl rfl rfl⟩, hcaused⟩

/-- Who asks to cancel a run that is over asks in vain. -/
theorem stale (h : Course made o) {i : Nat} (hi : i < o.past.length) (reason : CancelReason)
    {past : List PastRun} (hpast : past.length = o.past.length) :
    Course (made ++ [(i, reason)]) { o with past } := by
  refine ⟨fun j hj => ?_, fun request hmem => ?_, fun context hidle => ?_,
    fun e signals hrun => ?_⟩
  · exact (h.handles j hj).trans_eq hpast.symm
  · refine Nat.le_trans ?_ (Nat.le_of_eq hpast.symm)
    rcases List.mem_append.1 hmem with hmem | hmem
    · exact h.requests request hmem
    · rw [List.mem_singleton.1 hmem]
      exact Nat.le_of_lt hi
  · show context.reason = firstRequest past.length _
    rw [hpast, firstRequest_concat_of_ne made reason (Nat.ne_of_lt hi)]
    exact h.idle context hidle
  · obtain ⟨hsize, ⟨d, hinv⟩, hcaused⟩ := h.running e signals hrun
    refine ⟨hsize, ⟨d, hinv.congr rfl rfl rfl⟩, fun r hr => (hcaused r hr).imp_left fun hmem => ?_⟩
    show (past.length, r) ∈ _
    rw [hpast]
    exact List.mem_append_left _ hmem

theorem cancel (h : Course made o) (reason : CancelReason) :
    Course (made ++ [(o.past.length, reason)]) (o.cancel reason) := by
  have hrequests : ∀ request ∈ made ++ [(o.past.length, reason)], request.1 ≤ o.past.length := by
    intro request hmem
    rcases List.mem_append.1 hmem with hmem | hmem
    · exact h.requests request hmem
    · rw [List.mem_singleton.1 hmem]
  cases hact : o.activity with
  | idle context =>
    have hcancel : o.cancel reason = { o with activity := .idle (context.cancel reason) } := by
      rw [Orchestrator.cancel, hact]
    rw [hcancel]
    refine ⟨h.handles, hrequests, ?_, by rintro _ _ ⟨⟩⟩
    rintro _ ⟨⟩
    show _ = firstRequest o.past.length _
    rw [Cancellation.reason_cancel_eq, h.idle context hact, firstRequest_concat]
  | running e signals =>
    have hcancel : o.cancel reason =
        { o with activity := .running (e.react (fun _ => none) (.cancel reason)) signals } := by
      rw [Orchestrator.cancel, hact]
      rfl
    rw [hcancel]
    refine ⟨h.handles, hrequests, by rintro _ ⟨⟩, ?_⟩
    rintro _ _ ⟨⟩
    obtain ⟨hsize, ⟨d, hinv⟩, hcaused⟩ := h.running e signals hact
    have hmore : o.Caused (fun r => (o.past.length, r) ∈ made ++ [(o.past.length, reason)]) e :=
      fun r hr => (hcaused r hr).imp_left (List.mem_append_left _)
    obtain ⟨d', hinv'⟩ := hinv.react hsize (fun _ => none) (.cancel reason)
    refine ⟨hsize, ⟨d', hinv'.congr rfl rfl rfl⟩, hinv.caused_react hmore _ fun r hr => ?_⟩
    cases hr
    exact List.mem_append_right _ List.mem_cons_self

theorem turn (h : Course made o) (hturn : Turn script o deed o') :
    Course (made ++ (o.request? deed).toList) o' := by
  cases hturn with
  | rest hreq =>
    rw [hreq, Option.toList_none, List.append_nil]
    exact h
  | handle hreq =>
    rw [hreq, Option.toList_none, List.append_nil]
    exact h.takeHandle
  | stale hreq hi =>
    rw [hreq]
    exact h.stale hi _ (List.length_modify ..)
  | cancel hreq hi =>
    have hi' := Nat.le_antisymm (le_of_request? h.handles hreq) hi
    rw [hreq, hi']
    exact h.cancel _
  | refuse hreq | finish hreq =>
    rw [hreq, Option.toList_none, List.append_nil]
    exact h.conclude _ _ _
  | launch hreq hidle he =>
    rw [hreq, Option.toList_none, List.append_nil]
    obtain ⟨hsize, rfl⟩ := of_engine_eq_ok he
    refine ⟨h.handles, h.requests, fun context hact => (by cases hact), ?_⟩
    rintro e signals ⟨⟩
    refine ⟨hsize, ⟨_, (RunInv.launch o).congr rfl rfl rfl⟩, fun reason hr => .inl ?_⟩
    have hcurrent : o.launch.context = o.current := rfl
    rw [hcurrent, current, hidle] at hr
    exact mem_of_firstRequest ((h.idle _ hidle).symm.trans hr)
  | advance hreq hrun hcalm hend =>
    rw [hreq, Option.toList_none, List.append_nil]
    obtain ⟨hsize, ⟨d, hinv⟩, hcaused⟩ := h.running _ _ hrun
    obtain ⟨⟨d', hinv'⟩, hcaused'⟩ := hinv.caused_calmly hsize hcaused hcalm
    refine ⟨h.handles, h.requests, fun context hact => (by cases hact), ?_⟩
    rintro e signals ⟨⟩
    exact ⟨hsize, ⟨d', hinv'.congr rfl rfl rfl⟩, hcaused'⟩

theorem performAll (h : Course made o) (script : Script) (deeds : List Deed) :
    Course (made ++ Orchestrator.requests script o deeds) (o.performAll script deeds) := by
  induction deeds generalizing made o with
  | nil =>
    rw [Orchestrator.requests, List.append_nil]
    exact h
  | cons deed deeds ih =>
    rw [Orchestrator.requests, ← List.append_assoc]
    exact ih (h.turn (perform_turn script o deed))

end Course

/-! ### The end of a run -/

/-- What the deed that brings a run to its end leaves behind: the run cannot start, or its driver is
done. -/
inductive Ending (script : Script) (o : Orchestrator) (run : PastRun) : Orchestrator → Prop
  | refuse {error : Error} (hidle : o.activity = .idle run.context) (he : o.engine = .error error)
      (hhow : run.how = .failed error) :
      Ending script o run (o.conclude run.context o.log run.how)
  | finish {e e' : Engine} {signals : Bool} (hrun : o.activity = .running e signals)
      (hcalm : e.Calmly script e') (hend : runEnd? e' = some run.how)
      (hcontext : run.context = e'.context) :
      Ending script o run (o.conclude run.context e'.log run.how)

theorem ending_of_ended? {run : PastRun} (h : o.ended? script deed = some run) :
    Ending script o run (o.perform script deed) := by
  unfold ended? at h
  have hlength : o.past.length < (o.perform script deed).past.length :=
    (List.getElem?_eq_some_iff.1 h).1
  have hturn := perform_turn script o deed
  generalize o.perform script deed = o' at h hlength hturn ⊢
  cases hturn with
  | rest | handle | cancel | launch | advance => exact absurd hlength (Nat.lt_irrefl _)
  | stale => exact absurd (hlength.trans_eq (List.length_modify ..)) (Nat.lt_irrefl _)
  | refuse _ hidle he =>
    rw [getElem?_past_conclude] at h
    cases h
    exact .refuse hidle he rfl
  | finish _ hrun hcalm hend =>
    rw [getElem?_past_conclude] at h
    cases h
    exact .finish hrun hcalm hend rfl

theorem Ending.idle {run : PastRun} (h : Ending script o run o') : o'.activity = .idle {} := by
  cases h <;> rfl

/-- A run that cannot start has not been cancelled. -/
theorem isCancellation_of_engine {error : Error} (h : o.engine = .error error) :
    error.isCancellation = false := by
  unfold engine at h
  split at h
  · cases h
    rfl
  · cases h

/-- A run that ends with a cancellation has been asked to, or has a worker that has failed. -/
theorem Course.cause {run : PastRun} {error : Error} (h : Course made o)
    (hending : Ending script o run o') (hhow : run.how = .failed error)
    (hcancelled : error.isCancellation = true) : ∃ reason, error = .ofReason reason ∧
      ((o.past.length, reason) ∈ made ∨ o.FailedFast o'.log reason) := by
  cases hending with
  | refuse hidle he herror =>
    rw [hhow] at herror
    cases herror
    rw [isCancellation_of_engine he] at hcancelled
    cases hcancelled
  | finish hrun hcalm hend =>
    obtain ⟨hsize, ⟨d, hinv⟩, hcaused⟩ := h.running _ _ hrun
    obtain ⟨⟨d', hinv'⟩, hcaused'⟩ := hinv.caused_calmly hsize hcaused hcalm
    rw [hhow] at hend
    obtain ⟨reason, hreason, rfl⟩ := hinv'.stages.failed error (hinv'.runEnd?_eq_some.1 hend)
    exact ⟨reason, rfl, hcaused' reason hreason⟩

end Orchestrator

end LoadGenerator
