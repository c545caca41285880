import LoadGenerator.Proofs.Run.Replies

/-!
# A completed run counts every request once

When a run is completed nothing is outstanding, so it has made as many calls as there are requests
and every call was answered; its counts say how the calls were answered (`CompleteTally`). Which
reply a call gets is up to the transport alone, and a run only hands replies on; so two completed
runs whose calls get the same replies have the same counts (`completed_run`), whatever their pools,
their queues and the order of the answers.
-/

namespace LoadGenerator

/-! ### The end of a run -/

namespace RunInv

variable {o : Orchestrator} {d : RunDriver} {e : Engine}

theorem sum_shares_le (h : RunInv o d e) (hstart : d.stage ≠ .starting) (f : WorkerStats → Nat) :
    ((e.shares d.members).map f).sum ≤ sumWorkers (fun w => f w.stats) e.tasks := by
  obtain ⟨-, hlen, hmembers⟩ := h.crew.length.resolve_left fun hl => hstart hl.1
  have hdriver := h.crew.driver
  cases htasks : e.tasks with
  | nil =>
    rw [htasks] at hdriver
    cases hdriver
  | cons task rest =>
    rw [htasks, List.length_cons] at hlen
    have hrest : rest.length = o.size := Nat.succ.inj hlen
    have hworkers : d.members.filterMap e.worker? = rest.filterMap Task.worker? := by
      rw [hmembers, List.filterMap_map, ← hrest, ← filterMap_range_getElem? rest Task.worker?]
      congr 1
      funext i
      rw [Function.comp_apply, Engine.worker?_eq_bind, htasks, Nat.add_comm 1 i,
        List.getElem?_cons_succ]
    unfold Engine.shares
    rw [hworkers]
    refine Nat.le_trans (Engine.sum_finished_le f rest) ?_
    exact Nat.le_add_left _ _

end RunInv

theorem Summary.new_ok {counts : Snapshot} {processed : UInt64} (h : counts.processed = .ok processed)
    {target : String} {totalRequests concurrency seconds nanos : UInt64} {startedAt : Timestamp} :
    ∃ summary : Summary,
      Summary.new target totalRequests concurrency counts seconds nanos startedAt = .ok summary ∧
      summary.successes = counts.successes ∧ summary.failures = counts.failures ∧
      summary.transportErrors = counts.transportErrors := by
  unfold Summary.new
  rw [h]
  generalize Summary.secondsOf seconds nanos = elapsed
  by_cases hz : elapsed.isZero = true
  · simp only [if_pos hz, bind, Except.bind]
    exact ⟨_, rfl, rfl, rfl, rfl⟩
  · simp only [if_neg hz, bind, Except.bind]
    exact ⟨_, rfl, rfl, rfl, rfl⟩

/-- What a completed run reports: all calls that there had to be, each answered and counted. -/
structure CompleteTally (o : Orchestrator) (e : Engine) (counts : Snapshot)
    (shares : List WorkerStats) : Prop where
  calls : (e.log.since o.log).length = o.total
  targets : ∀ call ∈ e.log.since o.log, o.config.parsedTarget = .ok call.target
  answered : ∀ call ∈ e.log.since o.log, call.state.isAnswered = true
  successes : counts.successes.toNat = e.log.countSince o.log CallState.isSuccess
  failures : counts.failures.toNat = e.log.countSince o.log CallState.isFailure
  transportErrors : counts.transportErrors.toNat = e.log.countSince o.log CallState.isTransportError
  total : counts.successes.toNat + counts.failures.toNat = o.total
  processed : counts.processed = .ok o.config.totalRequests
  spread : ∃ spread, Spread.ofStats shares = .ok spread
  summary : ∀ seconds nanos startedAt, ∃ summary : Summary,
    o.summarize counts seconds nanos startedAt = .ok summary ∧
      summary.successes = counts.successes ∧ summary.failures = counts.failures ∧
        summary.transportErrors = counts.transportErrors

/-- When everything is done, every item has been in a call, and every call was answered. -/
theorem RunInv.completeTally {o : Orchestrator} {d : RunDriver} {e : Engine} {counts : Snapshot}
    {shares : List WorkerStats} (h : RunInv o d e) (hvalid : o.Valid)
    (hs : d.stage = .over (.completed counts shares)) : CompleteTally o e counts shares := by
  obtain ⟨rfl, rfl⟩ := h.report counts shares hs
  have hleft := h.stages.put (by rw [hs]; rfl)
  have hdone := h.stages.done (by rw [hs]; rfl)
  have hitems := h.accounts.items
  have hout := h.accounts.outstanding
  have hle := CallLog.countSince_le e.log o.log CallState.isAnswered
  have hcalls : (e.log.since o.log).length = o.total := by omega
  have hall : e.log.countSince o.log CallState.isAnswered = (e.log.since o.log).length := by omega
  have htotal : e.counter.snapshot.successes.toNat + e.counter.snapshot.failures.toNat = o.total := by
    have := h.counts.answered_eq.1
    show e.counter.successes.toNat + e.counter.failures.toNat = o.total
    omega
  have hprocessed : e.counter.snapshot.processed = .ok o.config.totalRequests := by
    obtain ⟨hadd, hsum⟩ := Count.add_ok (htotal ▸ total_lt o)
    unfold Snapshot.processed
    rw [hadd, UInt64.toNat_inj.1 (hsum.trans htotal)]
  refine ⟨hcalls, fun call hcall => ?_, ?_, h.counts.successes, h.counts.failures,
    h.counts.transportErrors, htotal, hprocessed, Spread.ofStats_ok fun x => ?_, ?_⟩
  · rw [h.accounts.called call.target (List.mem_map_of_mem hcall)]
    exact hvalid.target
  · exact fun call hcall => List.countP_eq_length.1 hall call hcall
  · -- the tallies of the workers count answers, and there are fewer of these than overflow takes
    have hshares := h.sum_shares_le (by rw [hs]; simp) fun s => (s.get x).toNat
    have hsees := h.counts.shares x
    have hcount := CallLog.countSince_le e.log o.log x.sees
    have hlt := total_lt o
    omega
  · exact fun seconds nanos startedAt => Summary.new_ok hprocessed

/-! ### Other runs -/

/-- The calls of a run of `o` get the replies that belong to their numbers in the run. -/
def Replies (o : Orchestrator) (replies : Nat → Reply) (n : Nat) (reply : Reply) : Prop :=
  reply = replies (n - o.log.size)

namespace CompleteTally

variable {o : Orchestrator} {e : Engine} {counts : Snapshot} {shares : List WorkerStats}
  {replies : Nat → Reply}

theorem states_eq (h : CompleteTally o e counts shares)
    (hob : Obeyed o.log (Replies o replies) e.log) :
    (e.log.since o.log).map Call.state =
      (List.range o.total).map fun i => .returned (replies (i + 1)) := by
  apply List.ext_getElem?
  intro i
  rw [List.getElem?_map, List.getElem?_map]
  rcases Nat.lt_or_ge i o.total with hi | hi
  · have hlt : i < (e.log.since o.log).length := by rw [h.calls]; exact hi
    have hget := List.getElem?_eq_getElem hlt
    generalize (e.log.since o.log)[i] = call at hget
    have hanswered := h.answered call (List.mem_of_getElem? hget)
    have hstate := CallLog.state?_of_getElem?_since hget
    rw [hget, List.getElem?_range hi, Option.map_some, Option.map_some]
    generalize call.state = s at hanswered hstate
    cases s with
    | waiting | replied | abandoned => cases hanswered
    | returned r =>
      have hr : r = replies _ := hob _ _ r (by omega) hstate rfl
      rw [hr]
      congr 3
      omega
  · have hnone : (e.log.since o.log)[i]? = none := List.getElem?_eq_none (by rw [h.calls]; exact hi)
    rw [hnone, List.getElem?_eq_none (by simpa using hi)]
    rfl

theorem countSince_eq (h : CompleteTally o e counts shares)
    (hob : Obeyed o.log (Replies o replies) e.log) (p : CallState → Bool) : e.log.countSince o.log p =
      ((List.range o.total).map fun i => CallState.returned (replies (i + 1))).countP p := by
  rw [← h.states_eq hob, List.countP_map]
  rfl

end CompleteTally

section Runs

variable {o : Orchestrator} {script : Script} {events : List Event}

theorem CompleteTally.of_runEnd? {counts : Snapshot} {shares : List WorkerStats} (h : o.Valid)
    (hend : Orchestrator.runEnd? (o.launch.play script events) = some (.completed counts shares)) :
    CompleteTally o (o.launch.play script events) counts shares := by
  obtain ⟨d, hinv⟩ := exists_runInv (Orchestrator.of_validate h.config).1 script events
  exact hinv.completeTally h (hinv.runEnd?_eq_some.1 hend)

end Runs

/-- A completed run has made exactly as many calls as there are requests, all to the target of its
configuration; all were answered, and its counts are those of the answers. Another completed run of
as many requests whose calls get the same replies has the same counts. -/
theorem completed_run {o : Orchestrator} (h : o.Valid) {script : Script} {events : List Event}
    {counts : Snapshot} {shares : List WorkerStats}
    (hend : Orchestrator.runEnd? (o.launch.play script events) = some (.completed counts shares)) :
    CompleteTally o (o.launch.play script events) counts shares ∧
    ∀ (replies : Nat → Reply), Answers o.log (Replies o replies) script events →
      ∀ (o' : Orchestrator) (script' : Script) (events' : List Event) (counts' : Snapshot)
        (shares' : List WorkerStats), o'.Valid → o'.total = o.total →
        Answers o'.log (Replies o' replies) script' events' →
        Orchestrator.runEnd? (o'.launch.play script' events') = some (.completed counts' shares') →
        counts' = counts := by
  have hsize := (Orchestrator.of_validate h.config).1
  have hmain := CompleteTally.of_runEnd? h hend
  refine ⟨hmain, fun replies ha o' script' events' counts' shares' h' htotal ha' hend' => ?_⟩
  have hsize' := (Orchestrator.of_validate h'.config).1
  have hother := CompleteTally.of_runEnd? h' hend'
  have hcount : ∀ p, (o'.launch.play script' events').log.countSince o'.log p =
      (o.launch.play script events).log.countSince o.log p := by
    intro p
    rw [hother.countSince_eq (obeyed_launch hsize' ha'),
      hmain.countSince_eq (obeyed_launch hsize ha), htotal]
  have hsuccesses := hother.successes.trans ((hcount _).trans hmain.successes.symm)
  have hfailures := hother.failures.trans ((hcount _).trans hmain.failures.symm)
  have herrors := hother.transportErrors.trans ((hcount _).trans hmain.transportErrors.symm)
  cases counts
  cases counts'
  rw [Snapshot.mk.injEq]
  exact ⟨UInt64.toNat_inj.1 hsuccesses, UInt64.toNat_inj.1 hfailures, UInt64.toNat_inj.1 herrors⟩

/-- The second of three calls is answered 500, the others 200: at once in one run, one after the
other and in another order in the other. -/
theorem completed_run_twice :
    let replies : Nat → Reply := fun n => if n = 2 then .response 500 else .response 200
    let atOnce : List Event := [.poll 0, .poll 0, .poll 0, .poll 1, .poll 1, .poll 1, .poll 1,
      .poll 0, .poll 0, .poll 2, .poll 2, .poll 0, .poll 0, .poll 1, .poll 2, .poll 0]
    let later : List Event := [.poll 0, .poll 0, .poll 0, .poll 1, .poll 2, .poll 0, .poll 0,
      .reply 2 (.response 500), .poll 2, .poll 2, .reply 3 (.response 200), .poll 2,
      .reply 1 (.response 200), .poll 1, .poll 0, .poll 0, .poll 1, .poll 2, .poll 0]
    let e := (Orchestrator.small .goOn).launch.play (fun n => some (replies n)) atOnce
    let e' := (Orchestrator.small .abort).launch.play (fun _ => none) later
    (Orchestrator.small .goOn).Valid ∧ ∃ counts counts' shares shares',
      Orchestrator.runEnd? e = some (.completed counts shares) ∧
      Orchestrator.runEnd? e' = some (.completed counts' shares') ∧
      CompleteTally (.small .goOn) e counts shares ∧ counts' = counts := by
  intro replies atOnce later e e'
  have hvalid := Orchestrator.valid_small .goOn
  have hend : Orchestrator.runEnd? e = some (.completed ⟨2, 1, 0⟩
      [⟨2, 1, 1, 0, some 0, some 0⟩, ⟨1, 1, 0, 0, some 0, some 0⟩]) := by decide +kernel
  have hend' : Orchestrator.runEnd? e' = some (.completed ⟨2, 1, 0⟩
      [⟨1, 1, 0, 0, some 0, some 0⟩, ⟨2, 1, 1, 0, some 0, some 0⟩]) := by decide +kernel
  have hanswers :
      Answers {} (Replies (.small .goOn) replies) (fun n => some (replies n)) atOnce := by
    refine ⟨fun n reply _ hr => (Option.some.inj hr).symm, fun n reply _ hmem => ?_⟩
    simp [atOnce] at hmem
  have hanswers' : Answers {} (Replies (.small .abort) replies) (fun _ => none) later := by
    refine ⟨fun n reply _ hr => (by cases hr), fun n reply _ hmem => ?_⟩
    simp only [later, List.mem_cons, Event.reply.injEq, reduceCtorEq, false_or, List.not_mem_nil,
      or_false] at hmem
    rcases hmem with ⟨rfl, rfl⟩ | ⟨rfl, rfl⟩ | ⟨rfl, rfl⟩ <;> rfl
  obtain ⟨htally, hsame⟩ := completed_run hvalid hend
  exact ⟨hvalid, _, _, _, _, hend, hend', htally,
    hsame replies hanswers _ _ _ _ _ (Orchestrator.valid_small .abort) rfl hanswers' hend'⟩

end LoadGenerator
