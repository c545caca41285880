import LoadGenerator.Proofs.Run.History

/-!
# What may be done with an orchestrator

A `Deed` is one thing that may be done with an orchestrator, or that happens to the run that is
going on: runs are awaited, so that none is started during another one. Every action is made of
deeds (`act_eq_performAll`), but between deeds a task may make a single step, so that a cancellation
may come at any moment of a run. `Turn` lists what a deed leads to (`perform_turn`), and `requests`
reads off who has been asked to cancel: runs are numbered in the order in which they end, and the
present run, or the next one, has the number of runs that are over.
-/

namespace LoadGenerator

namespace Orchestrator

inductive Deed where
  | run (signals : Bool)
  | takeHandle
  | cancel (reason : CancelReason)
  | cancelHandle (handle : Nat) (reason : CancelReason)
  | reply (reply : Reply) (whom : Addressee)
  | settle
  | poll (t : TaskId)
  deriving DecidableEq, Repr

variable {script : Script} {o o' : Orchestrator} {deed : Deed} {made : List (Nat × CancelReason)}

def perform (script : Script) (o : Orchestrator) : Deed → Orchestrator
  | .run signals => if o.isRunning then o else o.start signals
  | .takeHandle => o.takeHandle
  | .cancel reason => o.cancel reason
  | .cancelHandle handle reason => o.cancelContext (o.handled handle) reason
  | .reply reply whom => (o.receive script reply whom).1
  | .settle => o.settle script
  | .poll t =>
    match o.activity with
    | .idle _ => o
    | .running engine signals => o.proceed (engine.poll script t) signals

def performAll (script : Script) (o : Orchestrator) (deeds : List Deed) : Orchestrator :=
  deeds.foldl (perform script) o

/-- The run that a deed brings to its end. -/
def ended? (script : Script) (o : Orchestrator) (deed : Deed) : Option PastRun :=
  (o.perform script deed).past[o.past.length]?

/-- The number of the run that a deed asks to cancel, and the reason. -/
def request? (o : Orchestrator) : Deed → Option (Nat × CancelReason)
  | .cancel reason => some (o.past.length, reason)
  | .cancelHandle handle reason => some (o.handled handle, reason)
  | _ => none

def requests (script : Script) : Orchestrator → List Deed → List (Nat × CancelReason)
  | _, [] => []
  | o, deed :: deeds => (o.request? deed).toList ++ requests script (o.perform script deed) deeds

/-- The first reason for which the run with a number has been asked to cancel. -/
def firstRequest (run : Nat) (made : List (Nat × CancelReason)) : Option CancelReason :=
  (made.find? (·.1 = run)).map Prod.snd

theorem firstRequest_append (run : Nat) (made more : List (Nat × CancelReason)) :
    firstRequest run (made ++ more) = (firstRequest run made).or (firstRequest run more) := by
  unfold firstRequest
  rw [List.find?_append]
  cases made.find? (·.1 = run) <;> rfl

theorem mem_of_firstRequest {run : Nat} {made : List (Nat × CancelReason)} {reason : CancelReason}
    (h : firstRequest run made = some reason) : (run, reason) ∈ made := by
  obtain ⟨⟨i, r⟩, hfind, rfl⟩ := Option.map_eq_some_iff.1 h
  have hi : i = run := by simpa using List.find?_some hfind
  exact hi ▸ List.mem_of_find?_eq_some hfind

theorem firstRequest_eq_none {run : Nat} (h : ∀ request ∈ made, request.1 ≠ run) :
    firstRequest run made = none := by
  have hfind : made.find? (·.1 = run) = none := by
    rw [List.find?_eq_none]
    intro request hmem
    simpa using h request hmem
  rw [firstRequest, hfind]
  rfl

theorem firstRequest_concat (run : Nat) (made : List (Nat × CancelReason)) (reason : CancelReason) :
    firstRequest run (made ++ [(run, reason)]) = (firstRequest run made).or (some reason) := by
  have hlast : firstRequest run [(run, reason)] = some reason := by
    rw [firstRequest, List.find?_cons_of_pos (by simp)]
    rfl
  rw [firstRequest_append, hlast]

theorem firstRequest_concat_of_ne {run i : Nat} (made : List (Nat × CancelReason))
    (reason : CancelReason) (h : i ≠ run) :
    firstRequest run (made ++ [(i, reason)]) = firstRequest run made := by
  have hlast : firstRequest run [(i, reason)] = none :=
    firstRequest_eq_none fun request hmem => by
      rw [List.mem_singleton.1 hmem]
      exact h
  rw [firstRequest_append, hlast, Option.or_none]

/-! ### Actions -/

/-- An interrupt is a cancellation after the tasks have run. -/
theorem interrupt_eq_performAll (script : Script) (o : Orchestrator) :
    ∃ deeds, o.interrupt script = o.performAll script deeds := by
  unfold interrupt
  split
  · simp only
    split
    · exact ⟨[.settle, .cancel .interrupted], rfl⟩
    · exact ⟨[.settle], rfl⟩
  · exact ⟨[], rfl⟩

/-- Whatever is done with an orchestrator whose runs are awaited is made of deeds. -/
theorem act_eq_performAll (script : Script) (o : Orchestrator) (action : Action)
    (h : ∀ signals, action = .run signals → o.isRunning = false) :
    ∃ deeds, (o.act script action).1 = o.performAll script deeds := by
  cases action with
  | run signals =>
    refine ⟨[.run signals], ?_⟩
    have hidle := h signals rfl
    show o.start signals = if o.isRunning then o else o.start signals
    rw [hidle, if_neg Bool.false_ne_true]
  | interrupt => exact interrupt_eq_performAll script o
  | takeHandle => exact ⟨[.takeHandle], rfl⟩
  | cancel reason => exact ⟨[.cancel reason], rfl⟩
  | cancelHandle handle reason => exact ⟨[.cancelHandle handle reason], rfl⟩
  | reply reply whom => exact ⟨[.reply reply whom], rfl⟩
  | look => exact ⟨[], rfl⟩

/-! ### Turns -/

/-- What a deed leads to. -/
inductive Turn (script : Script) (o : Orchestrator) (deed : Deed) : Orchestrator → Prop
  | rest (hreq : o.request? deed = none) : Turn script o deed o
  | handle (hreq : o.request? deed = none) : Turn script o deed o.takeHandle
  | stale {i : Nat} {reason : CancelReason} (hreq : o.request? deed = some (i, reason))
      (hi : i < o.past.length) :
      Turn script o deed { o with
        past := o.past.modify i fun run => { run with context := run.context.cancel reason } }
  | cancel {i : Nat} {reason : CancelReason} (hreq : o.request? deed = some (i, reason))
      (hi : o.past.length ≤ i) : Turn script o deed (o.cancel reason)
  | refuse {context : Cancellation} {error : Error} (hreq : o.request? deed = none)
      (hidle : o.activity = .idle context) (he : o.engine = .error error) :
      Turn script o deed (o.conclude context o.log (.failed error))
  | launch {context : Cancellation} {e : Engine} {signals : Bool} (hreq : o.request? deed = none)
      (hidle : o.activity = .idle context) (he : o.engine = .ok e) :
      Turn script o deed { o with activity := .running e signals }
  | advance {e e' : Engine} {signals : Bool} (hreq : o.request? deed = none)
      (hrun : o.activity = .running e signals) (hcalm : e.Calmly script e')
      (hend : runEnd? e' = none) : Turn script o deed { o with activity := .running e' signals }
  | finish {e e' : Engine} {signals : Bool} {how : RunEnd} (hreq : o.request? deed = none)
      (hrun : o.activity = .running e signals) (hcalm : e.Calmly script e')
      (hend : runEnd? e' = some how) : Turn script o deed (o.conclude e'.context e'.log how)

theorem proceed_turn {e e' : Engine} {signals : Bool} (hreq : o.request? deed = none)
    (hrun : o.activity = .running e signals) (hcalm : e.Calmly script e') :
    Turn script o deed (o.proceed e' signals) := by
  unfold proceed
  split
  · exact .finish hreq hrun hcalm ‹_›
  · exact .advance hreq hrun hcalm ‹_›

theorem start_turn {context : Cancellation} (hreq : o.request? deed = none)
    (hidle : o.activity = .idle context) (signals : Bool) :
    Turn script o deed (o.start signals) := by
  have hcurrent : o.current = context := by rw [current, hidle]
  unfold start
  split
  · rw [hcurrent]
    exact .refuse hreq hidle ‹_›
  · exact .launch hreq hidle ‹_›

theorem cancelContext_turn {i : Nat} {reason : CancelReason}
    (hreq : o.request? deed = some (i, reason)) :
    Turn script o deed (o.cancelContext i reason) := by
  unfold cancelContext
  split
  · exact .stale hreq ‹_›
  · exact .cancel hreq (Nat.le_of_not_lt ‹_›)

theorem perform_turn (script : Script) (o : Orchestrator) (deed : Deed) :
    Turn script o deed (o.perform script deed) := by
  cases deed with
  | run signals =>
    unfold perform isRunning
    cases hact : o.activity with
    | idle context => exact start_turn rfl hact signals
    | running => exact .rest rfl
  | takeHandle => exact .handle rfl
  | cancel reason => exact .cancel rfl (Nat.le_refl _)
  | cancelHandle handle reason => exact cancelContext_turn rfl
  | reply reply whom =>
    unfold perform receive
    cases hact : o.activity with
    | idle => exact .rest rfl
    | running e signals => exact proceed_turn rfl hact (Engine.calmly_receive script e reply whom)
  | settle =>
    unfold perform settle
    cases hact : o.activity with
    | idle => exact .rest rfl
    | running e signals => exact proceed_turn rfl hact (Engine.calmly_settle script e)
  | poll t =>
    unfold perform
    cases hact : o.activity with
    | idle => exact .rest rfl
    | running e signals =>
      have hpoll : e.Calmly script (e.react script (.poll t)) :=
        Engine.calmly_react script e fun _ he => by cases he
      exact proceed_turn rfl hact hpoll

/-! ### Runs that are over, and handles -/

theorem getElem?_past_conclude (o : Orchestrator) (context : Cancellation) (log : CallLog)
    (how : RunEnd) : (o.conclude context log how).past[o.past.length]? = some ⟨context, how⟩ :=
  List.getElem?_concat_length

theorem length_past_conclude (o : Orchestrator) (context : Cancellation) (log : CallLog)
    (how : RunEnd) : (o.conclude context log how).past.length = o.past.length + 1 :=
  List.length_append

theorem proceed_eq_conclude {e : Engine} {signals : Bool} {how : RunEnd}
    (h : runEnd? e = some how) : o.proceed e signals = o.conclude e.context e.log how := by
  simp only [proceed, h]

theorem Turn.past_le (h : Turn script o deed o') : o.past.length ≤ o'.past.length := by
  cases h with
  | rest | handle | cancel | launch | advance => exact Nat.le_refl _
  | stale => exact Nat.le_of_eq (List.length_modify ..).symm
  | refuse | finish =>
    rw [length_past_conclude]
    exact Nat.le_succ _

theorem past_le_performAll (script : Script) (o : Orchestrator) (deeds : List Deed) :
    o.past.length ≤ (o.performAll script deeds).past.length := by
  induction deeds generalizing o with
  | nil => exact Nat.le_refl _
  | cons deed deeds ih => exact (perform_turn script o deed).past_le.trans (ih _)

theorem Turn.prefix_handles (h : Turn script o deed o') : o.handles <+: o'.handles := by
  cases h with
  | handle => exact List.prefix_append _ _
  | rest | stale | cancel | refuse | launch | advance | finish => exact List.prefix_rfl

/-- A handle belongs for ever to the run that goes on or comes next when it is taken. -/
theorem handled_takeHandle (script : Script) (o : Orchestrator) (deeds : List Deed) :
    ((o.perform script .takeHandle).performAll script deeds).handled o.handles.length =
      o.past.length := by
  have hprefix : (o.perform script .takeHandle).handles <+:
      ((o.perform script .takeHandle).performAll script deeds).handles := by
    generalize o.perform script .takeHandle = o'
    induction deeds generalizing o' with
    | nil => exact List.prefix_rfl
    | cons deed deeds ih => exact (perform_turn script o' deed).prefix_handles.trans (ih _)
  obtain ⟨rest, hrest⟩ := hprefix
  have hlast : (o.perform script .takeHandle).handles[o.handles.length]? = some o.past.length :=
    List.getElem?_concat_length
  rw [handled, ← hrest, List.getElem?_append_left (List.getElem?_eq_some_iff.1 hlast).1, hlast]
  rfl

end Orchestrator

end LoadGenerator
