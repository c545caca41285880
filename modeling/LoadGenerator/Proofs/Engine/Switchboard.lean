import LoadGenerator.Proofs.Engine.Notices
import LoadGenerator.Proofs.Engine.Tasks

/-!
# An engine in which tasks are told

An engine looks at its state to find out which tasks to call back. A `Switchboard` is an engine in
which nobody looks: a task that has to wait says what for, and sleeps until it is told. A slot, the
turn, an item, a reply and the end of a worker are notices themselves; for the last item, for the
closing of the queue and for a cancellation a task is entered in a list, and told by being struck
off or marked there. In its own steps too a task looks again only at what it has been told of. Those
who have been told are called back (`callBack`), and nobody else.

A step of a task comes to the same in both (`step_mirrors`), and nobody else is told of anything but
what is the case.
-/

namespace LoadGenerator

open Contexts (Watch)
open WorkQueue (Notifier)

/-- An engine, and who waits in it for which notice. -/
structure Switchboard where
  engine : Engine
  /-- those who wait to be told that everything is done -/
  joiners : List TaskId := []
  /-- those who wait to be told that the queue closes -/
  listeners : List TaskId := []
  /-- those who wait to be told that the run has been cancelled -/
  watch : Watch := {}

namespace Switchboard

/-! ### Steps -/

/-- The queue, and who waits for a notice from it. -/
def notifier (s : Switchboard) : Notifier WorkItem :=
  ⟨s.engine.queue, s.joiners, s.listeners⟩

/-- The switchboard with another queue and others who wait. -/
def use (s : Switchboard) (n : Notifier WorkItem) : Switchboard :=
  { s with
    engine := { s.engine with queue := n.queue }
    joiners := n.joiners
    listeners := n.listeners }

def setTask (s : Switchboard) (t : TaskId) (task : Task) : Switchboard :=
  { s with engine := s.engine.setTask t task }

/-- A worker drops everything, and nothing that it waits for is told to it any more. -/
def dropWorker (s : Switchboard) (t : TaskId) (w : Worker) : Switchboard :=
  let n := match w.phase with
    | .seeking => s.notifier.leave t
    | _ => s.notifier
  { engine := s.engine.dropWorker t w
    joiners := n.joiners
    listeners := n.listeners
    watch := s.watch.forget t }

/-- A worker waits for a cancellation and for the next item at the same time. -/
def seek (script : Script) (s : Switchboard) (t : TaskId) (w : Worker) : Switchboard × Bool :=
  match s.watch.attempt t 0 with
  | (watch, some _) =>
    ((({ s with watch }).use (s.notifier.leave t)).setTask t (.worker (w.finish .finished)), false)
  | (watch, none) =>
    match s.notifier.get t with
    | (n, none) => (({ s with watch }).use n, false)
    | (n, some (.got (some item))) =>
      let s := ({ s with watch := watch.forget t }).use n
      let call := s.engine.log.size + 1
      let log := s.engine.log.startWith item.target (script call)
      (({ s with engine := { s.engine with log } }).setTask t
        (.worker { w with phase := .calling call }), true)
    | (n, some _) =>
      ((({ s with watch := watch.forget t }).use n).setTask t (.worker (w.finish .finished)), false)

/-- A worker takes the reply to its call. If it cancels the run, it tells those who wait for that,
and if its item was the last one, those who wait for that. -/
def takeReply (s : Switchboard) (t : TaskId) (w : Worker) (call : Nat) (reply : Reply) :
    Switchboard × Bool :=
  let (engine, more) := s.engine.takeReply t w call reply
  if reply.outcome?.isSome then
    ({ s with
        engine
        joiners := s.notifier.markDone.joiners
        watch := ((s.engine.verdict? w call reply).map (s.watch.cancel 0)).getD s.watch }, more)
  else ({ s with engine }, more)

def stepWorker (script : Script) (s : Switchboard) (t : TaskId) (w : Worker) : Switchboard × Bool :=
  if w.hasEnded then (s, false)
  else if w.aborted then (s.dropWorker t w, false)
  else
    match w.phase with
    | .seeking => s.seek script t w.begun
    | .calling call =>
      match s.engine.log.reply? call with
      | none => (s, false)
      | some reply => s.takeReply t w call reply
    | .ended _ => (s, false)

/-- A producer waits for slots only. -/
def stepProducer (s : Switchboard) (t : TaskId) (p : Producer) : Switchboard × Bool :=
  let (engine, more) := s.engine.stepProducer t p
  ({ s with engine }, more)

def stepJoiner (s : Switchboard) (t : TaskId) (done : Bool) : Switchboard × Bool :=
  if done then (s, false)
  else
    match s.notifier.join t with
    | (n, some _) => ((s.use n).setTask t (.joiner true), false)
    | (n, none) => (s.use n, false)

/-- The queue tells those who listen that it closes. -/
def stepShutdown (s : Switchboard) (t : TaskId) (x : Shutdown) : Switchboard × Bool :=
  let (engine, more) := s.engine.stepShutdown t x
  if x.done || x.closed then ({ s with engine }, more)
  else ({ s with engine, listeners := s.notifier.close.listeners }, more)

/-- The driver gives up, and nothing that it waits for is told to it any more. -/
def giveUp (s : Switchboard) (t : TaskId) (d : RunDriver) (error : Error) : Switchboard where
  engine := s.engine.giveUp t d error
  joiners := (s.notifier.leave t).close.joiners
  listeners := (s.notifier.leave t).close.listeners
  watch := s.watch.forget t

def submit (s : Switchboard) (t : TaskId) (d : RunDriver) : Switchboard × Bool :=
  match d.source.next with
  | (none, _) => (s.setTask t (.driver { d with stage := .draining }), true)
  | (some item, source) =>
    match s.engine.queue.put t item with
    | (queue, .waiting) => ({ s with engine := { s.engine with queue } }, false)
    | (queue, .done (.error fault)) =>
      (({ s with engine := { s.engine with queue } }).giveUp t d (.ofQueueFault fault), false)
    | (queue, .done (.ok ())) =>
      (({ s with engine := { s.engine with queue } }).setTask t (.driver { d with source }), true)

/-- Until the queue is drained, the driver waits for a cancellation at the same time. -/
def stepDriver (s : Switchboard) (t : TaskId) (d : RunDriver) : Switchboard × Bool :=
  match d.stage with
  | .submitting =>
    match s.watch.attempt t 0 with
    | (watch, some reason) => (({ s with watch }).giveUp t d (.ofReason reason), false)
    | (watch, none) => ({ s with watch }).submit t d
  | .draining =>
    match s.watch.attempt t 0 with
    | (watch, some reason) => (({ s with watch }).giveUp t d (.ofReason reason), false)
    | (watch, none) =>
      match s.notifier.join t with
      | (n, some _) =>
        ((({ s with watch := watch.forget t }).use n).setTask t
          (.driver { d with stage := .closing }), true)
      | (n, none) => (({ s with watch }).use n, false)
  | .closing => ((s.use s.notifier.close).setTask t (.driver { d with stage := .stopping }), true)
  | _ =>
    let (engine, more) := s.engine.stepDriver t d
    ({ s with engine }, more)

/-- One step of a task, and whether it may get further. -/
def step (script : Script) (s : Switchboard) (t : TaskId) : Switchboard × Bool :=
  match s.engine.tasks[t]? with
  | none => (s, false)
  | some (.worker w) => s.stepWorker script t w
  | some (.producer p) => s.stepProducer t p
  | some (.joiner done) => s.stepJoiner t done
  | some (.shutdown x) => s.stepShutdown t x
  | some (.driver d) => s.stepDriver t d

/-! ### Who is called back -/

/-- Whether a task does not sleep, or has been told of something that it waits for elsewhere than at
the queue. -/
def hasNotice (s : Switchboard) (t : TaskId) : Task → Bool
  | .worker w =>
    match w.phase with
    | .seeking => w.aborted || !decide (s.watch.Sleeps t)
    | .calling call => w.aborted || (s.engine.log.reply? call).isSome
    | .ended _ => false
  | .producer _ => false
  | .joiner done => !done && !s.joiners.contains t
  | .shutdown x => x.closed && !x.done && s.engine.allEnded x.members
  | .driver d =>
    match d.stage with
    | .submitting => !decide (s.watch.Sleeps t)
    | .draining => !decide (s.watch.Sleeps t) || !s.joiners.contains t
    | .stopping => s.engine.allEnded d.members
    | _ => false

def called (s : Switchboard) : List TaskId :=
  s.notifier.told ++
    s.engine.tasks.zipIdx.filterMap fun (task, t) => if s.hasNotice t task then some t else none

/-! ### In tune -/

variable {script : Script} {s : Switchboard} {t u : TaskId} {w v : Worker} {d : RunDriver}
  {watch : Watch} {c : Cancellation}

/-- No notice has been missed, and the watch is that of the context. -/
structure InTune (s : Switchboard) : Prop where
  notifier : s.notifier.Tuned
  watch : s.watch.Informed
  context : s.watch.contexts = ⟨[s.engine.context], [0]⟩

/-- A watch that `t` leaves behind: whoever else has slept at it sleeps on, unless there has been a
cancellation. -/
structure Watched (s : Switchboard) (t : TaskId) (watch : Watch) (c : Cancellation) : Prop where
  informed : watch.Informed
  context : watch.contexts = ⟨[c], [0]⟩
  sleeping : ∀ u, u ≠ t → s.watch.Sleeps u → watch.Sleeps u ∨ c.isCancelled = true

theorem channelOf_eq_zero (h : watch.contexts = ⟨[c], [0]⟩) : watch.channelOf 0 = 0 := by
  have hmembers : watch.members = [0] := congrArg Contexts.members h
  rw [Watch.channelOf, hmembers]
  rfl

theorem reason_channel (h : watch.contexts = ⟨[c], [0]⟩) : (watch.channel 0).reason = c.reason := by
  have hreason := Watch.reason_contexts watch 0
  rw [channelOf_eq_zero h, h] at hreason
  exact hreason.symm

namespace InTune

theorem watched (h : s.InTune) (t : TaskId) : s.Watched t s.watch s.engine.context :=
  ⟨h.watch, h.context, fun _ _ => .inl⟩

theorem watched_forget (h : s.InTune) (t : TaskId) :
    s.Watched t (s.watch.forget t) s.engine.context :=
  ⟨h.watch.forget t, h.context, fun _ hne hs => .inl (Watch.sleeps_forget hs hne)⟩

theorem watched_cancel (h : s.InTune) (t : TaskId) (reason : CancelReason) :
    s.Watched t (s.watch.cancel 0 reason) (s.engine.context.cancel reason) := by
  refine ⟨h.watch.cancel 0 reason, ?_, fun _ _ _ => .inr (Cancellation.isCancelled_cancel _ _)⟩
  rw [Watch.contexts_cancel h.watch, h.context]
  rfl

/-- To look at the watch is to look at the context, and whoever sees nothing falls asleep. -/
theorem attempt (h : s.InTune) (t : TaskId) :
    s.Watched t (s.watch.attempt t 0).1 s.engine.context ∧
      (s.watch.attempt t 0).2 = s.engine.context.reason ∧
      ((s.watch.attempt t 0).2 = none → (s.watch.attempt t 0).1.Sleeps t) := by
  obtain ⟨hinformed, hcontexts, hreason⟩ := h.watch.attempt t 0
  have hchannel := channelOf_eq_zero h.context
  rw [hchannel, reason_channel h.context] at hreason
  refine ⟨⟨hinformed, hcontexts.trans h.context, fun u hne hs => ?_⟩, hreason, fun hnone => ?_⟩
  · exact .inl (Watch.sleeps_attempt hs hne 0)
  · exact Watch.sleeps_attempt_self h.watch hchannel hnone

theorem not_isCancelled (h : s.InTune) (hs : s.watch.Sleeps t) :
    s.engine.context.isCancelled = false := by
  have hreason := Watch.reason_eq_none_of_sleeps h.watch hs
  rw [reason_channel h.context] at hreason
  rw [Cancellation.isCancelled, hreason]
  rfl

theorem not_mem_joiners (h : s.InTune) (hdrained : s.engine.queue.drained = true) :
    t ∉ s.joiners := by
  intro ht
  have hnot : s.engine.queue.drained = false := h.notifier.joiners (List.ne_nil_of_mem ht)
  rw [hdrained] at hnot
  cases hnot

/-- To join is to find the queue drained or to wait for that. -/
theorem join (h : s.InTune) (t : TaskId) : ∃ joiners listeners b,
    s.notifier.join t = (⟨s.engine.queue, joiners, listeners⟩, b) ∧
      b.isSome = s.engine.queue.drained ∧
      s.notifier.Dealing t ⟨s.engine.queue, joiners, listeners⟩ ∧ (b = none → t ∈ joiners) := by
  obtain ⟨hqueue, hdrained⟩ := h.notifier.join_eq t
  have hdealing := h.notifier.join t
  have hjoins := Notifier.Tuned.mem_joiners_join (n := s.notifier) (t := t)
  rcases hjoin : s.notifier.join t with ⟨⟨queue, joiners, listeners⟩, b⟩
  rw [hjoin] at hqueue hdrained hdealing hjoins
  have hdone : b.isSome = s.engine.queue.drained := hdrained
  obtain rfl : queue = s.engine.queue := hqueue
  exact ⟨joiners, listeners, b, rfl, hdone, hdealing, hjoins⟩

end InTune

theorem Watched.forget (h : s.Watched t watch c) : s.Watched t (watch.forget t) c :=
  ⟨h.informed.forget t, h.context, fun u hne hs =>
    (h.sleeping u hne hs).imp_left fun hs => Watch.sleeps_forget hs hne⟩

/-! ### Steps come to the same -/

/-- What a step of `t` comes to is what the same step of the engine comes to. If the task cannot get
further, it has been told of nothing but what is the case, nor has anybody else. -/
structure Mirrors (s : Switchboard) (t : TaskId) (r : Switchboard × Bool) (result : Engine × Bool) :
    Prop where
  engine : r.1.engine = result.1
  more : r.2 = result.2
  notifier : s.notifier.Dealing t r.1.notifier
  watch : s.Watched t r.1.watch r.1.engine.context
  stuck : r.2 = false → ∀ task, r.1.engine.tasks[t]? = some task →
    r.1.hasNotice t task = true → r.1.engine.isEnabled task = true

theorem Mirrors.inTune {r : Switchboard × Bool} {result : Engine × Bool}
    (h : s.Mirrors t r result) : r.1.InTune :=
  ⟨h.notifier.tuned, h.watch.informed, h.watch.context⟩

/-- A task that has been replaced by one that waits for nothing has been told of nothing. -/
theorem eq_of_set {tasks : List Task} {task task' : Task}
    (htasks : s.engine.tasks = tasks.set t task') (hnone : s.hasNotice t task' = false)
    (ht : s.engine.tasks[t]? = some task) (hnotice : s.hasNotice t task = true) :
    s.engine.isEnabled task = true := by
  rw [htasks] at ht
  rw [eq_of_getElem?_set ht, hnone] at hnotice
  cases hnotice

theorem mirrors_seek (h : s.InTune) (ht : s.engine.tasks[t]? = some (.worker v))
    (hput : t ∉ s.engine.queue.putLine) (hv : v.phase = .seeking) (ha : v.aborted = false)
    (w : Worker) : s.Mirrors t (s.seek script t w) (s.engine.seek script t w) := by
  obtain ⟨hwatched, hreason, hsleeps⟩ := h.attempt t
  unfold seek Engine.seek
  rcases hlook : s.watch.attempt t 0 with ⟨watch, _ | reason⟩
  all_goals
    rw [hlook] at hwatched hreason hsleeps
    rw [Cancellation.isCancelled, ← hreason]
  · have htried := h.notifier.tried_get t
    have hdealing := h.notifier.get t
    rcases hget : s.notifier.get t with ⟨n, b⟩
    rw [hget] at htried hdealing
    cases htried with
    | getWaits hq =>
      have hq : s.engine.queue.get t = (n.queue, .waiting) := hq
      rw [hq]
      refine ⟨rfl, rfl, hdealing, hwatched, fun _ task htask hnotice => ?_⟩
      have htask : s.engine.tasks[t]? = some task := htask
      rw [ht] at htask
      cases htask
      simp [hasNotice, hv, ha, use, hsleeps rfl] at hnotice
    | @getDone _ result hq =>
      have hq : s.engine.queue.get t = (n.queue, .done result) := hq
      rw [hq]
      cases result with
      | none => exact ⟨rfl, rfl, hdealing, hwatched.forget, fun _ _ => eq_of_set rfl rfl⟩
      | some item => exact ⟨rfl, rfl, hdealing, hwatched.forget, fun hr => by cases hr⟩
  · exact ⟨rfl, rfl, h.notifier.leave hput, hwatched, fun _ _ => eq_of_set rfl rfl⟩

theorem mirrors_dropWorker (h : s.InTune) (hput : t ∉ s.engine.queue.putLine)
    (hlive : w.hasEnded = false) :
    s.Mirrors t (s.dropWorker t w, false) (s.engine.dropWorker t w, false) := by
  unfold dropWorker Engine.dropWorker
  cases hw : w.phase with
  | seeking =>
    exact ⟨rfl, rfl, h.notifier.leave hput, h.watched_forget t, fun _ _ => eq_of_set rfl rfl⟩
  | calling call =>
    exact ⟨rfl, rfl, h.notifier.refl t, h.watched_forget t, fun _ _ => eq_of_set rfl rfl⟩
  | ended how =>
    rw [Worker.hasEnded, hw] at hlive
    cases hlive

theorem mirrors_takeReply (h : s.InTune) (w : Worker) (call : Nat) (reply : Reply) :
    s.Mirrors t (s.takeReply t w call reply) (s.engine.takeReply t w call reply) := by
  unfold takeReply
  cases ho : reply.outcome? with
  | none =>
    have hlost : s.engine.takeReply t w call reply =
        (({ s.engine with log := s.engine.log.set call (.returned reply) }).setTask t
          (.worker (w.finish .panicked)), false) := by
      unfold Engine.takeReply
      rw [ho]
    rw [hlost]
    exact ⟨rfl, rfl, h.notifier.refl t, h.watched t, fun _ _ => eq_of_set rfl rfl⟩
  | some outcome =>
    have hmark := h.notifier.markDone t
    have hwatched : s.Watched t
        (((s.engine.verdict? w call reply).map (s.watch.cancel 0)).getD s.watch)
        (s.engine.context.heed (s.engine.verdict? w call reply)) := by
      cases s.engine.verdict? w call reply with
      | none => exact h.watched t
      | some reason => exact h.watched_cancel t reason
    rw [Engine.takeReply_eq ho]
    generalize s.engine.verdict? w call reply = verdict at hwatched ⊢
    unfold Engine.settleItem
    cases hq : s.engine.queue.markDone with
    | error fault =>
      have hsame : s.notifier.markDone = s.notifier := by
        unfold Notifier.markDone
        rw [show s.notifier.queue.markDone = .error fault from hq]
      rw [hsame] at hmark ⊢
      exact ⟨rfl, rfl, hmark, hwatched, fun _ _ => eq_of_set rfl rfl⟩
    | ok queue =>
      have hmarked : s.notifier.markDone =
          ⟨queue, s.notifier.markDone.joiners, s.notifier.listeners⟩ := by
        unfold Notifier.markDone
        rw [show s.notifier.queue.markDone = .ok queue from hq]
      rw [hmarked] at hmark
      cases verdict with
      | none => exact ⟨rfl, rfl, hmark, hwatched, fun hr => by cases hr⟩
      | some reason => exact ⟨rfl, rfl, hmark, hwatched, fun _ _ => eq_of_set rfl rfl⟩

theorem mirrors_stepWorker (h : s.InTune) (ht : s.engine.tasks[t]? = some (.worker w))
    (hput : t ∉ s.engine.queue.putLine) :
    s.Mirrors t (s.stepWorker script t w) (s.engine.stepWorker script t w) := by
  -- a worker that waits for a reply, or for nothing, has been told what is the case
  have hrest : w.phase ≠ .seeking → s.Mirrors t (s, false) (s.engine, false) := by
    intro hw
    refine ⟨rfl, rfl, h.notifier.refl t, h.watched t, fun _ task htask hnotice => ?_⟩
    have htask : s.engine.tasks[t]? = some task := htask
    rw [ht] at htask
    cases htask
    cases hphase : w.phase with
    | seeking => exact absurd hphase hw
    | calling call => simpa [hasNotice, Engine.isEnabled, hphase] using hnotice
    | ended how => simp [hasNotice, hphase] at hnotice
  unfold stepWorker Engine.stepWorker
  by_cases hended : w.hasEnded = true
  · rw [if_pos hended, if_pos hended]
    refine hrest fun hw => ?_
    rw [(Worker.of_seeking hw).1] at hended
    cases hended
  rw [if_neg hended, if_neg hended]
  have hlive := Bool.eq_false_iff.2 hended
  by_cases ha : w.aborted = true
  · rw [if_pos ha, if_pos ha]
    exact mirrors_dropWorker h hput hlive
  rw [if_neg ha, if_neg ha]
  cases hw : w.phase with
  | seeking => exact mirrors_seek h ht hput hw (Bool.eq_false_iff.2 ha) w.begun
  | calling call =>
    dsimp only
    cases s.engine.log.reply? call with
    | none => exact hrest (by simp [hw])
    | some reply => exact mirrors_takeReply h w call reply
  | ended how => exact hrest (by simp [hw])

/-! ### The other tasks -/

/-- A task that is as it was, and waits for nothing. -/
theorem eq_of_same {task task' : Task} (ht : s.engine.tasks[t]? = some task')
    (hnone : s.hasNotice t task' = false) (htask : s.engine.tasks[t]? = some task)
    (hnotice : s.hasNotice t task = true) : s.engine.isEnabled task = true := by
  rw [ht] at htask
  cases htask
  rw [hnone] at hnotice
  cases hnotice

theorem mirrors_stepProducer (h : s.InTune) {p : Producer}
    (ht : s.engine.tasks[t]? = some (.producer p)) :
    s.Mirrors t (s.stepProducer t p) (s.engine.stepProducer t p) := by
  have hmove := s.engine.stepProducer_move t p
  unfold stepProducer
  generalize s.engine.stepProducer t p = result at hmove ⊢
  cases hmove with
  | rest => exact ⟨rfl, rfl, h.notifier.refl t, h.watched t, fun _ _ => eq_of_same ht rfl⟩
  | reserve hq =>
    exact ⟨rfl, rfl, h.notifier.reserve hq, h.watched t, fun _ _ => eq_of_same ht rfl⟩
  | await hq => exact ⟨rfl, rfl, h.notifier.put hq, h.watched t, fun _ _ => eq_of_same ht rfl⟩
  | refused hq => exact ⟨rfl, rfl, h.notifier.put hq, h.watched t, fun _ _ => eq_of_set rfl rfl⟩
  | put hq => exact ⟨rfl, rfl, h.notifier.put hq, h.watched t, fun hr => by cases hr⟩

theorem mirrors_stepJoiner (h : s.InTune) {done : Bool}
    (ht : s.engine.tasks[t]? = some (.joiner done)) :
    s.Mirrors t (s.stepJoiner t done)
      (if !done && s.engine.queue.drained then s.engine.setTask t (.joiner true) else s.engine,
        false) := by
  unfold stepJoiner
  cases done with
  | true => exact ⟨rfl, rfl, h.notifier.refl t, h.watched t, fun _ _ => eq_of_same ht rfl⟩
  | false =>
    obtain ⟨joiners, listeners, b, hjoin, hdrained, hdealing, hjoins⟩ := h.join t
    rw [hjoin, ← hdrained]
    cases b with
    | none =>
      refine ⟨rfl, rfl, hdealing, h.watched t, fun _ _ => eq_of_same ht ?_⟩
      simpa [hasNotice, use] using hjoins rfl
    | some answer => exact ⟨rfl, rfl, hdealing, h.watched t, fun _ _ => eq_of_set rfl rfl⟩

theorem mirrors_stepShutdown (h : s.InTune) {x : Shutdown}
    (ht : s.engine.tasks[t]? = some (.shutdown x)) :
    s.Mirrors t (s.stepShutdown t x) (s.engine.stepShutdown t x) := by
  unfold stepShutdown Engine.stepShutdown
  cases hdone : x.done with
  | true =>
    refine ⟨rfl, rfl, h.notifier.refl t, h.watched t, fun _ _ => eq_of_same ht ?_⟩
    simp [hasNotice, hdone]
  | false =>
    cases hclosed : x.closed with
    | false =>
      exact ⟨rfl, rfl, h.notifier.close t, h.watched t, fun hr => by cases hr⟩
    | true =>
      cases hend : s.engine.allEnded x.members with
      | true =>
        refine ⟨rfl, rfl, h.notifier.refl t, h.watched t, fun _ _ => eq_of_set rfl ?_⟩
        simp [hasNotice]
      | false =>
        refine ⟨rfl, rfl, h.notifier.refl t, h.watched t, fun _ _ => eq_of_same ht ?_⟩
        simp [hasNotice, hend]

/-! ### The driver -/

theorem mirrors_giveUp (h : s.InTune) (ht : s.engine.tasks[t]? = some (.driver d))
    (hwatched : s.Watched t watch s.engine.context) (error : Error) :
    s.Mirrors t (({ s with watch }).giveUp t d error, false)
      (s.engine.giveUp t d error, false) := by
  have hover : (s.engine.giveUp t d error).tasks[t]? =
      some (.driver { d with stage := .over (.failed error) }) := Engine.task_giveUp ht
  have hqueue : (s.engine.giveUp t d error).queue = (s.engine.queue.leave t).close := by
    rw [Engine.giveUp_eq]
  have hcontext : (s.engine.giveUp t d error).context = s.engine.context := by
    rw [Engine.giveUp_eq]
  refine ⟨rfl, rfl, ?_, ?_, fun _ _ => eq_of_same hover rfl⟩
  · have hdealing := h.notifier.leave_close t
    have hnotifier : (({ s with watch }).giveUp t d error).notifier =
        (s.notifier.leave t).close := by
      show (⟨(s.engine.giveUp t d error).queue, _, _⟩ : Notifier WorkItem) = _
      rw [hqueue]
      rfl
    rwa [hnotifier]
  · show s.Watched t (watch.forget t) (s.engine.giveUp t d error).context
    rw [hcontext]
    exact hwatched.forget

theorem mirrors_submit (h : s.InTune) (ht : s.engine.tasks[t]? = some (.driver d))
    (hs : d.stage = .submitting) (hwatched : s.Watched t watch s.engine.context)
    (hsleeps : watch.Sleeps t) :
    s.Mirrors t (({ s with watch }).submit t d) (s.engine.submit t d) := by
  unfold submit Engine.submit
  rcases d.source.next with ⟨_ | item, source⟩
  · exact ⟨rfl, rfl, h.notifier.refl t, hwatched, fun hr => by cases hr⟩
  rcases hq : s.engine.queue.put t item with ⟨queue, (fault | _) | _⟩
  · obtain ⟨rfl, -⟩ := WorkQueue.put_error hq
    simp only [hq]
    exact mirrors_giveUp h ht hwatched _
  · simp only [hq]
    exact ⟨rfl, rfl, h.notifier.put hq, hwatched, fun hr => by cases hr⟩
  · simp only [hq]
    refine ⟨rfl, rfl, h.notifier.put hq, hwatched, fun _ _ => eq_of_same ht ?_⟩
    simp [hasNotice, hs, hsleeps]

theorem mirrors_stepDriver (h : s.InTune) (ht : s.engine.tasks[t]? = some (.driver d)) :
    s.Mirrors t (s.stepDriver t d) (s.engine.stepDriver t d) := by
  obtain ⟨hwatched, hreason, hsleeps⟩ := h.attempt t
  unfold stepDriver Engine.stepDriver
  cases hs : d.stage with
  | starting =>
    dsimp only
    split
    · exact ⟨rfl, rfl, h.notifier.refl t, h.watched t, fun _ _ => eq_of_set rfl rfl⟩
    · rw [Engine.spawnAll_eq]
      exact ⟨rfl, rfl, h.notifier.refl t, h.watched t, fun hr => by cases hr⟩
  | submitting =>
    rw [← hreason]
    rcases hlook : s.watch.attempt t 0 with ⟨watch, _ | reason⟩
    all_goals rw [hlook] at hwatched hsleeps
    · exact mirrors_submit h ht hs hwatched (hsleeps rfl)
    · exact mirrors_giveUp h ht hwatched _
  | draining =>
    rw [← hreason]
    rcases hlook : s.watch.attempt t 0 with ⟨watch, _ | reason⟩
    all_goals rw [hlook] at hwatched hsleeps
    · obtain ⟨joiners, listeners, b, hjoin, hdrained, hdealing, hjoins⟩ := h.join t
      rw [hjoin, ← hdrained]
      cases b with
      | none =>
        refine ⟨rfl, rfl, hdealing, hwatched, fun _ _ => eq_of_same ht ?_⟩
        have hmem : t ∈ joiners := hjoins rfl
        simp [hasNotice, hs, use, hsleeps rfl, hmem]
      | some answer => exact ⟨rfl, rfl, hdealing, hwatched.forget, fun hr => by cases hr⟩
    · exact mirrors_giveUp h ht hwatched _
  | closing =>
    exact ⟨rfl, rfl, h.notifier.close t, h.watched t, fun hr => by cases hr⟩
  | stopping =>
    dsimp only
    split
    · exact ⟨rfl, rfl, h.notifier.refl t, h.watched t, fun _ _ => eq_of_set rfl rfl⟩
    · refine ⟨rfl, rfl, h.notifier.refl t, h.watched t, fun _ _ => eq_of_same ht ?_⟩
      simpa [hasNotice, hs] using Bool.eq_false_iff.2 ‹¬ _›
  | _ =>
    refine ⟨rfl, rfl, h.notifier.refl t, h.watched t, fun _ _ => eq_of_same ht ?_⟩
    simp [hasNotice, hs]

/-! ### All of them -/

/-- A step comes to the same, if no worker stands in the line for slots. -/
theorem step_mirrors (script : Script) (t : TaskId) (h : s.InTune)
    (hput : ∀ w, s.engine.tasks[t]? = some (.worker w) → t ∉ s.engine.queue.putLine) :
    s.Mirrors t (s.step script t) (s.engine.step script t) := by
  unfold step Engine.step
  cases ht : s.engine.tasks[t]? with
  | none =>
    refine ⟨rfl, rfl, h.notifier.refl t, h.watched t, fun _ task htask => ?_⟩
    have htask : s.engine.tasks[t]? = some task := htask
    rw [ht] at htask
    cases htask
  | some task =>
    cases task with
    | worker w => exact mirrors_stepWorker h ht (hput w ht)
    | producer p => exact mirrors_stepProducer h ht
    | joiner done => exact mirrors_stepJoiner h ht
    | shutdown x => exact mirrors_stepShutdown h ht
    | driver d => exact mirrors_stepDriver h ht

end Switchboard

end LoadGenerator
