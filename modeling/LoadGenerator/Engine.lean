import LoadGenerator.CallLog
import LoadGenerator.Counter
import LoadGenerator.WorkSource
import LoadGenerator.Worker

/-!
# The engine

An `Engine` is a queue, a counter, a cancellation and the tasks that share them: workers, producers
that put items, joiners that wait until the queue is drained, tasks that shut a pool of workers
down, and the driver of a run. Tasks run one at a time. Those that are ready stand in a line; the
first one runs until it can get no further, step by step, then it leaves the line. A step is what a
task does between two points at which it may have to wait, so nobody else sees or does anything in
the midst of it: what is proved of the states of an engine is proved of what there is between two
steps. A task that could get further again is called back to the end of the line at once
(`callBack`): this holds by construction, so no task is ever forgotten, and a `Switchboard` shows
that waiting for notices comes to the same. `settle` runs the tasks until the line is empty.

A turn in the line has a limit: after `turnLimit` items a producer takes a slot for the next one, if
there is a free slot, and is late. It fills the slot in its next turn, to which it is called back
when nobody else is ready, or after `patience` turns (`callLate`).
-/

namespace LoadGenerator

/-- The number of a task, which is its ticket at the queue too. -/
abbrev TaskId := Ticket

/-- The replies that a transport gives at once, by the number of the call. -/
abbrev Script := Nat → Option Reply

/-- Puts the same item a number of times, and stops at the first refusal. -/
structure Producer where
  item : WorkItem
  total : Nat
  put : Nat := 0
  fault : Option QueueFault := none
  deriving DecidableEq, Repr

/-- Closes the queue and waits until some workers have ended. -/
structure Shutdown where
  members : List TaskId
  closed : Bool := false
  done : Bool := false
  deriving DecidableEq, Repr

/-- How a run ended: completed, with the counts and the tallies of its workers, or not. -/
inductive RunEnd where
  | completed (counts : Snapshot) (shares : List WorkerStats)
  | failed (error : Error)
  deriving DecidableEq, Repr

inductive Stage where
  | starting
  | submitting
  | draining
  | closing
  | stopping
  | over (how : RunEnd)
  deriving DecidableEq, Repr

/-- The driver of a run: it starts the workers, puts every item, waits until all are done, and stops
the workers. -/
structure RunDriver where
  size : Nat
  policy : FailurePolicy
  source : WorkSource
  members : List TaskId := []
  stage : Stage := .starting
  deriving DecidableEq, Repr

inductive Task where
  | worker (w : Worker)
  | producer (p : Producer)
  | joiner (done : Bool)
  | shutdown (s : Shutdown)
  | driver (d : RunDriver)
  deriving DecidableEq, Repr

/-- What tasks share, the tasks by number, and the line of those that are ready. -/
structure Engine where
  queue : WorkQueue WorkItem
  counter : Counter := {}
  context : Cancellation := {}
  log : CallLog := {}
  tasks : List Task := []
  ready : List TaskId := []
  /-- those that have used up their turn, the last one first -/
  late : List TaskId := []
  /-- the items put in the present turn -/
  putInTurn : Nat := 0
  /-- the turns since those that were late have been called back -/
  turns : Nat := 0
  deriving Repr

namespace Engine

/-! ### Looking at tasks -/

def worker? (e : Engine) (t : TaskId) : Option Worker :=
  match e.tasks[t]? with
  | some (.worker w) => some w
  | _ => none

def allEnded (e : Engine) (members : List TaskId) : Bool :=
  members.all fun t => ((e.worker? t).map Worker.hasEnded).getD true

/-- The tallies of those of some workers that finished, in order. -/
def shares (e : Engine) (members : List TaskId) : List WorkerStats :=
  (members.filterMap e.worker?).filterMap fun w =>
    if w.phase = .ended .finished then some w.stats else none

def isEnabled (e : Engine) : Task → Bool
  | .worker w =>
    match w.phase with
    | .seeking => w.aborted || e.context.isCancelled
    | .calling call => w.aborted || (e.log.reply? call).isSome
    | .ended _ => false
  | .producer _ => false
  | .joiner done => !done && e.queue.drained
  | .shutdown s => s.closed && !s.done && e.allEnded s.members
  | .driver d =>
    match d.stage with
    | .submitting => e.context.isCancelled
    | .draining => e.context.isCancelled || e.queue.drained
    | .stopping => e.allEnded d.members
    | _ => false

def callable (e : Engine) : List TaskId :=
  e.queue.callable ++
    e.tasks.zipIdx.filterMap fun (task, t) => if e.isEnabled task then some t else none

/-- Puts a task at the end of a line, unless it stands there already. -/
def enqueue (line : List TaskId) (t : TaskId) : List TaskId :=
  if t ∈ line then line else line ++ [t]

/-- Calls back the tasks that could get further and are not late. -/
def callBack (e : Engine) : Engine :=
  { e with ready := (e.callable.filter (· ∉ e.late)).foldl enqueue e.ready }

/-- The items that a producer puts in one turn. -/
def turnLimit : Nat := 128

/-- The turns that late tasks wait at most. -/
def patience : Nat := 61

/-- Calls back the late tasks, the last one first, if nobody else is ready or it is time. -/
def callLate (e : Engine) : Engine :=
  if e.ready.isEmpty ∨ patience ≤ e.turns then
    { e with ready := e.late.foldl enqueue e.ready, late := [], turns := 0 }
  else e

/-- The first task in line leaves it, which ends its turn. -/
def endTurn (e : Engine) : Engine :=
  { e with ready := e.ready.drop 1, putInTurn := 0, turns := e.turns + 1 }.callBack.callLate

/-! ### Changing tasks -/

def setTask (e : Engine) (t : TaskId) (task : Task) : Engine :=
  { e with tasks := e.tasks.set t task }

/-- Adds a task, which is ready. -/
def spawn (e : Engine) (task : Task) : Engine :=
  { e with tasks := e.tasks ++ [task], ready := e.ready ++ [e.tasks.length] }

def spawnAll (e : Engine) (tasks : List Task) : Engine :=
  tasks.foldl spawn e

def cancel (e : Engine) (reason : CancelReason) : Engine :=
  { e with context := e.context.cancel reason }

/-- Tells a worker that has not ended to drop everything. -/
def abortWorker (e : Engine) (t : TaskId) : Engine :=
  match e.worker? t with
  | some w => if w.hasEnded then e else e.setTask t (.worker { w with aborted := true })
  | none => e

/-- Closes the queue and tells some workers to drop everything. -/
def abortAll (e : Engine) (members : List TaskId) : Engine :=
  members.foldl abortWorker { e with queue := e.queue.close }

/-! ### Steps of workers -/

/-- A worker drops everything: its place at the queue, or its call. -/
def dropWorker (e : Engine) (t : TaskId) (w : Worker) : Engine :=
  let e := e.setTask t (.worker (w.finish .aborted))
  match w.phase with
  | .seeking => { e with queue := e.queue.leave t }
  | .calling call => { e with log := e.log.set call .abandoned }
  | .ended _ => e

/-- A worker looks for the next item; cancellation comes before items. -/
def seek (script : Script) (e : Engine) (t : TaskId) (w : Worker) : Engine × Bool :=
  if e.context.isCancelled then
    (({ e with queue := e.queue.leave t }).setTask t (.worker (w.finish .finished)), false)
  else
    match e.queue.get t with
    | (queue, .waiting) => ({ e with queue }, false)
    | (queue, .done none) =>
      (({ e with queue }).setTask t (.worker (w.finish .finished)), false)
    | (queue, .done (some item)) =>
      let call := e.log.size + 1
      (({ e with queue, log := e.log.startWith item.target (script call) }).setTask t
        (.worker { w with phase := .calling call }), true)

/-- What is left to do for an item once its outcome is recorded: to mark it as done, and to go on
unless the worker has cancelled the run. -/
def settleItem (e : Engine) (t : TaskId) (w : Worker) (cancelled : Bool) : Engine × Bool :=
  match e.queue.markDone with
  | .error fault => (e.setTask t (.worker (w.finish (.failed (w.markFailure fault)))), false)
  | .ok queue =>
    let e := { e with queue }
    if cancelled then (e.setTask t (.worker (w.finish .finished)), false)
    else (e.setTask t (.worker { w with phase := .seeking }), true)

/-- A worker takes the reply to its call and records the outcome. -/
def takeReply (e : Engine) (t : TaskId) (w : Worker) (call : Nat) (reply : Reply) :
    Engine × Bool :=
  let target := ((e.log.get? call).map Call.target).getD default
  let e := { e with log := e.log.set call (.returned reply) }
  match reply.outcome? with
  | none => (e.setTask t (.worker (w.finish .panicked)), false)
  | some outcome =>
    let w := { w with stats := (w.stats.record outcome).1 }
    let e := { e with counter := e.counter.record outcome }
    match w.verdict? target reply with
    | some reason => (e.cancel reason).settleItem t w true
    | none => e.settleItem t w false

/-- One step of a worker. -/
def stepWorker (script : Script) (e : Engine) (t : TaskId) (w : Worker) : Engine × Bool :=
  if w.hasEnded then (e, false)
  else if w.aborted then (e.dropWorker t w, false)
  else
    match w.phase with
    | .seeking => e.seek script t { w with stats := w.stats.start 0 }
    | .calling call =>
      match e.log.reply? call with
      | none => (e, false)
      | some reply => e.takeReply t w call reply
    | .ended _ => (e, false)

/-! ### Steps of the other tasks -/

/-- The queue with a slot taken for a producer that has used up its turn. -/
def reserveLate? (e : Engine) (t : TaskId) : Option (WorkQueue WorkItem) :=
  if e.putInTurn < turnLimit then none else e.queue.reserve? t

/-- One step of a producer: it puts one item, or is late with it. -/
def stepProducer (e : Engine) (t : TaskId) (p : Producer) : Engine × Bool :=
  if p.put = p.total ∨ p.fault.isSome then (e, false)
  else
    match e.reserveLate? t with
    | some queue => ({ e with queue, late := t :: e.late }, false)
    | none =>
      match e.queue.put t p.item with
      | (queue, .waiting) => ({ e with queue }, false)
      | (queue, .done (.error fault)) =>
        (({ e with queue }).setTask t (.producer { p with fault := some fault }), false)
      | (queue, .done (.ok ())) =>
        (({ e with queue, putInTurn := e.putInTurn + 1 }).setTask t
          (.producer { p with put := p.put + 1 }), true)

/-- One step of a task that shuts down a pool. -/
def stepShutdown (e : Engine) (t : TaskId) (s : Shutdown) : Engine × Bool :=
  if s.done then (e, false)
  else if !s.closed then
    (({ e with queue := e.queue.close }).setTask t (.shutdown { s with closed := true }), true)
  else if e.allEnded s.members then (e.setTask t (.shutdown { s with done := true }), false)
  else (e, false)

def emptyPool : Error :=
  .config "worker pool size must be at least 1"

def poolWorkers (size : Nat) (policy : FailurePolicy) : List Task :=
  (List.range size).map fun i => .worker { id := UInt64.ofNat i, policy }

def nextIds (e : Engine) (count : Nat) : List TaskId :=
  (List.range count).map (e.tasks.length + ·)

/-- The driver gives up because the run has been cancelled: it leaves the queue, and the workers
drop everything. -/
def giveUp (e : Engine) (t : TaskId) (d : RunDriver) (error : Error) : Engine :=
  (({ e with queue := e.queue.leave t }).setTask t
    (.driver { d with stage := .over (.failed error) })).abortAll d.members

/-- Puts the next item of a run, or goes on to wait until all are done. -/
def submit (e : Engine) (t : TaskId) (d : RunDriver) : Engine × Bool :=
  match d.source.next with
  | (none, _) => (e.setTask t (.driver { d with stage := .draining }), true)
  | (some item, source) =>
    match e.queue.put t item with
    | (queue, .waiting) => ({ e with queue }, false)
    | (queue, .done (.error fault)) =>
      (({ e with queue }).giveUp t d (.ofQueueFault fault), false)
    | (queue, .done (.ok ())) =>
      (({ e with queue }).setTask t (.driver { d with source }), true)

/-- One step of the driver. Until the queue is drained, cancellation comes first. -/
def stepDriver (e : Engine) (t : TaskId) (d : RunDriver) : Engine × Bool :=
  match d.stage with
  | .starting =>
    if d.size = 0 then (e.setTask t (.driver { d with stage := .over (.failed emptyPool) }), false)
    else
      let d := { d with members := e.nextIds d.size, stage := .submitting }
      ((e.setTask t (.driver d)).spawnAll (poolWorkers d.size d.policy), true)
  | .submitting =>
    match e.context.reason with
    | some reason => (e.giveUp t d (.ofReason reason), false)
    | none => e.submit t d
  | .draining =>
    match e.context.reason with
    | some reason => (e.giveUp t d (.ofReason reason), false)
    | none =>
      if e.queue.drained then (e.setTask t (.driver { d with stage := .closing }), true)
      else (e, false)
  | .closing =>
    (({ e with queue := e.queue.close }).setTask t (.driver { d with stage := .stopping }), true)
  | .stopping =>
    if e.allEnded d.members then
      (e.setTask t (.driver { d with
        stage := .over (.completed e.counter.snapshot (e.shares d.members)) }), false)
    else (e, false)
  | .over _ => (e, false)

/-! ### Running -/

/-- One step of a task, and whether it may get further. -/
def step (script : Script) (e : Engine) (t : TaskId) : Engine × Bool :=
  match e.tasks[t]? with
  | none => (e, false)
  | some (.worker w) => e.stepWorker script t w
  | some (.producer p) => e.stepProducer t p
  | some (.joiner done) =>
    (if !done && e.queue.drained then e.setTask t (.joiner true) else e, false)
  | some (.shutdown s) => e.stepShutdown t s
  | some (.driver d) => e.stepDriver t d

/-- One step of the first task in line, which then stays or leaves. -/
def tick (script : Script) (e : Engine) : Engine :=
  match e.ready with
  | [] => e
  | t :: _ =>
    match e.step script t with
    | (e, true) => e.callBack
    | (e, false) => e.endTurn

/-- The steps that a task may still make for itself, over and above those for items. -/
def ownSteps : Task → Nat
  | .driver d => 8 * d.size + 8
  | _ => 8

/-- The items that a task may still put. -/
def itemsToPut : Task → Nat
  | .producer p => p.total - p.put
  | .driver d => d.source.remaining
  | _ => 0

/-- The number of tasks that there may be. -/
def tasksToCome : Task → Nat
  | .driver d => d.size + 1
  | _ => 1

/-- The sum of a measure of the tasks. -/
def total (e : Engine) (measure : Task → Nat) : Nat :=
  e.tasks.foldr (fun task sum => measure task + sum) 0

/-- More steps than can be left: every item takes at most one step to reserve a slot, one to put,
one to get and one to finish, every task a few of its own, and after each of these every task may be
called back once in vain. -/
def stepsLeft (e : Engine) : Nat :=
  let items := e.total itemsToPut + e.queue.buffer.length
  let moves := 4 * items + e.total ownSteps
  (moves + 1) * (e.total tasksToCome + 2) + e.ready.length + e.late.length

/-- Makes steps until no task is ready. -/
def run (script : Script) : Nat → Engine → Engine
  | 0, e => e
  | fuel + 1, e => if e.ready.isEmpty then e else run script fuel (e.tick script)

/-- Runs the tasks until no task is ready. -/
def settle (script : Script) (e : Engine) : Engine :=
  { e with turns := 0 }.run script e.stepsLeft

end Engine

end LoadGenerator
