import LoadGenerator.Engine.Replies

/-!
# Trying out an engine

A `Bench` is an engine whose parts are used one by one, without a run: producers, joiners, workers
on their own, and one pool of workers at a time. Each `Action` has its effect at once; the tasks run
when the bench settles. Starting a pool while there is one drops the old one afterwards.
-/

namespace LoadGenerator

/-- An engine with its pool and with the workers that belong to none. -/
structure Bench where
  engine : Engine
  pool : Option (List TaskId) := none
  loners : List TaskId := []
  deriving Repr

namespace Bench

inductive Action where
  | put (count : Nat) (target : Target)
  | start (size : Nat) (policy : FailurePolicy) (parts : List Part)
  | worker (id : UInt64) (policy : FailurePolicy) (parts : List Part)
  | join
  | markDone
  | close
  | cancel (reason : CancelReason)
  | shutdown
  | abort
  | dropPool
  | reply (reply : Reply) (whom : Addressee)
  | look
  deriving DecidableEq, Repr

inductive Result where
  | nothing
  | pool (size : Nat) (description : String)
  | worker (id : UInt64) (description : String)
  | refused (error : Error)
  | truth (b : Bool)
  | receipt (r : Receipt)
  deriving DecidableEq, Repr

def script : Script := fun _ => none

def transport : String := "scripted"

def new (capacity : UInt64) : Except CapacityFault Bench :=
  (WorkQueue.new capacity).map fun queue => { engine := { queue } }

/-- The bench with its engine changed, and those tasks called back that got something from it. -/
def update (b : Bench) (e : Engine) : Bench :=
  { b with engine := e.callBack }

def describePool (size : Nat) (queue : WorkQueue WorkItem) : String :=
  Text.describe "WorkerPool" [("size", toString size), ("queue", queue.describe)]

def dropPool (b : Bench) : Bench :=
  match b.pool with
  | none => b
  | some members => { b.update (b.engine.abortAll members) with pool := none }

def start (b : Bench) (size : Nat) (policy : FailurePolicy) (parts : List Part) : Bench × Result :=
  if size = 0 then (b, .refused Engine.emptyPool)
  else
    match Worker.missing? (.queue :: parts) with
    | some part => (b, .refused (.missing part))
    | none =>
      let members := b.engine.nextIds size
      let engine := b.engine.spawnAll (Engine.poolWorkers size policy)
      let b := { b with engine }.dropPool
      ({ b with pool := some members }, .pool size (describePool size engine.queue))

def startWorker (b : Bench) (id : UInt64) (policy : FailurePolicy) (parts : List Part) :
    Bench × Result :=
  match Worker.missing? parts with
  | some part => (b, .refused (.missing part))
  | none =>
    let w : Worker := { id, policy }
    ({ b with engine := b.engine.spawn (.worker w), loners := b.loners ++ [b.engine.tasks.length] },
      .worker id (w.describe transport b.engine.queue))

/-- Has the pool shut down, which is then no longer the pool of the bench. -/
def shutdown (b : Bench) : Bench :=
  match b.pool with
  | none => b
  | some members => { b with engine := b.engine.spawn (.shutdown { members }), pool := none }

def act (b : Bench) : Action → Bench × Result
  | .put count target =>
    ({ b with engine := b.engine.spawn (.producer { item := ⟨target⟩, total := count }) }, .nothing)
  | .start size policy parts => b.start size policy parts
  | .worker id policy parts => b.startWorker id policy parts
  | .join => ({ b with engine := b.engine.spawn (.joiner false) }, .nothing)
  | .markDone =>
    match b.engine.queue.markDone with
    | .ok queue => (b.update { b.engine with queue }, .nothing)
    | .error fault => (b, .refused (.ofQueueFault fault))
  | .close => (b.update { b.engine with queue := b.engine.queue.close }, .nothing)
  | .cancel reason => (b.update (b.engine.cancel reason), .truth b.engine.context.accepts)
  | .shutdown => (b.shutdown, .nothing)
  | .abort => (b.dropPool, .nothing)
  | .dropPool => (b.dropPool, .truth b.pool.isSome)
  | .reply reply whom =>
    let (engine, r) := b.engine.receive script reply whom
    ({ b with engine }, .receipt r)
  | .look => (b, .nothing)

def settle (b : Bench) : Bench :=
  { b with engine := b.engine.settle script }

/-! ### What there is to see -/

def producers (b : Bench) : List Producer :=
  b.engine.tasks.filterMap fun
    | .producer p => some p
    | _ => none

def joined (b : Bench) : List Bool :=
  b.engine.tasks.filterMap fun
    | .joiner done => some done
    | _ => none

/-- The workers on their own that have ended, by place. -/
def ended (b : Bench) : List (Nat × Ending × WorkerStats) :=
  b.loners.zipIdx.filterMap fun (t, place) =>
    (b.engine.worker? t).bind fun w => w.ending?.map fun how => (place, how, w.stats)

def endedSince (b before : Bench) : List (Nat × Ending × WorkerStats) :=
  b.ended.filter fun (place, _) => !before.ended.any (·.1 == place)

/-- The completed shutdowns by task number, with the tallies that each has collected. -/
def shutdowns (b : Bench) : List (TaskId × List WorkerStats) :=
  b.engine.tasks.zipIdx.filterMap fun
    | (.shutdown s, t) => if s.done then some (t, b.engine.shares s.members) else none
    | _ => none

def shutdownsSince (b before : Bench) : List (TaskId × List WorkerStats) :=
  b.shutdowns.filter fun (t, _) => !before.shutdowns.any (·.1 == t)

end Bench

end LoadGenerator
