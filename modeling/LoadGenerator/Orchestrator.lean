import LoadGenerator.Engine.Replies
import LoadGenerator.Summary

/-!
# Runs one after another

An `Orchestrator` has a valid configuration and makes runs of it. Each run has an engine of its own,
in which the driver is the first task, and a context of its own, through which it can be cancelled:
before it starts, while it goes on, and, without effect, afterwards. When a run is over a fresh
context is there for the next one, so what cancelled one run never reaches the following one.
-/

namespace LoadGenerator

/-- Whether a run is going on: the context of the next run, or the engine of the present one. -/
inductive Activity where
  | idle (context : Cancellation)
  | running (engine : Engine) (signals : Bool)
  deriving Repr

/-- A run that is over: its context, and how it ended. -/
structure PastRun where
  context : Cancellation
  how : RunEnd
  deriving DecidableEq, Repr

/-- What makes runs of a configuration. Contexts are numbered by runs, from zero on. -/
structure Orchestrator where
  config : Config
  target : Target
  /-- the runs that are over -/
  past : List PastRun := []
  /-- for each handle the context that it cancels -/
  handles : List Nat := []
  /-- the calls of the runs that are over -/
  log : CallLog := {}
  activity : Activity := .idle {}
  deriving Repr

namespace Orchestrator

/-- An orchestrator for a configuration, if there is a transport and the configuration is valid. -/
def build (config : Config) (hasTransport : Bool) : Except Error Orchestrator :=
  if hasTransport then
    match config.validate with
    | .error e => .error e.toError
    | .ok () => config.parsedTarget.map fun target => { config, target }
  else .error (.missing .transport)

def describe (o : Orchestrator) (transport : String) : String :=
  Text.describe "Orchestrator" [
    ("config", o.config.describe), ("transport", Text.quote transport)]

/-! ### Contexts -/

/-- The context of the present run, or of the next one. -/
def current (o : Orchestrator) : Cancellation :=
  match o.activity with
  | .idle context => context
  | .running engine _ => engine.context

def context (o : Orchestrator) (i : Nat) : Cancellation :=
  ((o.past[i]?).map PastRun.context).getD o.current

def isRunning (o : Orchestrator) : Bool :=
  match o.activity with
  | .idle _ => false
  | .running _ _ => true

def cancel (o : Orchestrator) (reason : CancelReason) : Orchestrator :=
  { o with activity :=
      match o.activity with
      | .idle context => .idle (context.cancel reason)
      | .running engine signals => .running (engine.cancel reason).callBack signals }

/-- Cancels through the context with a number. -/
def cancelContext (o : Orchestrator) (i : Nat) (reason : CancelReason) : Orchestrator :=
  if i < o.past.length then
    { o with past := o.past.modify i fun run => { run with context := run.context.cancel reason } }
  else o.cancel reason

def takeHandle (o : Orchestrator) : Orchestrator :=
  { o with handles := o.handles ++ [o.past.length] }

/-- The context that a handle cancels. -/
def handled (o : Orchestrator) (handle : Nat) : Nat :=
  (o.handles[handle]?).getD o.past.length

/-! ### Runs -/

def calls (o : Orchestrator) : CallLog :=
  match o.activity with
  | .idle _ => o.log
  | .running engine _ => engine.log

/-- The engine of a run that is about to start, if there can be a queue for it. -/
def engine (o : Orchestrator) : Except Error Engine :=
  match WorkQueue.new o.config.queueCapacity with
  | .error fault => .error (.ofCapacityFault fault)
  | .ok queue => .ok <|
    { queue, context := o.current, log := o.log : Engine }.spawn <|
      .driver {
        size := o.config.concurrency.toNat
        policy := o.config.failurePolicy
        source := .new o.target o.config.totalRequests }

/-- The orchestrator after a run, which belongs to the past then. -/
def conclude (o : Orchestrator) (context : Cancellation) (log : CallLog) (how : RunEnd) :
    Orchestrator :=
  { o with past := o.past ++ [⟨context, how⟩], log, activity := .idle {} }

/-- Starts a run, which may listen for interrupts. A run that cannot start is over at once. -/
def start (o : Orchestrator) (signals : Bool) : Orchestrator :=
  match o.engine with
  | .error e => o.conclude o.current o.log (.failed e)
  | .ok engine => { o with activity := .running engine signals }

/-- How the run of an engine ended, if it is over. -/
def runEnd? (engine : Engine) : Option RunEnd :=
  match engine.tasks.head? with
  | some (.driver d) =>
    match d.stage with
    | .over how => some how
    | _ => none
  | _ => none

/-- The orchestrator with the engine of its run as it is now. A run that is over is concluded. -/
def proceed (o : Orchestrator) (engine : Engine) (signals : Bool) : Orchestrator :=
  match runEnd? engine with
  | some how => o.conclude engine.context engine.log how
  | none => { o with activity := .running engine signals }

def settle (script : Script) (o : Orchestrator) : Orchestrator :=
  match o.activity with
  | .idle _ => o
  | .running engine signals => o.proceed (engine.settle script) signals

def listens (o : Orchestrator) : Bool :=
  match o.activity with
  | .running _ signals => signals
  | .idle _ => false

/-- An interrupt, which cancels the present run if that listens. What can still get further does so
before. -/
def interrupt (script : Script) (o : Orchestrator) : Orchestrator :=
  if o.listens then
    let o := o.settle script
    if o.isRunning then o.cancel .interrupted else o
  else o

def endedSince (o before : Orchestrator) : List RunEnd :=
  (o.past.drop before.past.length).map PastRun.how

def summarize (o : Orchestrator) (counts : Snapshot) (seconds nanos : UInt64)
    (startedAt : Timestamp) : Except Overflow Summary :=
  Summary.new o.target.display o.config.totalRequests o.config.concurrency counts seconds nanos
    startedAt

/-! ### Using an orchestrator -/

inductive Action where
  | run (signals : Bool)
  | interrupt
  | takeHandle
  | cancel (reason : CancelReason)
  | cancelHandle (handle : Nat) (reason : CancelReason)
  | reply (reply : Reply) (whom : Addressee)
  | look
  deriving DecidableEq, Repr

inductive Result where
  | nothing
  | handle (number : Nat)
  | truth (b : Bool)
  | receipt (r : Receipt)
  deriving DecidableEq, Repr

/-- Replies to calls of the present run, which may be over then. -/
def receive (script : Script) (o : Orchestrator) (reply : Reply) (whom : Addressee) :
    Orchestrator × Receipt :=
  match o.activity with
  | .idle _ => (o, whom.noReceipt)
  | .running engine signals =>
    let (engine, r) := engine.receive script reply whom
    (o.proceed engine signals, r)

/-- The effect of an action, before the tasks run. -/
def act (script : Script) (o : Orchestrator) : Action → Orchestrator × Result
  | .run signals => (o.start signals, .nothing)
  | .interrupt => (o.interrupt script, .truth o.listens)
  | .takeHandle => (o.takeHandle, .handle o.handles.length)
  | .cancel reason => (o.cancel reason, .nothing)
  | .cancelHandle handle reason =>
    (o.cancelContext (o.handled handle) reason, .truth (o.context (o.handled handle)).accepts)
  | .reply reply whom =>
    let (o, r) := o.receive script reply whom
    (o, .receipt r)
  | .look => (o, .nothing)

end Orchestrator

end LoadGenerator
