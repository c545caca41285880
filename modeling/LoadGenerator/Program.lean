import LoadGenerator.CommandLine
import LoadGenerator.HttpClient
import LoadGenerator.Orchestrator

/-!
# The program

What the program does with its arguments: it makes a configuration of them, and a client, makes one
run, and prints the summary. `Exit` is what is left to see of it afterwards.
-/

namespace LoadGenerator

/-- What went wrong, from the outside in. -/
structure Failure where
  message : String
  causes : List String := []
  deriving DecidableEq, Repr

namespace Failure

def ofError (message : String) (e : Error) : Failure :=
  ⟨message, e.message :: e.cause?.toList⟩

def ofBuildFault (f : HttpClient.BuildFault) : Failure :=
  ⟨"Failed to create HTTP transport", f.message :: f.reason :: f.causes⟩

/-- A text whose lines after the first are indented. -/
def indented (width : Nat) (text : String) : String :=
  String.ofList (text.toList.flatMap fun c =>
    if c = '\n' then c :: List.replicate width ' ' else [c])

/-- A cause on lines of its own, numbered when there are several. -/
def causeLines (numbered : Bool) (cause : String) (n : Nat) : String :=
  if numbered then
    let number := toString n
    String.ofList (List.replicate (5 - number.length) ' ') ++ number ++ ": " ++ indented 7 cause
  else "    " ++ indented 4 cause

def report (f : Failure) : String :=
  let causes := f.causes.zipIdx.map fun (cause, n) =>
    "\n" ++ causeLines (f.causes.length ≠ 1) cause n
  s!"Error: {f.message}" ++ if f.causes.isEmpty then "" else "\n\nCaused by:" ++ String.join causes

end Failure

/-- What is left to see of the program: its exit status, its standard output, and what it says of a
failure. -/
structure Exit where
  status : Nat
  output : String := ""
  failure : Option String := none
  deriving DecidableEq, Repr

namespace Invocation

def prepare (i : Invocation) (files : Files) : Except Failure Config :=
  let path := i.config.getD ""
  (i.configure files).mapError (.ofError s!"Failed to load config from: {path}")

/-- The orchestrator that is asked for, if a client can be made. -/
def orchestrator (i : Invocation) (files : Files)
    (made : Except HttpClient.BuildFault Unit := .ok ()) : Except Failure Orchestrator := do
  let config ← i.prepare files
  made.mapError .ofBuildFault
  (Orchestrator.build config true).mapError (.ofError "Invalid configuration")

/-- The clock of a run: how long it took, and when it started. -/
structure Clock where
  seconds : UInt64 := 0
  nanos : UInt64 := 0
  startedAt : Timestamp := default
  deriving Repr

/-- The exit status after a run and what is printed: the summary if it completed. -/
def finish (i : Invocation) (o : Orchestrator) (how : RunEnd) (clock : Clock) :
    Except Failure (Nat × String) :=
  match how with
  | .completed counts _ =>
    match o.summarize counts clock.seconds clock.nanos clock.startedAt with
    | .error overflow => .error ⟨overflow.message, []⟩
    | .ok summary => .ok (0, (if i.json then summary.toPrettyJson else summary.display) ++ "\n")
  | .failed e =>
    match e.exitStatus? with
    | some status => .ok (status, "")
    | none => .error (.ofError "Run failed" e)

end Invocation

namespace Orchestrator

/-- The replies of a client, which come at once. -/
def clientScript (client : HttpClient) (o : Orchestrator) : Script :=
  fun number => some (client.reply o.target number)

/-- Makes one run with a client; without an end it would have to go on. -/
def runOnce (client : HttpClient := .offline) (o : Orchestrator) : RunEnd :=
  match (o.start true).settle (o.clientScript client) |>.endedSince o with
  | how :: _ => how
  | [] => .failed .interrupted

end Orchestrator

namespace Exit

/-- The end of a program whose arguments are not taken. -/
def ofStop (stop : Stop) : Exit :=
  if stop.isRequest then { status := 0, output := stop.message }
  else { status := 2, failure := some stop.message }

/-- The end of a program whose arguments are taken. -/
def ofResult : Except Failure (Nat × String) → Exit
  | .ok (status, output) => { status, output }
  | .error failure => { status := 1, failure := some failure.report }

end Exit

/-- The program: what it does with its arguments, the files there are, the run that an orchestrator
makes, the clock of the run, and the client that there is for it. -/
def program (arguments : List String) (files : Invocation.Files) (run : Orchestrator → RunEnd)
    (clock : Invocation.Clock) (made : Except HttpClient.BuildFault Unit := .ok ()) : Exit :=
  match Invocation.parse arguments with
  | .error stop => .ofStop stop
  | .ok i => .ofResult do
    let o ← i.orchestrator files made
    i.finish o (run o) clock

end LoadGenerator
