import LoadGenerator.Program
import Std.Time.DateTime.Timestamp

/-!
# The outer layer

`main` reads the config file and the clock, and writes what the program has to say.
-/

namespace LoadGenerator

/-- What the system says is wrong with a file. -/
def fileFault : IO.Error → FileFault
  | .noFileOrDirectory .. => .missing
  | .permissionDenied .. => .other "Permission denied (os error 13)"
  | .inappropriateType _ 20 _ => .notDirectory
  | .inappropriateType _ 21 _ => .isDirectory
  | .invalidArgument _ 36 _ => .nameTooLong
  | e => .other (toString e)

def readContent (path : String) : IO (Except FileFault ByteArray) := do
  try
    return .ok (← IO.FS.readBinFile path)
  catch e =>
    return .error (fileFault e)

def now : IO Timestamp := do
  let t ← Std.Time.Timestamp.now
  let nanos := t.toNanosecondsSinceUnixEpoch.val
  return (Timestamp.ofParts? (nanos / 1000000000) (nanos % 1000000000).toNat).getD default

def runTimed (o : Orchestrator) : IO (RunEnd × Invocation.Clock) := do
  let startedAt ← now
  let start ← IO.monoNanosNow
  let how ← IO.lazyPure fun _ => o.runOnce
  let stop ← IO.monoNanosNow
  let elapsed := stop - start
  return (how, {
    seconds := UInt64.ofNat (elapsed / 1000000000)
    nanos := UInt64.ofNat (elapsed % 1000000000)
    startedAt })

/-- What the program comes to for its arguments. -/
def exit (arguments : List String) : IO Exit := do
  match Invocation.parse arguments with
  | .error stop => return .ofStop stop
  | .ok i =>
    let content ← match i.config with
      | some path => readContent path
      | none => pure (.error .missing)
    match i.orchestrator fun _ => content with
    | .error failure => return .ofResult (.error failure)
    | .ok o =>
      let (how, clock) ← runTimed o
      return .ofResult (i.finish o how clock)

end LoadGenerator

def main (arguments : List String) : IO UInt32 := do
  let e ← LoadGenerator.exit arguments
  IO.print e.output
  match e.failure with
  | some text => IO.eprintln text
  | none => pure ()
  return UInt32.ofNat e.status
