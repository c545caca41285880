import LoadGenerator.Counter
import LoadGenerator.Json.Record
import LoadGenerator.Json.Writer

/-!
# Summaries of completed runs

A `Summary` is what a completed run is reported by: as lines of text, or as a JSON object that can
be read again.
-/

namespace LoadGenerator

namespace Snapshot

def members (s : Snapshot) : List Json.Member := [
  ("successes", Json.writeCount s.successes),
  ("failures", Json.writeCount s.failures),
  ("transport_errors", Json.writeCount s.transportErrors)]

def toJson (s : Snapshot) : String :=
  String.ofList (Json.writeCompact s.members)

structure Draft where
  successes : Option UInt64 := none
  failures : Option UInt64 := none
  transportErrors : Option UInt64 := none
  deriving DecidableEq, Repr

/-- The snapshot of a draft, or the first field that it lacks. -/
def ofDraft (d : Draft) : Except String Snapshot := do
  .ok {
    successes := ← Json.require "successes" d.successes
    failures := ← Json.require "failures" d.failures
    transportErrors := ← Json.require "transport_errors" d.transportErrors }

def schema : Json.Schema Draft Snapshot where
  name := "CounterSnapshot"
  fields := [
    .ofOption "successes" Draft.successes (fun d n => { d with successes := some n }) Json.count,
    .ofOption "failures" Draft.failures (fun d n => { d with failures := some n }) Json.count,
    .ofOption "transport_errors" Draft.transportErrors
      (fun d n => { d with transportErrors := some n }) Json.count]
  empty := {}
  finish := ofDraft

def ofJson (text : String) : Except Json.Error Snapshot :=
  Json.decode schema.read text

end Snapshot

/-- What a completed run is reported by. -/
structure Summary where
  target : String
  totalRequests : UInt64
  successes : UInt64
  failures : UInt64
  transportErrors : UInt64
  concurrency : UInt64
  elapsedSecs : Binary64
  requestsPerSecond : Binary64
  startedAt : Timestamp
  deriving DecidableEq, Repr

namespace Summary

def secondsOf (seconds nanos : UInt64) : Binary64 :=
  let fraction := ((Binary64.ofCount nanos).div (Binary64.ofCount 1000000000)).getD .zero
  ((Binary64.ofCount seconds).add fraction).getD .zero

/-- The summary of a run. The number of requests answered is needed for the rate only, which is zero
when no time has passed. -/
def new (target : String) (totalRequests concurrency : UInt64) (counts : Snapshot)
    (seconds nanos : UInt64) (startedAt : Timestamp) : Except Overflow Summary := do
  let elapsed := secondsOf seconds nanos
  let rate ← if elapsed.isZero then .ok .zero else do
    let processed ← counts.processed
    .ok (((Binary64.ofCount processed).div elapsed).getD .zero)
  .ok {
    target, totalRequests, concurrency, startedAt
    successes := counts.successes
    failures := counts.failures
    transportErrors := counts.transportErrors
    elapsedSecs := elapsed
    requestsPerSecond := rate }

def successRate (s : Summary) : Binary64 :=
  if s.totalRequests = 0 then .zero
  else ((Binary64.ofCount s.successes).div (Binary64.ofCount s.totalRequests)).getD .zero

def successPercent (s : Summary) : Binary64 :=
  (s.successRate.mul (Binary64.ofCount 100)).getD .zero

def places (count : Nat) (x : Binary64) : String :=
  String.ofList (Decimal.fixed count x)

def display (s : Summary) : String :=
  "\n".intercalate [
    s!"Target:           {s.target}",
    s!"Total requests:   {s.totalRequests}",
    s!"Successes:        {s.successes} ({places 1 s.successPercent}%)",
    s!"Failures:         {s.failures} ({s.transportErrors} transport errors)",
    s!"Elapsed:          {places 3 s.elapsedSecs}s",
    s!"Throughput:       {places 1 s.requestsPerSecond} req/s"]

/-! ### JSON -/

def members (s : Summary) : List Json.Member := [
  ("target", Json.writeString s.target.toList),
  ("total_requests", Json.writeCount s.totalRequests),
  ("successes", Json.writeCount s.successes),
  ("failures", Json.writeCount s.failures),
  ("transport_errors", Json.writeCount s.transportErrors),
  ("concurrency", Json.writeCount s.concurrency),
  ("elapsed_secs", Decimal.write Json.realLayout s.elapsedSecs),
  ("requests_per_second", Decimal.write Json.realLayout s.requestsPerSecond),
  ("started_at", Json.writeString s.startedAt.write)]

def toJson (s : Summary) : String :=
  String.ofList (Json.writeCompact s.members)

/-- The summary as a JSON text with a line for each member. -/
def toPrettyJson (s : Summary) : String :=
  String.ofList (Json.writePretty s.members)

structure Draft where
  target : Option String := none
  totalRequests : Option UInt64 := none
  successes : Option UInt64 := none
  failures : Option UInt64 := none
  transportErrors : Option UInt64 := none
  concurrency : Option UInt64 := none
  elapsedSecs : Option Binary64 := none
  requestsPerSecond : Option Binary64 := none
  startedAt : Option Timestamp := none
  deriving DecidableEq, Repr

/-- The summary of a draft, or the first field that it lacks. -/
def ofDraft (d : Draft) : Except String Summary := do
  .ok {
    target := ← Json.require "target" d.target
    totalRequests := ← Json.require "total_requests" d.totalRequests
    successes := ← Json.require "successes" d.successes
    failures := ← Json.require "failures" d.failures
    transportErrors := ← Json.require "transport_errors" d.transportErrors
    concurrency := ← Json.require "concurrency" d.concurrency
    elapsedSecs := ← Json.require "elapsed_secs" d.elapsedSecs
    requestsPerSecond := ← Json.require "requests_per_second" d.requestsPerSecond
    startedAt := ← Json.require "started_at" d.startedAt }

def schema : Json.Schema Draft Summary where
  name := "RunStats"
  fields := [
    .ofOption "target" Draft.target (fun d s => { d with target := some s }) Json.stringValue,
    .ofOption "total_requests" Draft.totalRequests (fun d n => { d with totalRequests := some n })
      Json.count,
    .ofOption "successes" Draft.successes (fun d n => { d with successes := some n }) Json.count,
    .ofOption "failures" Draft.failures (fun d n => { d with failures := some n }) Json.count,
    .ofOption "transport_errors" Draft.transportErrors
      (fun d n => { d with transportErrors := some n }) Json.count,
    .ofOption "concurrency" Draft.concurrency (fun d n => { d with concurrency := some n })
      Json.count,
    .ofOption "elapsed_secs" Draft.elapsedSecs (fun d x => { d with elapsedSecs := some x })
      Json.realValue,
    .ofOption "requests_per_second" Draft.requestsPerSecond
      (fun d x => { d with requestsPerSecond := some x }) Json.realValue,
    .ofOption "started_at" Draft.startedAt (fun d t => { d with startedAt := some t })
      Json.timestamp]
  empty := {}
  finish := ofDraft

def ofJson (text : String) : Except Json.Error Summary :=
  Json.decode schema.read text

end Summary

end LoadGenerator
