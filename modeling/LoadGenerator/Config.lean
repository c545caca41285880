import LoadGenerator.Count
import LoadGenerator.Error
import LoadGenerator.Json.Record
import LoadGenerator.Json.Writer
import LoadGenerator.Target
import LoadGenerator.Text.Description
import LoadGenerator.WorkQueue

/-!
# Configurations

A `Config` says what a run is to do. `validate` makes five checks in a fixed order and reports the
first that fails. A configuration is read from a JSON file, in which every field may be left out,
and `toJson` writes it with all of them.
-/

namespace LoadGenerator

/-- What a worker does when a request gets no response. -/
inductive FailurePolicy where
  | goOn
  | abort
  deriving DecidableEq, Repr

namespace FailurePolicy

/-- The name in files. -/
def name : FailurePolicy → String
  | .goOn => "continue"
  | .abort => "abort"

def describe : FailurePolicy → String
  | .goOn => "Continue"
  | .abort => "Abort"

def known : List (String × FailurePolicy) :=
  [FailurePolicy.goOn, .abort].map fun p => (p.name, p)

def reader : Json.Reader FailurePolicy :=
  Json.enumeration known

end FailurePolicy

structure Config where
  target : String := "localhost:9000"
  totalRequests : UInt64 := 10000
  concurrency : UInt64 := 200
  queueCapacityMultiplier : UInt64 := 2
  failurePolicy : FailurePolicy := .goOn
  deriving DecidableEq, Repr, Inhabited

/-- The checks on a configuration that can fail, each with what is wrong. -/
inductive ConfigError where
  | concurrency (detail : String)
  | requestCount (detail : String)
  | queueCapacity (detail : String)
  | target (detail : String)
  deriving DecidableEq, Repr

namespace ConfigError

def message : ConfigError → String
  | .concurrency detail => s!"Invalid concurrency: {detail}"
  | .requestCount detail => s!"Invalid request count: {detail}"
  | .queueCapacity detail => s!"Invalid queue capacity: {detail}"
  | .target detail => s!"Invalid target: {detail}"

/-- The configuration error that reports the check. -/
def toError (e : ConfigError) : Error :=
  .config e.message

end ConfigError

namespace Config

/-- The capacity of the queue of a run, or the largest count where the product exceeds it. -/
def queueCapacity (c : Config) : UInt64 :=
  Count.mulCapped c.concurrency c.queueCapacityMultiplier

def parsedTarget (c : Config) : Except Error Target :=
  (Target.parse c.target).mapError fun e => .config e.message

/-- Makes the checks in their order. -/
def validate (c : Config) : Except ConfigError Unit :=
  if c.concurrency = 0 then .error (.concurrency "concurrency must be at least 1")
  else if c.totalRequests = 0 then .error (.requestCount "total requests must be at least 1")
  else if c.queueCapacityMultiplier = 0 then
    .error (.queueCapacity "queue capacity multiplier must be at least 1")
  else if !(Count.mul c.concurrency c.queueCapacityMultiplier).any
      (·.toNat ≤ WorkQueue.maxCapacity) then
    .error (.queueCapacity
      (s!"concurrency {c.concurrency} x multiplier {c.queueCapacityMultiplier} exceeds the " ++
        s!"maximum queue capacity {WorkQueue.maxCapacity}"))
  else
    match c.parsedTarget with
    | .error e => .error (.target e.message)
    | .ok _ => .ok ()

def describe (c : Config) : String :=
  Text.describe "RunConfig" [
    ("target", Text.quote c.target),
    ("total_requests", toString c.totalRequests),
    ("concurrency", toString c.concurrency),
    ("queue_capacity_multiplier", toString c.queueCapacityMultiplier),
    ("failure_policy", c.failurePolicy.describe)]

/-! ### Files -/

def members (c : Config) : List Json.Member := [
  ("target", Json.writeString c.target.toList),
  ("total_requests", Json.writeCount c.totalRequests),
  ("concurrency", Json.writeCount c.concurrency),
  ("queue_capacity_multiplier", Json.writeCount c.queueCapacityMultiplier),
  ("failure_policy", Json.writeString c.failurePolicy.name.toList)]

def toJson (c : Config) : String :=
  String.ofList (Json.writeCompact c.members)

/-- The fields that a file names. -/
structure Draft where
  target : Option String := none
  totalRequests : Option UInt64 := none
  concurrency : Option UInt64 := none
  queueCapacityMultiplier : Option UInt64 := none
  failurePolicy : Option FailurePolicy := none
  deriving DecidableEq, Repr

/-- A configuration with the fields of a draft replaced. -/
def override (c : Config) (d : Draft) : Config where
  target := d.target.getD c.target
  totalRequests := d.totalRequests.getD c.totalRequests
  concurrency := d.concurrency.getD c.concurrency
  queueCapacityMultiplier := d.queueCapacityMultiplier.getD c.queueCapacityMultiplier
  failurePolicy := d.failurePolicy.getD c.failurePolicy

/-- How a configuration is read: fields left out have their defaults. -/
def schema : Json.Schema Draft Config where
  name := "RunConfig"
  fields := [
    .ofOption "target" Draft.target (fun d s => { d with target := some s }) Json.stringValue,
    .ofOption "total_requests" Draft.totalRequests (fun d n => { d with totalRequests := some n })
      Json.count,
    .ofOption "concurrency" Draft.concurrency (fun d n => { d with concurrency := some n })
      Json.count,
    .ofOption "queue_capacity_multiplier" Draft.queueCapacityMultiplier
      (fun d n => { d with queueCapacityMultiplier := some n }) Json.count,
    .ofOption "failure_policy" Draft.failurePolicy (fun d p => { d with failurePolicy := some p })
      FailurePolicy.reader]
  empty := {}
  finish d := .ok (override {} d)

def ofJson (text : String) : Except Json.Error Config :=
  Json.decode schema.read text

/-- Reads a configuration from the content of a file, or from what is wrong with that. -/
def load : Except FileFault ByteArray → Except Error Config
  | .error fault => .error (.io fault)
  | .ok bytes =>
    match String.fromUTF8? bytes with
    | none => .error (.io .notText)
    | some text => (ofJson text).mapError .json

end Config

end LoadGenerator
