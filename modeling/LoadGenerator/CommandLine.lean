import LoadGenerator.Config
import LoadGenerator.Text.Numeral
import LoadGenerator.Text.Terminal

/-!
# The command line

`Invocation.parse` reads the arguments from left to right and stops at the first problem, or at a
request for help or for the version. An option that takes a value is complete when its value is
there and the next argument has been recognised; only then is the value looked at. Short options may
be written together, the value of the last of them attached; a value does not start with `-`, unless
it is attached or nothing but `-`.
-/

namespace LoadGenerator

inductive Flag where
  | config
  | target
  | requests
  | concurrency
  | queueMultiplier
  | failFast
  | json
  | verbose
  | help
  | version
  deriving DecidableEq, Repr

namespace Flag

/-- All options, in the order in which the help lists them. -/
def all : List Flag :=
  [.config, .target, .requests, .concurrency, .queueMultiplier, .failFast, .json, .verbose, .help,
    .version]

def long : Flag → String
  | .config => "config"
  | .target => "target"
  | .requests => "requests"
  | .concurrency => "concurrency"
  | .queueMultiplier => "queue-multiplier"
  | .failFast => "fail-fast"
  | .json => "json"
  | .verbose => "verbose"
  | .help => "help"
  | .version => "version"

def short? : Flag → Option Char
  | .target => some 't'
  | .requests => some 'n'
  | .concurrency => some 'c'
  | .verbose => some 'v'
  | .help => some 'h'
  | .version => some 'V'
  | _ => none

def value? : Flag → Option String
  | .config => some "FILE"
  | .target => some "HOST:PORT"
  | .requests => some "N"
  | .concurrency => some "N"
  | .queueMultiplier => some "N"
  | _ => none

def purpose : Flag → String
  | .config => "JSON config file; flags override its values"
  | .target => "Target address"
  | .requests => "Number of requests to send"
  | .concurrency => "Number of workers (requests in flight)"
  | .queueMultiplier => "Queue capacity as a multiple of the concurrency"
  | .failFast => "Abort the whole run on the first transport error"
  | .json => "Print the summary as JSON"
  | .verbose => "Enable verbose logging (per-response status and headers)"
  | .help => "Print help"
  | .version => "Print version"

/-- The long name with its dashes and the name of the value. -/
def display (flag : Flag) : String :=
  match flag.value? with
  | some value => s!"--{flag.long} <{value}>"
  | none => s!"--{flag.long}"

def ofLong? (name : String) : Option Flag :=
  all.find? (·.long == name)

def ofShort? (c : Char) : Option Flag :=
  all.find? (·.short? == some c)

/-- The names in the list of options. -/
def listed (flag : Flag) : String :=
  match flag.short? with
  | some c => s!"  -{c}, {flag.display}"
  | none => s!"      {flag.display}"

/-- The width of the names in the list of options, with a gap. -/
def column : Nat :=
  ((all.map fun flag => flag.listed.length).foldl max 0) + 2

def helpLine (flag : Flag) : String :=
  flag.listed ++ String.ofList (List.replicate (column - flag.listed.length) ' ') ++ flag.purpose

end Flag

/-- Why the arguments are not taken as they are. -/
inductive Stop where
  | help
  | version
  | unknown (argument : String)
  | missingValue (flag : Flag)
  | invalidValue (flag : Flag) (value : String) (fault : NumeralFault)
  | repeated (flag : Flag)
  | unneededValue (flag : Flag) (value : String)
  deriving DecidableEq, Repr

namespace Stop

def versionText : String := "qload 0.1.0\n"

/-- What the program is for, how it is called, and its options. -/
def helpText : String :=
  "qload - queue-driven concurrent HTTP load generator\n\nUsage: qload [OPTIONS]\n\nOptions:\n" ++
    String.join (Flag.all.map fun flag => flag.helpLine ++ "\n")

def isRequest : Stop → Bool
  | .help => true
  | .version => true
  | _ => false

/-- What is said. Of what the arguments hold, no more is repeated than a terminal shows. -/
def message : Stop → String
  | .help => helpText
  | .version => versionText
  | .unknown argument => s!"error: unexpected argument '{Text.Terminal.visible argument}' found"
  | .missingValue flag =>
    s!"error: a value is required for '{flag.display}' but none was supplied"
  | .invalidValue flag value fault =>
    let shown := Text.Terminal.visible value
    s!"error: invalid value '{shown}' for '{flag.display}': {fault.message}"
  | .repeated flag => s!"error: the argument '{flag.display}' cannot be used multiple times"
  | .unneededValue flag value =>
    let shown := Text.Terminal.visible value
    s!"error: unexpected value '{shown}' for '{flag.display}' found; no more were expected"

end Stop

structure Invocation where
  config : Option String := none
  target : Option String := none
  requests : Option UInt64 := none
  concurrency : Option UInt64 := none
  queueMultiplier : Option UInt64 := none
  failFast : Bool := false
  json : Bool := false
  verbose : Bool := false
  deriving DecidableEq, Repr

namespace Invocation

def has (i : Invocation) : Flag → Bool
  | .config => i.config.isSome
  | .target => i.target.isSome
  | .requests => i.requests.isSome
  | .concurrency => i.concurrency.isSome
  | .queueMultiplier => i.queueMultiplier.isSome
  | .failFast => i.failFast
  | .json => i.json
  | .verbose => i.verbose
  | .help => false
  | .version => false

def readCount (flag : Flag) (value : String) : Except Stop UInt64 :=
  (Numeral.readUInt64 value.toList).mapError (.invalidValue flag value)

/-- Gives an option its value, once. -/
def assign (i : Invocation) (flag : Flag) (value : String) : Except Stop Invocation :=
  if i.has flag then .error (.repeated flag)
  else
    match flag with
    | .config =>
      if value.isEmpty then .error (.missingValue flag) else .ok { i with config := some value }
    | .target => .ok { i with target := some value }
    | .requests => (readCount flag value).map fun n => { i with requests := some n }
    | .concurrency => (readCount flag value).map fun n => { i with concurrency := some n }
    | .queueMultiplier => (readCount flag value).map fun n => { i with queueMultiplier := some n }
    | _ => .error (.unneededValue flag value)

/-- Gives an option without a value, once. -/
def raise (i : Invocation) (flag : Flag) : Except Stop Invocation :=
  if i.has flag then .error (.repeated flag)
  else
    match flag with
    | .help => .error .help
    | .version => .error .version
    | .failFast => .ok { i with failFast := true }
    | .json => .ok { i with json := true }
    | .verbose => .ok { i with verbose := true }
    | _ => .error (.missingValue flag)

/-! ### Reading the arguments -/

/-- What has been read: the options that are complete, and one that may wait for its value. -/
structure Reading where
  complete : Invocation := {}
  pending : Option (Flag × Option String) := none
  deriving DecidableEq, Repr

namespace Reading

/-- Completes the option that is pending. -/
def resolve (r : Reading) : Except Stop Invocation :=
  match r.pending with
  | none => .ok r.complete
  | some (flag, none) => .error (.missingValue flag)
  | some (flag, some value) => r.complete.assign flag value

/-- An option that takes a value, which may be attached. -/
def valued (r : Reading) (flag : Flag) (attached : Option String) : Except Stop Reading := do
  let i ← r.resolve
  match attached with
  | some value => return { complete := ← i.assign flag value }
  | none => return { complete := i, pending := some (flag, none) }

/-- An option that takes no value. -/
def plain (r : Reading) (flag : Flag) : Except Stop Reading := do
  return { complete := ← (← r.resolve).raise flag }

def long (r : Reading) (name : String) (attached : Option String) : Except Stop Reading :=
  match Flag.ofLong? name with
  | none => .error (.unknown s!"--{name}")
  | some flag =>
    if flag.value?.isSome then r.valued flag attached
    else
      match attached with
      | some value => .error (.unneededValue flag value)
      | none => r.plain flag

/-- What is attached to a short option; an equals sign before it does not count. -/
def attachment : List Char → Option String
  | [] => none
  | '=' :: value => some (String.ofList value)
  | value => some (String.ofList value)

def short (r : Reading) : List Char → Except Stop Reading
  | [] => .ok r
  | c :: cs =>
    match Flag.ofShort? c with
    | none => .error (.unknown (String.ofList ['-', c]))
    | some flag =>
      if flag.value?.isSome then r.valued flag (attachment cs)
      else
        match r.plain flag with
        | .ok r => r.short cs
        | .error stop => .error stop

/-- An argument that is no option: the value that is waited for. -/
def value (r : Reading) (argument : String) : Except Stop Reading :=
  match r.pending with
  | some (flag, none) => .ok { r with pending := some (flag, some argument) }
  | _ => .error (.unknown argument)

/-- The parts of a long option before and after its first equals sign. -/
def splitLong (cs : List Char) : String × Option String :=
  (String.ofList (cs.takeWhile (· ≠ '=')),
    match cs.dropWhile (· ≠ '=') with
    | [] => none
    | _ :: value => some (String.ofList value))

def next (r : Reading) (argument : String) : Except Stop Reading :=
  match argument.toList with
  | '-' :: '-' :: cs => let (name, attached) := splitLong cs; r.long name attached
  | '-' :: c :: cs => r.short (c :: cs)
  | _ => r.value argument

/-- Reads all arguments. After `--` nothing may follow. -/
def all (r : Reading) : List String → Except Stop Invocation
  | [] => r.resolve
  | argument :: rest =>
    if argument = "--" then
      match rest with
      | [] => r.resolve
      | stray :: _ => .error (.unknown stray)
    else do
      let r ← r.next argument
      r.all rest

end Reading

def parse (arguments : List String) : Except Stop Invocation :=
  Reading.all {} arguments

/-! ### The configuration -/

/-- The fields of the configuration that the arguments give. -/
def draft (i : Invocation) : Config.Draft where
  target := i.target
  totalRequests := i.requests
  concurrency := i.concurrency
  queueCapacityMultiplier := i.queueMultiplier
  failurePolicy := if i.failFast then some .abort else none

/-- What there is at a path: the content of a file, or what is wrong with that. -/
abbrev Files := String → Except FileFault ByteArray

/-- The configuration: what the arguments give over what the file says, if one is named. -/
def configure (i : Invocation) (files : Files) : Except Error Config :=
  match i.config with
  | none => .ok (Config.override {} i.draft)
  | some path => (Config.load (files path)).map (·.override i.draft)

end Invocation

end LoadGenerator
