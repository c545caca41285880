import LoadGenerator.Bench
import LoadGenerator.Cancellation.Session
import LoadGenerator.Main
import LoadGenerator.WorkQueue.Session
import LoadGenerator.Proofs.CallLog
import LoadGenerator.Proofs.Engine.Crew
import LoadGenerator.Proofs.WorkQueue.Dealings
import LoadGenerator.Proofs.Waitlist
import LoadGenerator.Proofs.WorkQueue.Lines
import LoadGenerator.Proofs.WorkQueue.Requests
import LoadGenerator.Proofs.WorkQueue.Order
import LoadGenerator.Proofs.WorkQueue.Slots
import LoadGenerator.Proofs.WorkQueue.Rest
import LoadGenerator.Proofs.WorkQueue.Notices
import LoadGenerator.Proofs.WorkQueue.Outstanding
import LoadGenerator.Proofs.WorkQueue.Closing
import LoadGenerator.Proofs.WorkQueue.Serving
import LoadGenerator.Proofs.WorkQueue.Turns
import LoadGenerator.Proofs.Engine.Moves
import LoadGenerator.Proofs.Run.Crew
import LoadGenerator.Proofs.Run.Accounts
import LoadGenerator.Proofs.Run.Counts
import LoadGenerator.Proofs.Run.Stages
import LoadGenerator.Proofs.Run.Invariant
import LoadGenerator.Proofs.Run.Conservation
import LoadGenerator.Proofs.Run.Completion
import LoadGenerator.Proofs.Run.Readiness
import LoadGenerator.Proofs.Run.Progress
import LoadGenerator.Proofs.Run.Places
import LoadGenerator.Proofs.Run.Effort
import LoadGenerator.Proofs.Run.Settling
import LoadGenerator.Proofs.Run.Cancellation
import LoadGenerator.Proofs.Run.Verdict
import LoadGenerator.Proofs.Run.Stranding
import LoadGenerator.Proofs.Engine.Tasks
import LoadGenerator.Proofs.Engine.Rest
import LoadGenerator.Proofs.Engine.WindingDown
import LoadGenerator.Proofs.Run.Dismissal
import LoadGenerator.Proofs.Orchestrator.Deeds
import LoadGenerator.Proofs.Run.Causes
import LoadGenerator.Proofs.Orchestrator.Course
import LoadGenerator.Proofs.Orchestrator.Independence
import LoadGenerator.Proofs.Config.Validation
import LoadGenerator.Proofs.Orchestrator.Starting
import LoadGenerator.Proofs.Program.ExitStatus
import LoadGenerator.Proofs.Cancellation.Families
import LoadGenerator.Proofs.Cancellation.Wakeups
import LoadGenerator.Proofs.Pool.Roster
import LoadGenerator.Proofs.Pool.Holdings
import LoadGenerator.Proofs.Pool.Books
import LoadGenerator.Proofs.Pool.Invariant
import LoadGenerator.Proofs.Pool.Exhaustion
import LoadGenerator.Proofs.Pool.Deeds
import LoadGenerator.Proofs.Pool.Shutdown
import LoadGenerator.Proofs.Worker.Tallying
import LoadGenerator.Proofs.Worker.Course
import LoadGenerator.Proofs.Worker.Service
import LoadGenerator.Proofs.Engine.Notices
import LoadGenerator.Proofs.Engine.Switchboard
import LoadGenerator.Proofs.Run.Happenings
import LoadGenerator.Proofs.Run.Switchboard
import LoadGenerator.Proofs.Json.Values
import LoadGenerator.Proofs.Json.Objects
import LoadGenerator.Proofs.Config.Files
import LoadGenerator.Proofs.Json.Grammar
import LoadGenerator.Proofs.Json.Skipping
import LoadGenerator.Proofs.Json.Spellings
import LoadGenerator.Proofs.Json.Agreement
import LoadGenerator.Proofs.Json.Records
import LoadGenerator.Proofs.Config.Overrides
import LoadGenerator.Proofs.Target.Grammar
import LoadGenerator.Proofs.Target.Url
import LoadGenerator.Proofs.Target.Display
import LoadGenerator.Proofs.Json.Truncation
import LoadGenerator.Proofs.Config.Truncation
import LoadGenerator.Proofs.Json.Soundness
import LoadGenerator.Proofs.Config.Loading
import LoadGenerator.Proofs.CommandLine.Settings
import LoadGenerator.Proofs.CommandLine.Arguments
import LoadGenerator.Proofs.CommandLine.Layers
import LoadGenerator.Proofs.Worker.Sharing
import LoadGenerator.Proofs.Worker.Spread
import LoadGenerator.Proofs.WorkSource
import LoadGenerator.Proofs.Timestamp.Calendar
import LoadGenerator.Proofs.Timestamp.Reading
import LoadGenerator.Proofs.Number.Rounding
import LoadGenerator.Proofs.Number.Shortest
import LoadGenerator.Proofs.Json.Reals
import LoadGenerator.Proofs.Json.Decimals
import LoadGenerator.Proofs.Summary
