import FpsMaxxing.Apps.Processes
import FpsMaxxing.Apps.Refinement
import FpsMaxxing.Apps.Scan
import FpsMaxxing.Apps.Spec
import FpsMaxxing.Broker.Arguments
import FpsMaxxing.Broker.ArgumentsSpec
import FpsMaxxing.Broker.Connection
import FpsMaxxing.Broker.ConnectionSpec
import FpsMaxxing.Broker.Instances
import FpsMaxxing.Broker.Leases
import FpsMaxxing.Broker.Locations
import FpsMaxxing.Broker.Ownership
import FpsMaxxing.Broker.Service
import FpsMaxxing.Broker.Worker
import FpsMaxxing.Broker.WorkerSpec
import FpsMaxxing.Contracts.Ipc
import FpsMaxxing.Contracts.Lookup
import FpsMaxxing.Contracts.Request
import FpsMaxxing.Contracts.Schema
import FpsMaxxing.Contracts.Shapes
import FpsMaxxing.Contracts.Text
import FpsMaxxing.Contracts.Trial
import FpsMaxxing.Contracts.Value
import FpsMaxxing.Contracts.Wire
import FpsMaxxing.Dispatch.Discipline
import FpsMaxxing.Dispatch.Log
import FpsMaxxing.Effects.Checks
import FpsMaxxing.Effects.Composed
import FpsMaxxing.Effects.Log
import FpsMaxxing.Effects.Monitor
import FpsMaxxing.Effects.Pool
import FpsMaxxing.Effects.Program
import FpsMaxxing.Effects.Relational
import FpsMaxxing.Effects.Runs
import FpsMaxxing.Files.Guarded
import FpsMaxxing.Files.Path
import FpsMaxxing.Files.Tree
import FpsMaxxing.Files.Users
import FpsMaxxing.Files.Walk
import FpsMaxxing.Gateway.Server
import FpsMaxxing.Gateway.Session
import FpsMaxxing.Host.Calls
import FpsMaxxing.Host.ControlPlane
import FpsMaxxing.Host.Journal
import FpsMaxxing.Host.Ledger
import FpsMaxxing.Host.LifecycleEffect
import FpsMaxxing.Host.LifecycleSpec
import FpsMaxxing.Host.PassEffect
import FpsMaxxing.Host.PassJournal
import FpsMaxxing.Host.PassLog
import FpsMaxxing.Host.PassSpec
import FpsMaxxing.Host.Play
import FpsMaxxing.Host.Processes
import FpsMaxxing.Host.Provider
import FpsMaxxing.Host.Scan
import FpsMaxxing.Host.Trials
import FpsMaxxing.Host.Watchdog
import FpsMaxxing.Ipc.Frame
import FpsMaxxing.Ipc.FrameSpec
import FpsMaxxing.Ipc.RoundTrip
import FpsMaxxing.Numeric.Machine
import FpsMaxxing.Recovery.Baseline
import FpsMaxxing.Recovery.Passes
import FpsMaxxing.Recovery.Unended
import FpsMaxxing.Recovery.Whole
import FpsMaxxing.Runner.Evaluator
import FpsMaxxing.Runner.Gate
import FpsMaxxing.Runner.Honest
import FpsMaxxing.Runner.Model
import FpsMaxxing.Runner.Modeled
import FpsMaxxing.Runner.Published
import FpsMaxxing.Runner.Record
import FpsMaxxing.Runner.Trial
import FpsMaxxing.Runner.Verdict
import FpsMaxxing.Safety.Advertised
import FpsMaxxing.Safety.AuditTrail
import FpsMaxxing.Safety.BoundedPolicy
import FpsMaxxing.Safety.CrashRecovery
import FpsMaxxing.Safety.Denial
import FpsMaxxing.Safety.Echo
import FpsMaxxing.Safety.Envelope
import FpsMaxxing.Safety.FailedRestore
import FpsMaxxing.Safety.FailureRows
import FpsMaxxing.Safety.HonestReplay
import FpsMaxxing.Safety.HostDetail
import FpsMaxxing.Safety.JournalRows
import FpsMaxxing.Safety.LeaseExpiry
import FpsMaxxing.Safety.OneService
import FpsMaxxing.Safety.Overlap
import FpsMaxxing.Safety.Parameters
import FpsMaxxing.Safety.Reclaim
import FpsMaxxing.Safety.Redirect
import FpsMaxxing.Safety.Refusal
import FpsMaxxing.Safety.RepeatedCrash
import FpsMaxxing.Safety.Restore
import FpsMaxxing.Safety.SecondOwner
import FpsMaxxing.Safety.SingleDriver
import FpsMaxxing.Safety.StaleRollback
import FpsMaxxing.Safety.Tamper
import FpsMaxxing.Safety.Telemetry
import FpsMaxxing.Safety.Terminal
import FpsMaxxing.Safety.TrialOutcome
import FpsMaxxing.Safety.Validators
import FpsMaxxing.Streams.Chunked
import FpsMaxxing.Streams.Lines
import FpsMaxxing.Recovery.Operation
import FpsMaxxing.Broker.Serve
import FpsMaxxing.Broker.ServeSpec
import FpsMaxxing.Effects.Registry
import FpsMaxxing.Recovery.Registry
import FpsMaxxing.Apps.Journal
import FpsMaxxing.Host.Polling
import FpsMaxxing.Ipc.Socket
import FpsMaxxing.Broker.Link
import FpsMaxxing.Ipc.SocketSpec
import FpsMaxxing.Broker.LinkSpec
import FpsMaxxing.Effects.Amid
import FpsMaxxing.Files.Seat
import FpsMaxxing.Files.Seated
import FpsMaxxing.Broker.Startup
import FpsMaxxing.Broker.StartupSpec
import FpsMaxxing.Broker.Asking
import FpsMaxxing.Numeric.Binary64
import FpsMaxxing.Broker.Refusal
import FpsMaxxing.Broker.LinkAnswers
import FpsMaxxing.Broker.LinkRounds
