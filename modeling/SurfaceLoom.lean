import SurfaceLoom.AgentLoop.Merge
import SurfaceLoom.AgentLoop.Trace
import SurfaceLoom.AgentService.AgentTestService
import SurfaceLoom.AgentService.ArtifactManifest
import SurfaceLoom.AgentService.ArtifactPrograms
import SurfaceLoom.AgentService.ArtifactStore
import SurfaceLoom.AgentService.ArtifactStoreSafety
import SurfaceLoom.AgentService.CommandExecutor
import SurfaceLoom.AgentService.CommandRun
import SurfaceLoom.AgentService.CommandSafety
import SurfaceLoom.AgentService.RequestFingerprint
import SurfaceLoom.AgentService.RetriedStart
import SurfaceLoom.AgentService.RunArtifacts
import SurfaceLoom.AgentService.RunRecovery
import SurfaceLoom.AgentService.RunStore
import SurfaceLoom.AgentService.RunStoreInvariants
import SurfaceLoom.AgentService.RunStoreQueue
import SurfaceLoom.AgentService.RunVerdicts
import SurfaceLoom.AgentService.SafeData
import SurfaceLoom.AgentService.SignedStart
import SurfaceLoom.AgentService.SnapshotLifecycle
import SurfaceLoom.AgentService.SnapshotOwnership
import SurfaceLoom.AgentService.SnapshotRuns
import SurfaceLoom.AgentService.SnapshotSafety
import SurfaceLoom.AgentService.StoredRun
import SurfaceLoom.AgentService.Validation
import SurfaceLoom.Browser.ObservationBuffer
import SurfaceLoom.Browser.ObservationStreams
import SurfaceLoom.Browser.SessionObservations
import SurfaceLoom.Clipboard.Protocol
import SurfaceLoom.Clipboard.Ranges
import SurfaceLoom.Clipboard.ReceiverCalls
import SurfaceLoom.Clipboard.ReceiverFiles
import SurfaceLoom.Clipboard.ReceiverFinish
import SurfaceLoom.Clipboard.ReceiverIntegrity
import SurfaceLoom.Clipboard.ReferenceReceiver
import SurfaceLoom.Core.CaseSpec
import SurfaceLoom.Core.EvidenceGraph
import SurfaceLoom.Core.EvidenceGraphExact
import SurfaceLoom.Core.FixtureSafety
import SurfaceLoom.Core.FixtureSteps
import SurfaceLoom.Core.Fixtures
import SurfaceLoom.Judge.Data
import SurfaceLoom.Judge.Invocation
import SurfaceLoom.Judge.InvocationSafety
import SurfaceLoom.Judge.Outcome
import SurfaceLoom.Judge.Request
import SurfaceLoom.Judge.Router
import SurfaceLoom.Lib.Base64
import SurfaceLoom.Lib.Breadth
import SurfaceLoom.Lib.Checked
import SurfaceLoom.Lib.CodeUnits
import SurfaceLoom.Lib.Cursor
import SurfaceLoom.Lib.Decimal
import SurfaceLoom.Lib.DepthFirst
import SurfaceLoom.Lib.Elimination
import SurfaceLoom.Lib.FileStore
import SurfaceLoom.Lib.FileSystem
import SurfaceLoom.Lib.FileTree
import SurfaceLoom.Lib.FirstFree
import SurfaceLoom.Lib.Json
import SurfaceLoom.Lib.JsonParse
import SurfaceLoom.Lib.JsonReader
import SurfaceLoom.Lib.JsonText
import SurfaceLoom.Lib.JsonTokens
import SurfaceLoom.Lib.JsonWrite
import SurfaceLoom.Lib.Locked
import SurfaceLoom.Lib.Once
import SurfaceLoom.Lib.OrderedHistory
import SurfaceLoom.Lib.OrderedMap
import SurfaceLoom.Lib.Program
import SurfaceLoom.Lib.PromiseTail
import SurfaceLoom.Lib.Segments
import SurfaceLoom.Lib.SerialExecutor
import SurfaceLoom.Lib.StableSort
import SurfaceLoom.Lib.StringDecoder
import SurfaceLoom.Lib.Transition
import SurfaceLoom.Lib.Utf8
import SurfaceLoom.MacOS.BoundedTraversal
import SurfaceLoom.MacOS.OwnershipRegistry
import SurfaceLoom.MacOS.OwnershipRuns
import SurfaceLoom.MacOS.OwnershipSafety
import SurfaceLoom.Native.AtMostOnce
import SurfaceLoom.Native.BoundedStderr
import SurfaceLoom.Native.Client
import SurfaceLoom.Native.ClientRuns
import SurfaceLoom.Native.ClientSafety
import SurfaceLoom.Native.ClientTracking
import SurfaceLoom.Native.ClientViews
import SurfaceLoom.Native.ElementHandleRegistry
import SurfaceLoom.Native.Framing
import SurfaceLoom.Native.FramingGrammar
import SurfaceLoom.Native.InboundAgreement
import SurfaceLoom.Native.InboundFraming
import SurfaceLoom.Native.LateAcquisition
import SurfaceLoom.Native.MacDispatcher
import SurfaceLoom.Native.MacWireCodec
import SurfaceLoom.Native.MacWireForms
import SurfaceLoom.Native.NativeJSONValue
import SurfaceLoom.Native.RequestLifecycle
import SurfaceLoom.Native.StdoutFramer
import SurfaceLoom.Native.WindowsAddresses
import SurfaceLoom.Native.WindowsDispatcher
import SurfaceLoom.Native.WindowsIngest
import SurfaceLoom.Native.WindowsIngestSafety
import SurfaceLoom.Native.WindowsParser
import SurfaceLoom.Native.WindowsParserErrors
import SurfaceLoom.Native.WindowsWireForms
import SurfaceLoom.Native.Wire
import SurfaceLoom.Native.WireAgreement
import SurfaceLoom.Native.WireForms
import SurfaceLoom.Native.WireGrammar
import SurfaceLoom.Native.WireSchema
import SurfaceLoom.Native.WireSchemaForms
import SurfaceLoom.Native.WriteAdmission
import SurfaceLoom.Release.BuildOrder
import SurfaceLoom.Release.PackageGraph
import SurfaceLoom.Release.Shape
import SurfaceLoom.Reporter.TraceRedaction
import SurfaceLoom.Scripts.CSharpLexical
import SurfaceLoom.Scripts.ConditionalBlocks
import SurfaceLoom.Scripts.ConditionalCompilation
import SurfaceLoom.Scripts.ConditionalLineEnds
import SurfaceLoom.Scripts.SourceText
import SurfaceLoom.Scripts.StaticBooleanGrammar
import SurfaceLoom.Scripts.StrictJson
import SurfaceLoom.Scripts.StrictJsonGrammar
import SurfaceLoom.Scripts.SwiftLexical
import SurfaceLoom.Scripts.SwiftLineEnds
import SurfaceLoom.Test.Assertion
import SurfaceLoom.Test.AssertionSafety
import SurfaceLoom.Test.BoundedObservation
import SurfaceLoom.Test.BoundedSafety
import SurfaceLoom.Test.BrowserCleanup
import SurfaceLoom.Test.Deadline
import SurfaceLoom.Test.DeadlineOutcomes
import SurfaceLoom.Test.DeadlineSafety
import SurfaceLoom.Test.ExecutionGate
import SurfaceLoom.Test.ExecutionGateSafety
import SurfaceLoom.Test.InteractiveSession
import SurfaceLoom.Test.InteractiveSessionSafety
import SurfaceLoom.Test.Plan
import SurfaceLoom.Test.Policy
import SurfaceLoom.Test.ResourceSafety
import SurfaceLoom.Test.ResourceScope
import SurfaceLoom.Test.ResourceVerdict
import SurfaceLoom.Test.Worker
import SurfaceLoom.Test.WorkerSafety
