import AgenticSoc.Interleaving
import AgenticSoc.Grouping
import AgenticSoc.BlackboardStorageRuns
import AgenticSoc.BlackboardSystem
import AgenticSoc.BlackboardProtocol
import AgenticSoc.BlackboardTrace
import AgenticSoc.BlackboardAgreement
import AgenticSoc.BlackboardReads
import AgenticSoc.BlackboardHistories
import AgenticSoc.BlackboardFailedQuorum
import AgenticSoc.BlackboardAvailability
import AgenticSoc.BlackboardNextVersion
import AgenticSoc.JsonText
import AgenticSoc.PythonJson
import AgenticSoc.BlackboardFirewall
import AgenticSoc.BlackboardRoundTrip
import AgenticSoc.OrchestrationFirewall
import AgenticSoc.OrchestrationMessages
import AgenticSoc.OrchestrationRound
import AgenticSoc.Sha256
import AgenticSoc.OrchestrationDecision
import AgenticSoc.JsonSize
import AgenticSoc.OrchestrationReplica
import AgenticSoc.OrchestrationHonest
import AgenticSoc.OrchestrationOrder
import AgenticSoc.OrchestrationCoordinator
import AgenticSoc.OrchestrationIdentity
import AgenticSoc.OrchestrationAccounting
import AgenticSoc.EventPublishing
import AgenticSoc.Procedure
import AgenticSoc.WorkflowGateway
import AgenticSoc.EventDelivery
import AgenticSoc.DeviceAbm
import AgenticSoc.FindingGateway
import AgenticSoc.WorkflowReadiness
import AgenticSoc.WorkflowService
import AgenticSoc.WorkflowDispatch
import AgenticSoc.WorkflowWindows
import AgenticSoc.WorkflowOutcomes
import AgenticSoc.ByteOrder
import AgenticSoc.PcapReader
import AgenticSoc.PcapContent
import AgenticSoc.PcapFraming
import AgenticSoc.PcapCaptures
import AgenticSoc.StableOrder
import AgenticSoc.WindowSorter
import AgenticSoc.ReplayRunner
import AgenticSoc.ReplayMerge
import AgenticSoc.ReplayWorkflow
import AgenticSoc.WorkflowSteps
import AgenticSoc.ReplaySteps
import AgenticSoc.GatewayOrder
import AgenticSoc.WorkflowScience
import AgenticSoc.ReplayPaths
import AgenticSoc.EventWindows
import AgenticSoc.LiveTables
import AgenticSoc.WatermarkedTables
import AgenticSoc.DeviceInventory
import AgenticSoc.FeatureStatistics
import AgenticSoc.NetworkFeatures
import AgenticSoc.Collecting
import AgenticSoc.NetworkCounts
import AgenticSoc.CommunicationRecords
import AgenticSoc.CommunicationCounts
import AgenticSoc.BehaviorFeatures
import AgenticSoc.EventSequences
import AgenticSoc.BehaviorCounts
import AgenticSoc.ExactlyOnce
import AgenticSoc.RowAgreement
import AgenticSoc.BlackboardSolo
import AgenticSoc.BlackboardStaging
import AgenticSoc.ClassicPcap
import AgenticSoc.BlackboardSyncMap
import AgenticSoc.BlackboardValidRecords
import AgenticSoc.BlackboardResync
import AgenticSoc.BlackboardTransactions
import AgenticSoc.BlackboardViews
import AgenticSoc.BlackboardSnapshots
import AgenticSoc.BlackboardListings
import AgenticSoc.BlackboardKeyPatterns
import AgenticSoc.BlackboardSnapshotAvailability
import AgenticSoc.ReplayStepping
import AgenticSoc.ReplayEndings
import AgenticSoc.DashboardState
import AgenticSoc.DashboardSynchronizer
import AgenticSoc.DashboardIsolation
import AgenticSoc.DashboardConvergence
import AgenticSoc.LatenessGuarantee
import AgenticSoc.RiskPropagation
import AgenticSoc.ThreatCorrelator
import AgenticSoc.ReplayRestart
import AgenticSoc.OrchestrationDigests
import AgenticSoc.ActionLookup
import AgenticSoc.GatewayAccounting
import AgenticSoc.NetworkArrival
import AgenticSoc.Calendar
import AgenticSoc.IsoTimestamps
import AgenticSoc.BehaviorRanges
import AgenticSoc.PresenceBitmap
import AgenticSoc.SessionSplits
import AgenticSoc.PcapRobustness
import AgenticSoc.FrameDecoder
import AgenticSoc.VlanTags
import AgenticSoc.FrameContent
import AgenticSoc.FrameRoundTrip
import AgenticSoc.FeatureStore
import AgenticSoc.FeatureParts
import AgenticSoc.FeatureRoundTrip
import AgenticSoc.TelemetryLines
import AgenticSoc.AccessDecisions
import AgenticSoc.CommunicationGraph
import AgenticSoc.EnforcedDecisions
import AgenticSoc.PresentationGraph
import AgenticSoc.ReplayedGraph
import AgenticSoc.StoreRecovery
