import OpencodeSwarm.Plan.StalenessToken
import OpencodeSwarm.Plan.SaveCrash
import OpencodeSwarm.Gate.RequiredGates
import OpencodeSwarm.PrReview.Persisted
import OpencodeSwarm.Trace.IssueTraceSafety
import OpencodeSwarm.Plan.TruncatedRecovery
import OpencodeSwarm.Workflow.SettlementOnce
import OpencodeSwarm.Scope.DisjointAuthority
import OpencodeSwarm.Parallel.OwnerLockSafety
import OpencodeSwarm.Coordination.EventRun
import OpencodeSwarm.Coordination.StaleWrite
import OpencodeSwarm.Knowledge.FairScan
import OpencodeSwarm.PrFeedback.QueueProvenance
import OpencodeSwarm.Council.AuditRecovery
import OpencodeSwarm.PrFeedback.LoopBudget
import OpencodeSwarm.Background.RecentTombstones
import OpencodeSwarm.Background.StageBScope
import OpencodeSwarm.Failures.LateFailures
import OpencodeSwarm.Prm.LadderIndependence
import OpencodeSwarm.Receipts.ReceiptLockSafety
import OpencodeSwarm.Retention.NewestRecords
import OpencodeSwarm.Memory.StaysDeleted
import OpencodeSwarm.Plan.PhaseStatus
import OpencodeSwarm.Background.QueueBound
import OpencodeSwarm.Db.DurabilityRestored
import OpencodeSwarm.Db.GroupCommitRun
import OpencodeSwarm.Dispatch.BucketWindow
import OpencodeSwarm.Dispatch.SpawnEpisode
import OpencodeSwarm.Epic.PhaseSchedule
import OpencodeSwarm.Patch.LineFrame
import OpencodeSwarm.PrReview.ProbeAdmission
import OpencodeSwarm.Turbo.LaneDependencies
import OpencodeSwarm.Plan.SnapshotMeaning
import OpencodeSwarm.Background.LoopProtection
import OpencodeSwarm.Council.Synthesis
import OpencodeSwarm.Epic.ConnectedComponents
import OpencodeSwarm.Knowledge.MergeTree
import OpencodeSwarm.Plan.ContentHash
import OpencodeSwarm.Plan.SerialOrder
import OpencodeSwarm.PrReview.FindingSynthesis
import OpencodeSwarm.Prm.TrajectoryRun
import OpencodeSwarm.Scope.CheckerAgreement
import OpencodeSwarm.Utils.AdvisoryQueue
import OpencodeSwarm.Utils.DeepMerge
import OpencodeSwarm.Utils.SpecDiff
import OpencodeSwarm.Utils.StableStringify
import OpencodeSwarm.Utils.UntrustedMarkdown
import OpencodeSwarm.Background.CircuitBreaker
import OpencodeSwarm.Background.QueueDispatch
import OpencodeSwarm.Patch.PatchRun
import OpencodeSwarm.Text.RatioBounds
