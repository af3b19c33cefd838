import RcloneSync.UnicodeTables
import RcloneSync.PyText
import RcloneSync.PosixPath
import RcloneSync.PyValue
import RcloneSync.Json
import RcloneSync.JsonDecode
import RcloneSync.JsonRoundTrip
import RcloneSync.Runs
import RcloneSync.Tables
import RcloneSync.BoundedJson
import RcloneSync.RestoreEvidence
import RcloneSync.JobStore
import RcloneSync.TerminalIntent
import RcloneSync.SingleTermination
import RcloneSync.JobRetention
import RcloneSync.BaselineState
import RcloneSync.FinishPaths
import RcloneSync.PairPlanner
import RcloneSync.RcloneArgs
import RcloneSync.ArgScan
import RcloneSync.FirstMatch
import RcloneSync.PairCommand
import RcloneSync.FilterCompile
import RcloneSync.DeleteBound
import RcloneSync.Protection
import RcloneSync.GuardCoverage
import RcloneSync.Quarantine
import RcloneSync.Grants
import RcloneSync.AuthStore
import RcloneSync.OneTimeGrants
import RcloneSync.Leases
import RcloneSync.PushOutbox
import RcloneSync.PushDelivery
import RcloneSync.VaultUpload
import RcloneSync.PairRunner
import RcloneSync.CronSlots
import RcloneSync.ExclusiveScopes
import RcloneSync.PairRows
import RcloneSync.DrillEvidence
import RcloneSync.DueCleanup
import RcloneSync.VaultBlobs
import RcloneSync.HandoverImport
import RcloneSync.RestoreDrill
import RcloneSync.DrillRecord
import RcloneSync.EndpointSpelling
import RcloneSync.Acknowledge
import RcloneSync.ShortFlags
import RcloneSync.Regex
import RcloneSync.ProgressTracker
import RcloneSync.FilterDecision
import RcloneSync.FilterPasses
import RcloneSync.GuardMeasurement
import RcloneSync.ScheduleOrder
import RcloneSync.DueDecision
import RcloneSync.RetryBackoff
import RcloneSync.Base64
import RcloneSync.HandoverPackage
import RcloneSync.HandoverExport
import RcloneSync.HistoryLookup
import RcloneSync.NotificationKeys
import RcloneSync.PasskeyCounter
import RcloneSync.LoginFailures
import RcloneSync.GuessingRate
import RcloneSync.PairEndpoints
import RcloneSync.NestedTargets
import RcloneSync.ConfigRedaction
import RcloneSync.PreservedSecrets
import RcloneSync.ConfigStore
import RcloneSync.JobBatches
import RcloneSync.BatchRecovery
import RcloneSync.BudgetedChoice
import RcloneSync.SampleSelection
import RcloneSync.Effects
import RcloneSync.VaultCompletion
import RcloneSync.Replacements
import RcloneSync.RuntimeRollback
import RcloneSync.SnapshotPruning
import RcloneSync.IpAddress
import RcloneSync.ClientAddress
import RcloneSync.RecoveryPointIds
import RcloneSync.PointComparison
import RcloneSync.ConfigDiff
import RcloneSync.JsonPrefix
import RcloneSync.JsonPieces
import RcloneSync.RemoteListing
import RcloneSync.ListingText
import RcloneSync.Utf8
import RcloneSync.UrlText
import RcloneSync.SecretRedaction
import RcloneSync.JobDisplay
import RcloneSync.SchedulerPause
import RcloneSync.SharedBudget
import RcloneSync.RecoveryCommand
import RcloneSync.RunAllRequest
import RcloneSync.LogTail
import RcloneSync.ConfigFreshness
import RcloneSync.OverdueAlerts
import RcloneSync.Masking
import RcloneSync.CommandRedaction
import RcloneSync.RestorePlanDraft
import RcloneSync.RecoveryBrowserLoadState
import RcloneSync.HiddenPaths
import RcloneSync.RestorePlanGaps
import RcloneSync.FlagDedupe
import RcloneSync.ProgressReading
import RcloneSync.SizeFlights
import RcloneSync.RestoreWorkspaces
import RcloneSync.StagingBudget
import RcloneSync.JsonSize
import RcloneSync.FlatRecords
import RcloneSync.PbsBackup
import RcloneSync.PbsRetention
import RcloneSync.StackTraversal
import RcloneSync.BoundedWalk
import RcloneSync.RestoreSelection
import RcloneSync.RestoreManifest
import RcloneSync.SelectiveRestore
