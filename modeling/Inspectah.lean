import Inspectah.Aggregate.MergeExact
import Inspectah.Collect.CronText
import Inspectah.Collect.ScanWaves
import Inspectah.Refine.CleanSession
import Inspectah.Refine.ExportConfined
import Inspectah.Refine.FreshSession
import Inspectah.Refine.Isolation
import Inspectah.Refine.LockedExport
import Inspectah.Refine.MergedDefaults
import Inspectah.Refine.Parents
import Inspectah.Refine.Reproducible
import Inspectah.Refine.Roles
import Inspectah.Refine.Toggle
import Inspectah.Render.BooleanLines
import Inspectah.Render.CronUnits
import Inspectah.Render.ExportWriters
import Inspectah.Render.ServiceCarriage
import Inspectah.Collect.ConfigClassified
import Inspectah.Collect.ConfigUnread
import Inspectah.Collect.CronFields
import Inspectah.Collect.CronPreserved
import Inspectah.Collect.LeafClassification
import Inspectah.Collect.DependencyEdges
import Inspectah.Collect.PresetResolution
import Inspectah.Collect.SysctlPrecedence
import Inspectah.Collect.UnitOverrides
import Inspectah.Aggregate.RepoConflicts
import Inspectah.Aggregate.Validate
import Inspectah.Aggregate.Verdict
import Inspectah.Build.Extract
import Inspectah.Build.ExtractFaithful
import Inspectah.Collect.GroupMembers
import Inspectah.Collect.HostTree
import Inspectah.Collect.ManualWork
import Inspectah.Collect.PasswordFlow
import Inspectah.Collect.UnmanagedFiles
import Inspectah.Collect.UnmanagedInventory
import Inspectah.Refine.ReopenExport
import Inspectah.Aggregate.MergeFcontext
import Inspectah.Aggregate.MergeIdentities
import Inspectah.Aggregate.MergeVarDirs
import Inspectah.Library.LastWriter
import Inspectah.Refine.CascadeRefusals
import Inspectah.Refine.PasswordDecisions
import Inspectah.Refine.PreviewExport
import Inspectah.Refine.RepoCascade
import Inspectah.Refine.ShippedToggle
import Inspectah.Refine.UploadMatching
import Inspectah.Refine.UploadCommit
import Inspectah.Refine.UploadRemoval
import Inspectah.Render.PackagesAccounted
import Inspectah.Collect.Fcontexts
import Inspectah.Redact.CredentialsMasked
import Inspectah.Redact.Correlation
import Inspectah.Redact.Hints
import Inspectah.Redact.SecretsGone
import Inspectah.Render.FcontextStory
import Inspectah.Render.TmpfilesOwnership
import Inspectah.Collect.Connections
import Inspectah.Collect.RpmVerify
import Inspectah.Collect.CachedRpms
import Inspectah.Collect.RepoLaw
import Inspectah.Library.Fragments
import Inspectah.Collect.VarBacking
import Inspectah.Collect.VersionFaults
import Inspectah.Collect.WalkConfined
import Inspectah.Refine.PreviewMasked
import Inspectah.Refine.OrphanShadows
import Inspectah.Refine.PathZones
import Inspectah.Collect.Deduplicate
import Inspectah.Collect.MountTree
import Inspectah.Collect.Lockfiles
import Inspectah.Collect.VisitedOnce
import Inspectah.Build.SubscriptionBundle
import Inspectah.Collect.UsrPartition
import Inspectah.Redact.ComposeCovered
import Inspectah.Core.VersionClamp
import Inspectah.Core.RepoSegments
import Inspectah.Collect.NevraLines
import Inspectah.Core.ImageRef
import Inspectah.Redact.ValueSpans
import Inspectah.Collect.ComposeImages
