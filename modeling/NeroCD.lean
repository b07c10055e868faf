import NeroCD.Admission
import NeroCD.BackupRetention.Fixpoint
import NeroCD.BackupSchedule
import NeroCD.BuildContext
import NeroCD.BuildOutput
import NeroCD.HostingProxy.Delegation
import NeroCD.Identity.Offboarding
import NeroCD.ImageExport
import NeroCD.Interpolation.Theorems
import NeroCD.Journal.Evidence
import NeroCD.Journal.Identifiers
import NeroCD.JsonUnicode
import NeroCD.LogFramer
import NeroCD.RuntimeLogs.Lines
import NeroCD.SecretCrypto
import NeroCD.SourcePolicy
import NeroCD.StackExecution.Health
import NeroCD.StorageArchive
import NeroCD.Store.Fencing
import NeroCD.Store.Retention
import NeroCD.Store.Revocation
import NeroCD.Store.Rollouts
import NeroCD.Store.Starvation
import NeroCD.Workflows.Theorems
