import Mathlib.Tactic.Common

-- The documents of the runner journal (`internal/runner/journal*.go`).  Members that only a document's own validator
-- reads are together a `Document`, its canonical JSON text, empty for the zero value.  Times are nanoseconds.

namespace NeroCD.Journal

abbrev Document := String

structure AttemptIdentity where
  runID : String
  leaseID : String
  attempt : Int
  fence : String
  createdAt : Int
  expiresAt : Int
deriving DecidableEq, Repr

def sameAttemptAuthority (left right : AttemptIdentity) : Bool :=
  left.runID == right.runID && left.leaseID == right.leaseID && left.attempt == right.attempt &&
    left.fence == right.fence

structure HostingAuthority where
  operationID : String
  runID : String
  leaseID : String
  attempt : Int
  fence : String
deriving DecidableEq, Repr

structure HostingBuildAuthority where
  buildID : String
  runID : String
  leaseID : String
  attempt : Int
  fence : String
deriving DecidableEq, Repr

-- Generic attempt evidence.

structure JournalEvent where
  id : String
  attempt : AttemptIdentity
  sequence : Int
  stream : String
  message : String
  createdAt : Int
deriving DecidableEq, Repr

structure JournalCompletion where
  id : String
  attempt : AttemptIdentity
  status : String
  createdAt : Int
deriving DecidableEq, Repr

structure JournalProvenance where
  id : String
  attempt : AttemptIdentity
  deploymentID : String
  gitCommit : String
  composeHash : String
  imageDigests : List String
  contentIdentity : String
  createdAt : Int
deriving DecidableEq, Repr

-- Backup evidence.

structure JournalDatabaseImport where
  id : String
  attempt : AttemptIdentity
  stagePlan : Option Document
  importPlan : Option Document
  request : Document
  createdAt : Int
deriving DecidableEq, Repr

-- Storage and database retentions have the same members.
structure JournalBackupRetention where
  probeKey : String
  id : String
  attempt : AttemptIdentity
  plan : Document
  request : Document
  createdAt : Int
deriving DecidableEq, Repr

structure JournalStorageBackupTransfer where
  id : String
  attempt : AttemptIdentity
  plan : Document
  request : Document
  createdAt : Int
deriving DecidableEq, Repr

structure BackupMutation where
  localCopy : Option Document
  remoteCopy : Option Document
  rest : Document
deriving DecidableEq, Repr

structure JournalDatabaseBackupTransfer where
  id : String
  attempt : AttemptIdentity
  plan : Document
  request : BackupMutation
  createdAt : Int
deriving DecidableEq, Repr

-- A backup request carries no remote copy.
structure JournalDatabaseBackup where
  id : String
  attempt : AttemptIdentity
  plan : Document
  request : BackupMutation
  createdAt : Int
deriving DecidableEq, Repr

-- Network captures.

structure CapturePlan where
  operationID : String
  sourceOperationID : String
  runnerID : String
  hash : String
  rest : Document
deriving DecidableEq, Repr

structure NetworkCapture where
  plan : CapturePlan
  rest : Document
deriving DecidableEq, Repr

structure CaptureClaim where
  capture : NetworkCapture
  lease : Document
deriving DecidableEq, Repr

structure OriginRequest where
  authority : HostingAuthority
  receiptID : String
  planHash : String
  observedAt : Int
  origin : Document
deriving DecidableEq, Repr

structure OriginReceipt where
  id : String
  bodyHash : String
  createdAt : Int
  operationID : String
  sourceOperationID : String
  planHash : String
  originHash : String
  origin : Document
  observedAt : Int
  runnerID : String
deriving DecidableEq, Repr

structure JournalDatabaseNetworkCapture where
  id : String
  attempt : AttemptIdentity
  phase : String
  claim : Option CaptureClaim
  plan : Option NetworkCapture
  origin : Option OriginRequest
  ack : Option OriginReceipt
  createdAt : Int
deriving DecidableEq, Repr

-- Storage archives.

structure ArchivePlan where
  operationID : String
  hash : String
  rest : Document
deriving DecidableEq, Repr

structure ArchiveProgress where
  phase : String
  rest : Document
deriving DecidableEq, Repr

structure ArchiveComplete where
  receiptID : String
  uncertain : Bool
  resumeOutcome : String
  rest : Document
deriving DecidableEq, Repr

structure HostingReceipt where
  id : String
  bodyHash : String
  createdAt : Int
deriving DecidableEq, Repr

structure JournalStorageArchive where
  id : String
  attempt : AttemptIdentity
  plan : ArchivePlan
  phase : String
  progress : Option ArchiveProgress
  complete : Option ArchiveComplete
  recoverySettlement : Option HostingReceipt
  createdAt : Int
  rest : Document
deriving DecidableEq, Repr

def JournalStorageArchive.authority (e : JournalStorageArchive) : HostingAuthority :=
  { operationID := e.plan.operationID, runID := e.attempt.runID, leaseID := e.attempt.leaseID,
    attempt := e.attempt.attempt, fence := e.attempt.fence }

-- Builds.

structure BuildSourceReceipt where
  sourceID : String
  inputID : String
  rest : Document
deriving DecidableEq, Repr

structure BuildArtifact where
  sourceID : String
  inputID : String
  sourceReceiptHash : String
  rest : Document
deriving DecidableEq, Repr

structure SourceCommitRequest where
  receipt : BuildSourceReceipt
  rest : Document
deriving DecidableEq, Repr

structure CompleteRequest where
  authority : HostingBuildAuthority
  receiptID : String
  artifact : Option BuildArtifact
  rest : Document
deriving DecidableEq, Repr

structure JournalBuild where
  id : String
  attempt : AttemptIdentity
  buildID : String
  phase : String
  inputHash : String
  source : Option SourceCommitRequest
  result : Option CompleteRequest
  createdAt : Int
deriving DecidableEq, Repr

def buildJournalAuthority (entry : JournalBuild) : HostingBuildAuthority :=
  { buildID := entry.buildID, runID := entry.attempt.runID, leaseID := entry.attempt.leaseID,
    attempt := entry.attempt.attempt, fence := entry.attempt.fence }

structure HostingBuildLogEvent where
  eventKey : String
  sequence : Int
  component : String
  stream : String
  message : String
  sourceTimestamp : Option Int
deriving DecidableEq, Repr

structure HostingBuildLogBatch where
  authority : HostingBuildAuthority
  events : List HostingBuildLogEvent
deriving DecidableEq, Repr

structure JournalBuildLog where
  id : String
  attempt : AttemptIdentity
  batch : HostingBuildLogBatch
  createdAt : Int
deriving DecidableEq, Repr

structure JournalBuildLogCursor where
  authority : HostingBuildAuthority
  lastSequence : Int
deriving DecidableEq, Repr

-- Proxies.

structure ProxyPlan where
  verifiedSwitch : Option Document
  rest : Document
deriving DecidableEq, Repr

structure JournalProxy where
  id : String
  attempt : AttemptIdentity
  operationID : String
  phase : String
  plan : ProxyPlan
  rest : Document
  createdAt : Int
deriving DecidableEq, Repr

-- Hosting.

structure HostingSnapshot where
  stack : Document
  database : Document
  storage : Document
  policyVersion : String
  localBuild : Document
  runtimeConfiguration : Document
  rest : Document
deriving DecidableEq, Repr

structure HostingRelease where
  stack : Document
  localBuild : Document
  rest : Document
deriving DecidableEq, Repr

structure HostingHealthy where
  storage : Option Document
  snapshot : HostingSnapshot
  containerID : String
  release : HostingRelease
  rest : Document
deriving DecidableEq, Repr

structure HostingApplyPlan where
  stack : Option Document
  database : Option Document
  storage : Option Document
  retainedReleases : List HostingHealthy
  snapshot : HostingSnapshot
  release : HostingRelease
  previousHealthy : Option HostingHealthy
  compilerVersion : String
  hash : String
  applicationDatabase : Option Document
  rest : Document
deriving DecidableEq, Repr

structure HostingPreparedRequest where
  stackImages : List Document
  release : HostingRelease
  rest : Document
deriving DecidableEq, Repr

structure HostingResult where
  stack : Option Document
  outcome : String
  containerID : String
  previousContainerID : String
  imageID : String
  daemonID : String
  planHash : String
  ready : Bool
  restored : Bool
  uncertain : Bool
  rest : Document
deriving DecidableEq, Repr

structure StorageWriterRequest where
  phase : String
  previousStateHash : String
  hash : String
  rest : Document
deriving DecidableEq, Repr

structure ApplicationProof where
  hash : String
  rest : Document
deriving DecidableEq, Repr

structure ApplicationCandidate where
  planHash : String
  containerID : String
  imageID : String
  daemonID : String
  rest : Document
deriving DecidableEq, Repr

structure ApplicationStage where
  phase : String
  candidate : ApplicationCandidate
  hash : String
  rest : Document
deriving DecidableEq, Repr

structure EndpointReceipt where
  phase : String
  rest : Document
deriving DecidableEq, Repr

structure JournalHosting where
  stackStopPlan : Option Document := none
  applicationStorage : Option Document := none
  applicationStorageWriter : Option StorageWriterRequest := none
  applicationStorageRecovery : Option Document := none
  applicationRouteContinuity : Option Document := none
  applicationYield : Option Document := none
  applicationFinalize : Option Document := none
  applicationDatabase : Option ApplicationProof := none
  applicationSnapshot : Option Document := none
  applicationCandidate : Option ApplicationCandidate := none
  applicationStage : Option ApplicationStage := none
  applicationRetirementPlan : Option Document := none
  applicationRetirement : Option EndpointReceipt := none
  databaseMaintenance : Option ApplicationProof := none
  databaseUpgrade : Option Document := none
  database : Bool := false
  databaseRef : Document := ""
  storageRef : Document := ""
  storageCreate : Option Document := none
  storageMaterialized : Option Document := none
  storageMetadata : Option Document := none
  runtimeEnvironment : Bool := false
  runtimeConfiguration : Document := ""
  deliveryID : String := ""
  localBuild : Bool := false
  id : String
  attempt : AttemptIdentity
  operationID : String
  phase : String
  prepared : Option HostingPreparedRequest := none
  cleanupTarget : Option HostingHealthy := none
  cleanupRest : Document := ""
  plan : Option HostingApplyPlan := none
  result : Option HostingResult := none
  resultRest : Document := ""
  createdAt : Int
deriving DecidableEq, Repr

def JournalHosting.authority (e : JournalHosting) : HostingAuthority :=
  { operationID := e.operationID, runID := e.attempt.runID, leaseID := e.attempt.leaseID,
    attempt := e.attempt.attempt, fence := e.attempt.fence }

-- What a hosting entry holds decides which journal version can carry it.

def hostingReleaseCompilerVersion : String := "image-hosting.release-ports.v1"
def hostingRuntimePolicyVersion : String := "public-image.runtime-env.release-ports.v1"
def hostingRuntimeCompilerVersion : String := "image-hosting.runtime-env.v1"
def hostingLocalBuildRuntimePolicyVersion : String := "local-build.runtime-env.release-ports.v1"
def hostingLocalBuildRuntimeCompilerVersion : String := "local-build-hosting.runtime-env.v1"
def hostingOwnedStorageRuntimeCompilerVersion : String := "image-hosting.owned-storage.runtime-env.v1"
def hostingOwnedStoragePolicyVersion : String := "public-image.owned-storage.release-ports.v1"
def hostingOwnedStorageCompilerVersion : String := "image-hosting.owned-storage.v1"
def hostingDatabaseCompilerVersion : String := "database-hosting.private.owned-storage.v1"
def hostingDatabasePolicyVersion : String := "database.private.owned-storage.v1"

def hostingJournalSnapshots (entry : JournalHosting) : List HostingSnapshot :=
  (match entry.plan with
    | none => []
    | some p => p.snapshot :: (p.previousHealthy.toList ++ p.retainedReleases).map (·.snapshot)) ++
  (match entry.cleanupTarget with
    | none => []
    | some target => [target.snapshot])

def healthyUsesLocalBuild (h : HostingHealthy) : Bool :=
  h.snapshot.localBuild != "" || h.release.localBuild != ""

def hostingJournalHasLocalArtifact (entry : JournalHosting) : Bool :=
  entry.prepared.any (·.release.localBuild != "") ||
  entry.cleanupTarget.any healthyUsesLocalBuild ||
  entry.plan.any fun p =>
    p.snapshot.localBuild != "" || p.release.localBuild != "" ||
      p.previousHealthy.any healthyUsesLocalBuild || p.retainedReleases.any healthyUsesLocalBuild

def hostingJournalUsesLocalBuild (entry : JournalHosting) : Bool :=
  entry.localBuild || hostingJournalHasLocalArtifact entry

def hostingJournalNeedsV3 (entry : JournalHosting) : Bool :=
  entry.phase == "cleanup_intent" || "cleanup_".isPrefixOf entry.attempt.runID ||
    entry.plan.any (·.compilerVersion == hostingReleaseCompilerVersion)

def hostingJournalUsesRouteContinuity (e : JournalHosting) : Bool :=
  e.applicationRouteContinuity.isSome || e.applicationYield.isSome || e.applicationFinalize.isSome

def hostingJournalUsesApplicationDatabase (e : JournalHosting) : Bool :=
  hostingJournalUsesRouteContinuity e || e.applicationDatabase.isSome || e.applicationSnapshot.isSome ||
    e.applicationCandidate.isSome || e.applicationStage.isSome || e.applicationRetirementPlan.isSome ||
    e.applicationRetirement.isSome || e.plan.any (·.applicationDatabase.isSome)

def hostingJournalUsesConnection (e : JournalHosting) : Bool :=
  hostingJournalUsesApplicationDatabase e || e.databaseMaintenance.isSome

def hostingJournalUsesDatabase (entry : JournalHosting) : Bool :=
  entry.databaseMaintenance.isSome || entry.databaseUpgrade.isSome || entry.database ||
  entry.databaseRef != "" ||
  entry.plan.any (fun p => p.database.isSome || p.compilerVersion == hostingDatabaseCompilerVersion) ||
  (hostingJournalSnapshots entry).any fun s =>
    s.database != "" || s.policyVersion == hostingDatabasePolicyVersion

def hostingJournalUsesStorage (entry : JournalHosting) : Bool :=
  entry.storageRef != "" || entry.storageCreate.isSome || entry.storageMaterialized.isSome ||
  entry.storageMetadata.isSome || entry.phase == "storage_create_intent" ||
  entry.phase == "storage_materialized" ||
  entry.plan.any (fun p =>
    p.storage.isSome || p.compilerVersion == hostingOwnedStorageCompilerVersion ||
      p.previousHealthy.any (·.storage.isSome) || p.retainedReleases.any (·.storage.isSome)) ||
  entry.cleanupTarget.any (·.storage.isSome) ||
  (hostingJournalSnapshots entry).any fun s =>
    s.storage != "" || s.policyVersion == hostingOwnedStoragePolicyVersion

def hostingJournalHasRuntimeCompiler (entry : JournalHosting) : Bool :=
  entry.plan.any fun p =>
    p.compilerVersion == hostingRuntimeCompilerVersion ||
      p.compilerVersion == hostingOwnedStorageRuntimeCompilerVersion ||
      p.compilerVersion == hostingLocalBuildRuntimeCompilerVersion

def hostingJournalUsesRuntimeEnvironment (entry : JournalHosting) : Bool :=
  entry.runtimeEnvironment || entry.runtimeConfiguration != "" ||
  (entry.deliveryID != "" && !hostingJournalUsesDatabase entry) ||
  hostingJournalHasRuntimeCompiler entry ||
  (hostingJournalSnapshots entry).any fun s =>
    s.runtimeConfiguration != "" || s.policyVersion == hostingRuntimePolicyVersion ||
      s.policyVersion == hostingLocalBuildRuntimePolicyVersion

def hostingJournalUsesStack (entry : JournalHosting) : Bool :=
  entry.stackStopPlan.isSome ||
  entry.plan.any (fun p => p.stack.isSome || p.snapshot.stack != "") ||
  entry.prepared.any (fun r => r.release.stack != "" || 0 < r.stackImages.length) ||
  entry.result.any (·.stack.isSome)

end NeroCD.Journal
