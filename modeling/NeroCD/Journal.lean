import Mathlib.Algebra.Order.Ring.Int
import NeroCD.Checks
import NeroCD.GoStrings
import NeroCD.Journal.Entries

-- The runner journal of `internal/runner/journal.go`: the checks on its state, what `persistLocked`
-- writes and what `OpenAttemptJournal` accepts.

namespace NeroCD.Journal

open NeroCD.Checks

def journalFormatVersion : Nat := 1
def journalMaxEntries : Nat := 8192
def journalMaxBytes : Nat := 8 * 2 ^ 20
def journalMaxEventBytes : Nat := 256 * 2 ^ 10
def journalMaxProvenanceBytes : Nat := 64 * 2 ^ 10

def errJournalConflict : String := "runner journal id reused with different content"
def errJournalConnection : String := "invalid application database connection journal"
def errJournalDatabaseNetworkCapture : String := "invalid database network capture journal"

structure JournalState where
  externalImportBaseVersion : Nat := 0
  databaseImports : List JournalDatabaseImport := []
  stackBaseVersion : Nat := 0
  storageBackupRetentions : List JournalBackupRetention := []
  databaseBackupRetentions : List JournalBackupRetention := []
  storageBackupTransfers : List JournalStorageBackupTransfer := []
  databaseBackupTransfers : List JournalDatabaseBackupTransfer := []
  databaseBackup : List JournalDatabaseBackup := []
  databaseNetworkCapture : List JournalDatabaseNetworkCapture := []
  storageArchive : List JournalStorageArchive := []
  buildLogs : List JournalBuildLog := []
  buildLogCursors : List JournalBuildLogCursor := []
  build : List JournalBuild := []
  proxy : List JournalProxy := []
  hosting : List JournalHosting := []
  version : Nat := journalFormatVersion
  events : List JournalEvent := []
  completions : List JournalCompletion := []
  provenance : List JournalProvenance := []
deriving DecidableEq, Repr

-- The functions of other packages that the journal calls on a document, and the size of the encoded state.
structure Documents where
  validateJournalDatabaseImport : JournalDatabaseImport → Except String Unit
  validateJournalStorageBackupRetention : JournalBackupRetention → Except String Unit
  validateJournalDatabaseBackupRetention : JournalBackupRetention → Except String Unit
  validateJournalStorageBackupTransfer : JournalStorageBackupTransfer → Except String Unit
  validateJournalDatabaseBackupTransfer : JournalDatabaseBackupTransfer → Except String Unit
  validateJournalDatabaseBackup : JournalDatabaseBackup → Except String Unit
  validateJournalDatabaseNetworkCapture : JournalDatabaseNetworkCapture → Except String Unit
  validateJournalStorageArchive : JournalStorageArchive → Except String Unit
  validateJournalBuild : JournalBuild → Except String Unit
  validateJournalProxy : JournalProxy → Except String Unit
  validateJournalHosting : JournalHosting → Except String Unit
  -- `HostingDocumentHash`; a nil document has a hash too
  documentHash : Option Document → String
  originRequestHash : OriginRequest → String
  archiveCompleteHash : ArchiveComplete → String
  sourceReceiptHash : BuildSourceReceipt → String
  originDocumentHash : Document → String
  validateOrigin : CapturePlan → Document → Bool
  -- `HostingApplicationDatabaseExecutionPlanInput`: the number of members of the plan input, if any
  executionPlanMembers : ApplicationProof → Option Nat
  stageTransition : ApplicationProof → HostingApplyPlan → Option ApplicationStage → ApplicationStage → Bool
  retirementTransition : ApplicationProof → Document → Option EndpointReceipt → EndpointReceipt → Bool
  validateBuildAuthority : HostingBuildAuthority → Bool
  canonicalHostingBuildLogs : HostingBuildLogBatch → Except String HostingBuildLogBatch
  validateLogAcknowledgment : HostingBuildLogBatch → Document → Except String Unit
  validateCompletionAcknowledgment : CompleteRequest → Document → Except String Unit
  -- the hashes by which a repeated append is recognised
  importHash : JournalDatabaseImport → String
  retentionHash : JournalBackupRetention → String
  storageTransferHash : JournalStorageBackupTransfer → String
  databaseTransferHash : JournalDatabaseBackupTransfer → String
  databaseBackupHash : JournalDatabaseBackup → String
  encodedBytes : JournalState → Nat

-- Single entries.

def validateAttemptIdentity (attempt : AttemptIdentity) : Except String Unit := do
  refuse (GoStrings.trimSpace attempt.runID == "" || GoStrings.trimSpace attempt.leaseID == "" ||
    attempt.attempt ≤ 0 || GoStrings.trimSpace attempt.fence == "")
    "journal attempt requires run_id, lease_id, positive attempt, and fence"
  refuse (attempt.createdAt == 0 || attempt.expiresAt ≤ attempt.createdAt)
    "journal attempt lease timestamps are invalid"

def validateJournalEvent (event : JournalEvent) : Except String Unit := do
  refuse (GoStrings.trimSpace event.id == "" || event.sequence ≤ 0 || GoStrings.trimSpace event.stream == "")
    "journal event requires id, positive sequence, and stream"
  refuse (journalMaxEventBytes < event.id.utf8ByteSize + event.stream.utf8ByteSize + event.message.utf8ByteSize)
    "journal event exceeds transport byte limit"
  validateAttemptIdentity event.attempt

def validateJournalCompletion (completion : JournalCompletion) : Except String Unit := do
  refuse (GoStrings.trimSpace completion.id == "" || GoStrings.trimSpace completion.status == "")
    "journal completion requires id and status"
  validateAttemptIdentity completion.attempt

-- `i > 0 && digests[i-1] >= digest` at each digest after the first.
def digestsValid : List String → Bool
  | [] => true
  | [d] => GoStrings.trimSpace d != ""
  | d :: e :: rest => GoStrings.trimSpace d != "" && d < e && digestsValid (e :: rest)

def validateJournalProvenance (p : JournalProvenance) : Except String Unit := do
  refuse (GoStrings.trimSpace p.id == "" || GoStrings.trimSpace p.deploymentID == "" ||
    GoStrings.trimSpace p.gitCommit == "" || GoStrings.trimSpace p.composeHash == "" ||
    GoStrings.trimSpace p.contentIdentity !=
      GoStrings.trimSpace p.gitCommit ++ ":" ++ GoStrings.trimSpace p.composeHash || p.createdAt == 0)
    "journal provenance requires exact authority and immutable evidence"
  validateAttemptIdentity p.attempt
  refuse (p.imageDigests == []) "journal provenance requires image digests"
  refuse (!digestsValid p.imageDigests) "journal provenance image digests are invalid"
  refuse (journalMaxProvenanceBytes < p.id.utf8ByteSize + p.deploymentID.utf8ByteSize +
    p.gitCommit.utf8ByteSize + p.composeHash.utf8ByteSize + p.contentIdentity.utf8ByteSize +
    (p.imageDigests.map (·.utf8ByteSize)).sum)
    "journal provenance exceeds transport byte limit"

-- Which evidence the state holds.

def journalStateUsesStack (s : JournalState) : Bool := s.hosting.any hostingJournalUsesStack
def journalStateUsesStorage (s : JournalState) : Bool := s.hosting.any hostingJournalUsesStorage
def journalStateUsesDatabase (s : JournalState) : Bool := s.hosting.any hostingJournalUsesDatabase
def journalStateUsesDatabaseUpgrade (s : JournalState) : Bool := s.hosting.any (·.databaseUpgrade.isSome)
def journalStateUsesConnection (s : JournalState) : Bool := s.hosting.any hostingJournalUsesConnection
def journalStateUsesRouteContinuity (s : JournalState) : Bool :=
  s.hosting.any hostingJournalUsesRouteContinuity
def journalStateUsesApplicationStorage (s : JournalState) : Bool :=
  s.hosting.any (·.applicationStorage.isSome)

def journalUsesRetention (s : JournalState) : Bool :=
  !s.databaseBackupRetentions.isEmpty || s.databaseBackup.any (·.request.localCopy.isSome) ||
    s.databaseBackupTransfers.any fun e => e.request.remoteCopy.isSome || e.request.localCopy.isSome

def usesVerifiedSwitch (entry : JournalProxy) : Bool := entry.plan.verifiedSwitch.isSome

-- The evidence without which a version from 9 to 21 is lowered to the one before it.
def versionEvidence (s : JournalState) : Nat → Bool
  | 9 => s.proxy.any usesVerifiedSwitch
  | 10 => journalStateUsesStorage s
  | 11 => journalStateUsesDatabase s
  | 12 => !s.storageArchive.isEmpty
  | 13 => !s.databaseNetworkCapture.isEmpty
  | 14 => journalStateUsesDatabaseUpgrade s
  | 15 => journalStateUsesConnection s
  | 16 => journalStateUsesRouteContinuity s
  | 17 => journalStateUsesApplicationStorage s
  | 18 => !s.databaseBackup.isEmpty
  | 19 => !s.databaseBackupTransfers.isEmpty
  | 20 => journalUsesRetention s
  | 21 => !s.storageBackupTransfers.isEmpty
  | _ => false

-- The cascade `if Version == k && !evidence { Version = k-1 }` for `k` from `8 + n` down to 9.
def lowerFrom (evidence : Nat → Bool) : Nat → Nat → Nat
  | 0, version => version
  | n + 1, version =>
    lowerFrom evidence n (if version == 9 + n && !evidence (9 + n) then 8 + n else version)

def lowerVersion (s : JournalState) (version : Nat) : Nat := lowerFrom (versionEvidence s) 13 version

def entryCount (s : JournalState) : Nat :=
  s.databaseImports.length + s.storageBackupRetentions.length + s.storageBackupTransfers.length +
  s.databaseBackupRetentions.length + s.databaseBackupTransfers.length + s.databaseBackup.length +
  s.databaseNetworkCapture.length + s.storageArchive.length + s.events.length + s.completions.length +
  s.provenance.length + s.hosting.length + s.proxy.length + s.build.length + s.buildLogs.length +
  s.buildLogCursors.length

section

variable (d : Documents)

-- The backup families: distinct IDs, no generic completion for the attempt, valid entries.
def validateBackupFamily {α : Type} (id : α → String) (attempt : α → AttemptIdentity)
    (valid : α → Except String Unit) (duplicate completion : String) (entries : List α) (s : JournalState) :
    Except String Unit := do
  let _ ← recordIDs id noCheck
    (fun e => refuse (s.completions.any fun c => sameAttemptAuthority (attempt e) c.attempt) completion)
    duplicate [] entries
  forEach valid entries

def validateJournalDatabaseBackups (s : JournalState) : Except String Unit :=
  validateBackupFamily (·.id) (·.attempt) d.validateJournalDatabaseBackup
    "duplicate database backup journal ID" "database backup cannot use generic completion"
    s.databaseBackup s

def validateJournalDatabaseBackupTransfers (s : JournalState) : Except String Unit :=
  validateBackupFamily (·.id) (·.attempt) d.validateJournalDatabaseBackupTransfer
    "duplicate remote backup transfer journal ID" "remote backup transfer cannot use generic completion"
    s.databaseBackupTransfers s

def validateJournalStorageBackupTransfers (s : JournalState) : Except String Unit :=
  validateBackupFamily (·.id) (·.attempt) d.validateJournalStorageBackupTransfer
    "duplicate remote backup transfer journal ID" "remote backup transfer cannot use generic completion"
    s.storageBackupTransfers s

def validateJournalDatabaseBackupRetentions (s : JournalState) : Except String Unit :=
  validateBackupFamily (·.id) (·.attempt) d.validateJournalDatabaseBackupRetention
    "duplicate backup retention journal ID" "backup retention cannot use generic completion"
    s.databaseBackupRetentions s

def validateJournalStorageBackupRetentions (s : JournalState) : Except String Unit :=
  validateBackupFamily (·.id) (·.attempt) d.validateJournalStorageBackupRetention
    "duplicate backup retention journal ID" "backup retention cannot use generic completion"
    s.storageBackupRetentions s

-- Here validity and duplication are one check.
def validateJournalDatabaseImports (s : JournalState) : Except String Unit := do
  let _ ← recordIDs (fun e : JournalDatabaseImport => e.id)
    (fun e => refuse (fails (d.validateJournalDatabaseImport e)) "invalid or duplicate external import journal")
    (fun e => refuse (s.completions.any fun c => sameAttemptAuthority c.attempt e.attempt)
      "external import cannot use generic completion")
    "invalid or duplicate external import journal" [] s.databaseImports
  return ()

-- Network captures: per run one exchange, in the order claim, plan, origin, ack.

def capturePhases : List String := ["claim", "plan", "origin", "ack"]

def validateCaptureLink (chain : List JournalDatabaseNetworkCapture) (e : JournalDatabaseNetworkCapture) :
    Except String Unit :=
  match chain with
  | [] => .ok ()
  | first :: _ => do
    refuse (e.attempt != first.attempt) errJournalDatabaseNetworkCapture
    match first.claim with
    | none => .error errJournalDatabaseNetworkCapture
    | some claim =>
      let p := claim.capture.plan
      if e.phase == "plan" then
        refuse (e.plan != some claim.capture) errJournalDatabaseNetworkCapture
      else if e.phase == "origin" then
        refuse (!e.origin.any fun o => o.authority.operationID == p.operationID && o.planHash == p.hash &&
          d.validateOrigin p o.origin) errJournalDatabaseNetworkCapture
      else if e.phase == "ack" then
        match chain[2]?.bind (·.origin), e.ack with
        | some o, some ack =>
          refuse (ack.id != o.receiptID || ack.bodyHash != d.originRequestHash o ||
            ack.operationID != p.operationID || ack.sourceOperationID != p.sourceOperationID ||
            ack.planHash != p.hash || ack.originHash != d.originDocumentHash o.origin ||
            ack.origin != o.origin || ack.observedAt != o.observedAt || ack.runnerID != p.runnerID ||
            ack.createdAt + 30000000000 < ack.observedAt) errJournalDatabaseNetworkCapture
        | _, _ => .error errJournalDatabaseNetworkCapture
      else .ok ()

abbrev CaptureChains := List (String × List JournalDatabaseNetworkCapture)

def captureChain (chains : CaptureChains) (run : String) : List JournalDatabaseNetworkCapture :=
  (chains.lookup run).getD []

-- The loop over the captures; a later binding of a run shadows the earlier one.
def captureLoop : List String → CaptureChains → List JournalDatabaseNetworkCapture →
    Except String (List String × CaptureChains)
  | ids, chains, [] => .ok (ids, chains)
  | ids, chains, e :: rest => do
    refuse (fails (d.validateJournalDatabaseNetworkCapture e)) errJournalDatabaseNetworkCapture
    refuse (ids.contains e.id) errJournalConflict
    let chain := captureChain chains e.attempt.runID
    refuse (capturePhases[chain.length]? != some e.phase) errJournalDatabaseNetworkCapture
    validateCaptureLink d chain e
    captureLoop (e.id :: ids) ((e.attempt.runID, chain ++ [e]) :: chains) rest

def captureForeign {α : Type} (ids : List String) (runs : List String) (id : α → String)
    (run : α → String) (entries : List α) : Except String Unit :=
  if runs = [] then .ok ()
  else forEach (fun e => do
    refuse (ids.contains (id e)) errJournalConflict
    refuse (runs.contains (run e)) errJournalDatabaseNetworkCapture) entries

def validateJournalDatabaseNetworkCaptures (s : JournalState) : Except String Unit := do
  let (ids, chains) ← captureLoop d [] [] s.databaseNetworkCapture
  let runs := chains.map (·.1)
  captureForeign ids runs (·.id) (·.attempt.runID) s.events
  captureForeign ids runs (·.id) (·.attempt.runID) s.completions
  captureForeign ids runs (·.id) (·.attempt.runID) s.provenance
  captureForeign ids runs (·.id) (·.attempt.runID) s.hosting
  captureForeign ids runs (·.id) (·.attempt.runID) s.proxy
  captureForeign ids runs (·.id) (·.attempt.runID) s.build
  captureForeign ids runs (·.id) (·.attempt.runID) s.buildLogs
  forEach (fun c : JournalBuildLogCursor =>
    refuse (runs.contains c.authority.runID) errJournalDatabaseNetworkCapture) s.buildLogCursors
  captureForeign ids runs (·.id) (·.attempt.runID) s.storageArchive

-- Storage archives.

def archiveSettled (archives : List JournalStorageArchive) (entry : JournalStorageArchive)
    (r : HostingReceipt) : Bool :=
  archives.any fun proof => proof.authority == entry.authority && proof.complete.any fun c =>
    c.receiptID == r.id && d.archiveCompleteHash c == r.bodyHash && !c.uncertain &&
      c.resumeOutcome != "uncertain"

def validateArchiveEntry (s : JournalState) (priors : List JournalStorageArchive)
    (entry : JournalStorageArchive) : Except String Unit := do
  refuse (entry.recoverySettlement.any fun r => !archiveSettled d s.storageArchive entry r)
    "archive recovery settlement requires exact completion"
  forEach (fun prior => do
    refuse (sameAttemptAuthority prior.attempt entry.attempt &&
      (prior.plan.operationID != entry.plan.operationID || prior.plan.hash != entry.plan.hash))
      "archive journal attempt changed immutable plan"
    refuse (prior.authority == entry.authority && prior.progress.any fun p =>
      entry.progress.any fun q => p.phase == q.phase)
      "archive journal phase has more than one immutable request") priors
  forEach (fun other : JournalHosting => refuse (sameAttemptAuthority entry.attempt other.attempt)
    "archive journal mixes hosting families") s.hosting
  forEach (fun other : JournalProxy => refuse (sameAttemptAuthority entry.attempt other.attempt)
    "archive journal mixes proxy families") s.proxy
  forEach (fun other : JournalBuild => refuse (sameAttemptAuthority entry.attempt other.attempt)
    "archive journal mixes build families") s.build
  forEach (fun other : JournalCompletion => refuse (sameAttemptAuthority entry.attempt other.attempt)
    "archive journal mixes generic completion") s.completions
  forEach (fun other : JournalProvenance => refuse (sameAttemptAuthority entry.attempt other.attempt)
    "archive journal mixes generic provenance") s.provenance

-- The loop over the archives; `check` sees the entries before the current one.
def archiveLoop (check : List JournalStorageArchive → JournalStorageArchive → Except String Unit) :
    List JournalStorageArchive → List JournalStorageArchive → Except String Unit
  | _, [] => .ok ()
  | priors, entry :: rest => do
    check priors entry
    archiveLoop check (priors ++ [entry]) rest

def validateJournalStorageArchives (s : JournalState) : Except String Unit :=
  archiveLoop (validateArchiveEntry d s) [] s.storageArchive

-- Builds: retained evidence of one attempt is consistent.

structure BuildEvidence where
  input : String := ""
  source : Option BuildSourceReceipt := none
  artifacts : List BuildArtifact := []

def addBuildEvidence (group : BuildEvidence) (entry : JournalBuild) : Except String BuildEvidence := do
  refuse (entry.phase == "attempt_intent" && group.input != "" && group.input != entry.inputHash)
    errJournalConflict
  let group := if entry.phase == "attempt_intent" then { group with input := entry.inputHash } else group
  refuse (entry.source.any fun r => group.source.any fun g =>
    d.sourceReceiptHash g != d.sourceReceiptHash r.receipt) errJournalConflict
  let group := match entry.source with
    | none => group
    | some r => { group with source := some r.receipt }
  return match entry.result.bind (·.artifact) with
    | none => group
    | some artifact => { group with artifacts := group.artifacts ++ [artifact] }

def buildLoop : List String → List (HostingBuildAuthority × BuildEvidence) → List JournalBuild →
    Except String (List (HostingBuildAuthority × BuildEvidence))
  | _, attempts, [] => .ok attempts
  | ids, attempts, entry :: rest => do
    d.validateJournalBuild entry
    refuse (ids.contains entry.id) errJournalConflict
    let authority := buildJournalAuthority entry
    let group ← addBuildEvidence d ((attempts.lookup authority).getD {}) entry
    buildLoop (entry.id :: ids) ((authority, group) :: attempts) rest

def sharedIDs (s : JournalState) : Except String (List String) := do
  let ids ← recordIDs (fun e : JournalEvent => e.id) noCheck noCheck errJournalConflict [] s.events
  let ids ← recordIDs (fun e : JournalCompletion => e.id) noCheck noCheck errJournalConflict ids s.completions
  let ids ← recordIDs (fun e : JournalProvenance => e.id) noCheck noCheck errJournalConflict ids s.provenance
  let ids ← recordIDs (fun e : JournalHosting => e.id) noCheck noCheck errJournalConflict ids s.hosting
  recordIDs (fun e : JournalProxy => e.id) noCheck noCheck errJournalConflict ids s.proxy

def artifactMatches (group : BuildEvidence) (artifact : BuildArtifact) : Bool :=
  group.source.all fun source => artifact.sourceID == source.sourceID && artifact.inputID == source.inputID &&
    artifact.sourceReceiptHash == d.sourceReceiptHash source

def buildEvidenceConsistent (s : JournalState) : Except String Unit := do
  let ids ← sharedIDs s
  let attempts ← buildLoop d ids [] s.build
  forEach (fun entry => forEach (fun artifact =>
    refuse (!artifactMatches d ((attempts.lookup (buildJournalAuthority entry)).getD {}) artifact)
      errJournalConflict) ((attempts.lookup (buildJournalAuthority entry)).getD {}).artifacts) s.build

def validateJournalBuildEntries (s : JournalState) : Except String Unit :=
  if s.build.isEmpty then .ok ()
  else do
    refuse (s.version < 5) "build journal requires version 5"
    buildEvidenceConsistent d s

-- Build logs: sequences grow up to the cursor of their attempt.

def validateBuildLogCursor (s : JournalState) (cursors : List (HostingBuildAuthority × Int))
    (c : JournalBuildLogCursor) : Except String Unit := do
  refuse (!d.validateBuildAuthority c.authority || c.lastSequence < 1 || 2147483647 < c.lastSequence ||
    (cursors.lookup c.authority).getD 0 != 0) "invalid build log cursor"
  refuse (!s.build.any fun e => e.phase == "attempt_intent" && buildJournalAuthority e == c.authority)
    "build log cursor has no immutable intent"
  refuse (s.events.any fun e => e.attempt.runID == c.authority.runID)
    "build logs cannot use generic events"
  refuse (s.completions.any fun e => e.attempt.runID == c.authority.runID)
    "build logs cannot use generic completion"

def cursorLoop (check : List (HostingBuildAuthority × Int) → JournalBuildLogCursor → Except String Unit) :
    List (HostingBuildAuthority × Int) → List JournalBuildLogCursor →
      Except String (List (HostingBuildAuthority × Int))
  | cursors, [] => .ok cursors
  | cursors, c :: rest => do
    check cursors c
    cursorLoop check ((c.authority, c.lastSequence) :: cursors) rest

def buildLogLoop (cursors : List (HostingBuildAuthority × Int)) :
    List String → List (HostingBuildAuthority × Int) → List JournalBuildLog → Except String Unit
  | _, _, [] => .ok ()
  | ids, last, e :: rest => do
    refuse (ids.contains e.id) errJournalConflict
    match e.batch.events with
    | [event] => do
      refuse ((d.canonicalHostingBuildLogs e.batch).toOption != some e.batch ||
        fails (validateAttemptIdentity e.attempt) || e.createdAt == 0)
        "invalid build log journal event"
      let a := e.batch.authority
      refuse (a.runID != e.attempt.runID || a.leaseID != e.attempt.leaseID ||
        a.attempt != e.attempt.attempt || a.fence != e.attempt.fence || e.id != event.eventKey ||
        event.sequence ≤ (last.lookup a).getD 0 || (cursors.lookup a).getD 0 < event.sequence)
        errJournalConflict
      buildLogLoop cursors (e.id :: ids) ((a, event.sequence) :: last) rest
    | _ => .error "invalid build log journal event"

def buildLogsConsistent (s : JournalState) : Except String Unit := do
  let ids ← sharedIDs s
  let ids ← recordIDs (fun e : JournalBuild => e.id) noCheck noCheck errJournalConflict ids s.build
  let cursors ← cursorLoop (validateBuildLogCursor d s) [] s.buildLogCursors
  buildLogLoop d cursors ids [] s.buildLogs

def validateJournalBuildLogs (s : JournalState) : Except String Unit :=
  if s.buildLogs.isEmpty && s.buildLogCursors.isEmpty then .ok ()
  else do
    refuse (s.version < 7) "build log journal requires version 7"
    buildLogsConsistent d s

-- Hosting chains.

def upgradeHash (entry : JournalHosting) : String :=
  match entry.databaseUpgrade with
  | none => ""
  | some proof => d.documentHash (some proof)

def validateUpgradeLoop : List (HostingAuthority × String) → List JournalHosting → Except String Unit
  | _, [] => .ok ()
  | proofs, entry :: rest => do
    refuse ((proofs.lookup entry.authority).any (· != upgradeHash d entry))
      "database journal upgrade proof changed between phases"
    validateUpgradeLoop ((entry.authority, upgradeHash d entry) :: proofs) rest

def validateDatabaseUpgradeJournalChain (entries : List JournalHosting) : Except String Unit :=
  validateUpgradeLoop d [] entries

structure ApplicationChain where
  proof : String := ""
  snapshot : String := ""
  maintenance : String := ""
  plan : String := ""
  delivery : String := ""
  previous : String := ""
  continuity : String := ""
  finalize : String := ""
  storage : String := ""
  writer : Option StorageWriterRequest := none
  candidate : Option ApplicationCandidate := none
  stage : Option ApplicationStage := none
  retirement : Option EndpointReceipt := none

def applicationStorageJournalWriterPhase (previous next : String) : Bool :=
  (previous == "stop_intent" && next == "stopped") ||
  (previous == "stopped" && next == "candidate_stopped") ||
  (previous == "candidate_stopped" && next == "replacement_failed") ||
  (previous == "resume_intent" && next == "resumed")

def chainDelivery (c : ApplicationChain) (e : JournalHosting) : Except String ApplicationChain := do
  refuse (e.plan.any fun p => c.plan != "" && c.plan != p.hash) errJournalConnection
  let c := match e.plan with
    | none => c
    | some p => { c with
        plan := p.hash
        previous := match p.previousHealthy with
          | none => c.previous
          | some healthy => healthy.containerID }
  refuse (e.phase == "apply_intent" && c.delivery != "" && c.delivery != e.deliveryID) errJournalConnection
  return if e.phase == "apply_intent" then { c with delivery := e.deliveryID } else c

def chainWriter (c : ApplicationChain) (e : JournalHosting) : Except String ApplicationChain :=
  match e.applicationStorageWriter with
  | none => .ok c
  | some w => do
    match c.writer with
    | none =>
      refuse (w.phase != "stop_intent" && (e.applicationStorageRecovery.isNone || w.phase != "resume_intent"))
        errJournalConnection
    | some prior =>
      refuse (w.previousStateHash != prior.hash ||
        !applicationStorageJournalWriterPhase prior.phase w.phase) errJournalConnection
    return { c with writer := some w }

def chainResult (c : ApplicationChain) (members : Nat) (r : HostingResult) : Bool :=
  c.stage.any (·.phase == "ready") && c.candidate.any (fun candidate =>
    r.planHash == candidate.planHash && r.containerID == candidate.containerID &&
      r.imageID == candidate.imageID && r.daemonID == candidate.daemonID) &&
  r.outcome == "succeeded" && !r.uncertain && !r.restored && r.previousContainerID == c.previous &&
  (members != 1 || c.retirement.any (·.phase == "detached"))

def chainApplication (exists_ : Bool) (c : ApplicationChain) (e : JournalHosting) (proof : ApplicationProof) :
    Except String ApplicationChain := do
  refuse (fails (d.validateJournalHosting e)) errJournalConnection
  match d.executionPlanMembers proof with
  | none => .error errJournalConnection
  | some members =>
    refuse (e.applicationStorage.isSome && e.applicationCandidate.isSome && !c.writer.any (·.phase == "stopped"))
      errJournalConnection
    let c ← chainWriter c e
    refuse (e.phase == "application_finalize" && exists_) errJournalConnection
    let c := if e.phase == "application_finalize" then
        { c with stage := e.applicationStage, candidate := e.applicationStage.map (·.candidate) }
      else c
    refuse (e.phase == "application_yield" && !(c.retirement.isNone && c.stage.any fun stage =>
      stage.phase == "ready" && e.applicationStage.any (·.hash == stage.hash))) errJournalConnection
    refuse (e.applicationCandidate.any fun candidate =>
      c.delivery == "" || c.candidate.any (· != candidate)) errJournalConnection
    let c := if e.applicationCandidate.isSome then { c with candidate := e.applicationCandidate } else c
    refuse (e.phase == "application_stage" && !(e.applicationStage.any fun stage =>
      c.candidate.any (· == stage.candidate) && e.plan.any fun p => d.stageTransition proof p c.stage stage))
      errJournalConnection
    let c := if e.phase == "application_stage" then { c with stage := e.applicationStage } else c
    refuse (e.phase == "application_retirement" && !(c.stage.any fun stage =>
      stage.phase == "ready" && e.applicationStage.any (·.hash == stage.hash) &&
      e.applicationRetirementPlan.any fun p => e.applicationRetirement.any fun r =>
        d.retirementTransition proof p c.retirement r)) errJournalConnection
    let c := if e.phase == "application_retirement" then { c with retirement := e.applicationRetirement } else c
    refuse (e.result.any fun r => r.ready && !chainResult c members r) errJournalConnection
    return c

def applicationLoop : List (HostingAuthority × ApplicationChain) → List (String × HostingAuthority) →
    List (String × Bool) → List JournalHosting → Except String Unit
  | _, _, _, [] => .ok ()
  | chains, operations, connections, e :: rest => do
    let a := e.authority
    let connected := (connections.lookup e.operationID).getD false
    refuse ((operations.lookup e.operationID).any (· != a) && (hostingJournalUsesConnection e || connected))
      errJournalConnection
    let proof := (e.applicationDatabase.map (·.hash)).getD ""
    let snapshot := match e.applicationSnapshot with
      | none => ""
      | some snapshot => d.documentHash (some snapshot)
    let maintenance := (e.databaseMaintenance.map (·.hash)).getD ""
    let continuity := d.documentHash e.applicationRouteContinuity
    let finalize := d.documentHash e.applicationFinalize
    let storage := d.documentHash e.applicationStorage
    refuse ((chains.lookup a).any fun c => c.proof != proof || c.snapshot != snapshot ||
      c.maintenance != maintenance || c.continuity != continuity || c.finalize != finalize ||
      c.storage != storage) errJournalConnection
    let c := { (chains.lookup a).getD {} with
      proof := proof, snapshot := snapshot, maintenance := maintenance, continuity := continuity,
      finalize := finalize, storage := storage }
    let c ← if proof != "" || maintenance != "" then chainDelivery c e else .ok c
    let c ← match e.applicationDatabase with
      | none => .ok c
      | some p => if proof != "" then chainApplication d (chains.lookup a).isSome c e p else .ok c
    applicationLoop ((a, c) :: chains) ((e.operationID, a) :: operations)
      ((e.operationID, connected || hostingJournalUsesConnection e) :: connections) rest

def validateApplicationDatabaseJournalChain (entries : List JournalHosting) : Except String Unit :=
  applicationLoop d [] [] [] entries

end

end NeroCD.Journal
