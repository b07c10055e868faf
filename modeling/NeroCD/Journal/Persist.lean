import NeroCD.Journal

-- `persistLocked`, `validateJournalState` and `OpenAttemptJournal`.  JSON encoding is taken as lossless, so a file is
-- the state that was encoded.

namespace NeroCD.Journal

open NeroCD.Checks

structure AttemptJournal where
  state : JournalState := {}
  file : Option JournalState := none
deriving DecidableEq, Repr

@[simps] def JournalState.withVersion (s : JournalState) (version : Nat) : JournalState :=
  { s with version := version }

@[simps] def JournalState.withoutStorageRetentions (s : JournalState) : JournalState :=
  { s with storageBackupRetentions := [] }

def errDuplicateIDs : String := "runner journal contains duplicate ids"

section

variable (d : Documents)

def validateHostingEntry (version : Nat) (entry : JournalHosting) : Except String Unit := do
  refuse (entry.applicationStorage.isSome && version < 17) errJournalConnection
  refuse (hostingJournalUsesRouteContinuity entry && version < 16)
    "route continuation requires journal version 16"
  refuse (hostingJournalUsesConnection entry && version < 15) "connection journal requires version 15"
  refuse (entry.databaseUpgrade.isSome && version < 14) "database upgrade journal requires version 14"
  refuse (version < 11 && hostingJournalUsesDatabase entry) "database journal requires version 11"
  refuse (version < 10 && hostingJournalUsesStorage entry) "owned storage journal requires version 10"
  refuse (version < 8 && hostingJournalUsesRuntimeEnvironment entry)
    "runtime environment journal requires version 8"
  refuse (version < 6 && hostingJournalUsesLocalBuild entry) "local artifact journal requires version 6"
  refuse (version < 3 && hostingJournalNeedsV3 entry) "retained release journal requires version 3"
  d.validateJournalHosting entry

def validateProxyEntry (version : Nat) (entry : JournalProxy) : Except String Unit := do
  refuse (usesVerifiedSwitch entry && version < 9) "verified switch journal requires version 9"
  d.validateJournalProxy entry

def storageRetentionStage (s : JournalState) : Except String JournalState :=
  if s.storageBackupRetentions.isEmpty then .ok s
  else do
    refuse (s.version != 22) "storage retention journal version mismatch"
    validateJournalStorageBackupRetentions d s
    refuse (journalMaxEntries < entryCount s) "runner journal entry limit exceeded"
    return s.withoutStorageRetentions.withVersion (lowerVersion s 21)

def storageTransferStage (s : JournalState) : Except String JournalState :=
  if s.storageBackupTransfers.isEmpty then .ok s
  else do
    refuse (s.version != 21) "storage transfer journal version mismatch"
    validateJournalStorageBackupTransfers d s
    return s.withVersion (lowerVersion s 20)

def validateBackupEvidence (s : JournalState) : Except String Unit := do
  refuse ((journalUsesRetention s && s.version != 20) || (s.version == 20 && !journalUsesRetention s))
    "backup retention journal version mismatch"
  validateJournalDatabaseBackupRetentions d s
  refuse ((!s.databaseBackupTransfers.isEmpty && s.version < 19) ||
    (s.version == 19 && s.databaseBackupTransfers.isEmpty)) "remote backup transfer journal version mismatch"
  validateJournalDatabaseBackupTransfers d s
  refuse ((!s.databaseBackup.isEmpty && s.version < 18) || (s.version == 18 && s.databaseBackup.isEmpty))
    "database backup journal version mismatch"
  validateJournalDatabaseBackups d s

def validateGenericEntries (s : JournalState) : Except String (List String) := do
  refuse ((!s.databaseNetworkCapture.isEmpty && s.version < 13) ||
    (s.version == 13 && s.databaseNetworkCapture.isEmpty)) "capture journal requires marked version 13 evidence"
  let ids ← recordIDs (fun e : JournalDatabaseNetworkCapture => e.id) noCheck noCheck errDuplicateIDs []
    s.databaseNetworkCapture
  refuse ((!s.storageArchive.isEmpty && s.version < 12) || (s.version == 12 && s.storageArchive.isEmpty))
    "archive journal requires marked version 12 evidence"
  let ids ← recordIDs (·.id) d.validateJournalStorageArchive noCheck errDuplicateIDs ids s.storageArchive
  let ids ← recordIDs (·.id) validateJournalEvent noCheck errDuplicateIDs ids s.events
  let ids ← recordIDs (·.id) validateJournalCompletion noCheck errDuplicateIDs ids s.completions
  recordIDs (·.id) validateJournalProvenance noCheck errDuplicateIDs ids s.provenance

def validateHostingEntries (s : JournalState) (ids : List String) : Except String (List String) := do
  refuse (!s.hosting.isEmpty && s.version < 2) "hosting journal requires version2"
  refuse (s.version == 14 && !journalStateUsesDatabaseUpgrade s)
    "journal version 14 requires database upgrade evidence"
  refuse (s.version == 15 && !journalStateUsesConnection s) "journal version 15 requires connection evidence"
  refuse (s.version == 16 && !journalStateUsesRouteContinuity s)
    "journal version 16 requires route continuation evidence"
  refuse (s.version == 17 && !journalStateUsesApplicationStorage s) errJournalConnection
  recordIDs (·.id) (validateHostingEntry d s.version) noCheck errDuplicateIDs ids s.hosting

def validateProxyEntries (s : JournalState) (ids : List String) : Except String Unit := do
  refuse (!s.proxy.isEmpty && s.version < 4) "proxy journal requires version 4"
  let _ ← recordIDs (·.id) (validateProxyEntry d s.version) noCheck errDuplicateIDs ids s.proxy
  refuse (s.version == 9 && !s.proxy.any usesVerifiedSwitch)
    "journal version 9 requires verified switch intent"
  refuse (s.version == 11 && !journalStateUsesDatabase s) "journal version 11 requires database evidence"
  refuse (s.version == 10 && !journalStateUsesStorage s) "journal version 10 requires owned storage evidence"

-- The checks after the two storage stages.  There no storage retention is left to be counted.
def validateSettledState (s : JournalState) : Except String Unit := do
  validateBackupEvidence d s
  validateApplicationDatabaseJournalChain d s.hosting
  validateDatabaseUpgradeJournalChain d s.hosting
  validateJournalDatabaseNetworkCaptures d s
  validateJournalStorageArchives d s
  refuse (s.version < journalFormatVersion || 20 < s.version)
    ("unsupported runner journal version " ++ toString s.version)
  refuse (journalMaxEntries < entryCount s) "runner journal entry limit exceeded"
  let ids ← validateGenericEntries d s
  let ids ← validateHostingEntries d s ids
  validateProxyEntries d s ids
  validateJournalBuildEntries d s
  validateJournalBuildLogs d s

def validateJournalState (s : JournalState) : Except String Unit := do
  validateJournalDatabaseImports d s
  let s ← storageRetentionStage d s
  let s ← storageTransferStage d s
  validateSettledState d s

-- The file: version 23 wraps a state with a managed stack, version 24 one with external imports.
def stackWire (s : JournalState) : JournalState :=
  if journalStateUsesStack s then { s with stackBaseVersion := s.version, version := 23 } else s

def importWire (s : JournalState) : JournalState :=
  if s.databaseImports.isEmpty then s
  else { s with externalImportBaseVersion := s.version, version := 24 }

def persistLocked (s : JournalState) : Except String AttemptJournal := do
  validateJournalDatabaseImports d s
  validateJournalStorageBackupTransfers d s
  validateJournalDatabaseBackupTransfers d s
  let s := s.withVersion (if s.databaseBackupTransfers.isEmpty then s.version else 19)
  validateJournalDatabaseBackups d s
  validateApplicationDatabaseJournalChain d s.hosting
  validateJournalDatabaseNetworkCaptures d s
  validateJournalStorageArchives d s
  validateJournalBuildLogs d s
  validateJournalBuildEntries d s
  validateJournalDatabaseBackupRetentions d s
  let s := s.withVersion (if journalUsesRetention s then 20 else s.version)
  let s := s.withVersion (if s.version == 22 then 21 else s.version)
  validateJournalStorageBackupRetentions d s
  let s := s.withVersion (if s.storageBackupTransfers.isEmpty then s.version else 21)
  let s := s.withVersion (lowerVersion s s.version)
  let s := s.withVersion (if s.storageBackupRetentions.isEmpty then s.version else 22)
  let wire := importWire (stackWire s)
  refuse (journalMaxBytes < d.encodedBytes wire) "runner journal byte limit reached"
  return { state := s, file := some wire }

-- Opening.

def unwrapImports (s : JournalState) : Except String JournalState :=
  if s.version == 24 then do
    refuse (s.databaseImports.isEmpty || s.externalImportBaseVersion < journalFormatVersion ||
      23 < s.externalImportBaseVersion) "invalid external import journal version"
    return { s with version := s.externalImportBaseVersion, externalImportBaseVersion := 0 }
  else do
    refuse (!s.databaseImports.isEmpty || s.externalImportBaseVersion != 0)
      "external imports require journal version 24"
    return s

def unwrapStack (s : JournalState) : Except String JournalState :=
  if s.version == 23 then do
    refuse (s.stackBaseVersion < 2 || 22 < s.stackBaseVersion || !journalStateUsesStack s)
      "invalid managed stack journal version"
    return { s with version := s.stackBaseVersion, stackBaseVersion := 0 }
  else do
    refuse (s.stackBaseVersion != 0 || journalStateUsesStack s) "managed stack journal requires version 23"
    return s

def openAttemptJournal : Option JournalState → Except String AttemptJournal
  | none => .ok {}
  | some contents => do
    let s ← unwrapImports contents
    let s ← unwrapStack s
    validateJournalState d s
    return { state := s, file := some contents }

end

end NeroCD.Journal
