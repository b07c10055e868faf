import NeroCD.Journal.Theorems

-- Calls that may fail.  `persistLocked` writes the version in memory while it still checks the state; when it fails,
-- the caller puts back what it changed.

namespace NeroCD.Journal

open NeroCD.Checks

-- How `store.Write` ends: the file is replaced, it is left as it was, or it is replaced and only the
-- directory is not synced.
inductive WriteResult where
  | written
  | failed (message : String)
  | unsynced (message : String)
deriving DecidableEq, Repr

section

variable (d : Documents)

-- The checks of `persistLocked` before its first write of the version, and those before its second.
def openingChecks (s : JournalState) : Except String Unit := do
  validateJournalDatabaseImports d s
  validateJournalStorageBackupTransfers d s
  validateJournalDatabaseBackupTransfers d s

def middleChecks (s : JournalState) : Except String Unit := do
  validateJournalDatabaseBackups d s
  validateApplicationDatabaseJournalChain d s.hosting
  validateJournalDatabaseNetworkCaptures d s
  validateJournalStorageArchives d s
  validateJournalBuildLogs d s
  validateJournalBuildEntries d s
  validateJournalDatabaseBackupRetentions d s

def transferVersion (s : JournalState) : Nat := if s.databaseBackupTransfers.isEmpty then s.version else 19

def failedVersion (s : JournalState) : Nat :=
  if fails (openingChecks d s) then s.version
  else if fails (middleChecks d (s.withVersion (transferVersion s))) then transferVersion s
  else if journalUsesRetention s then 20
  else transferVersion s

def persistCall (w : WriteResult) (s : JournalState) (file : Option JournalState) :
    Except String Unit × AttemptJournal :=
  match persistLocked d s with
  | .error e => (.error e, { state := s.withVersion (failedVersion d s), file := file })
  | .ok j =>
    match w with
    | .written => (.ok (), j)
    | .failed e => (.error e, { state := s.withVersion (failedVersion d s), file := file })
    | .unsynced e => (.error e, { state := s.withVersion (failedVersion d s), file := j.file })

-- What a call puts back when `persistLocked` failed, `prior` being the state before the call.
def Operation.restore (prior : JournalState) : Operation → JournalState → JournalState
  | .appendEvent _, s => { s with events := s.events.dropLast }
  | .appendCompletion _, s => { s with completions := s.completions.dropLast }
  | .appendProvenance _, s => { s with provenance := s.provenance.dropLast }
  | .appendDatabaseImport _, s => { s with databaseImports := prior.databaseImports }
  | .appendDatabaseBackup _, s => { s with databaseBackup := prior.databaseBackup, version := prior.version }
  | .appendDatabaseBackupTransfer _, s =>
    { s with databaseBackupTransfers := prior.databaseBackupTransfers, version := prior.version }
  | .appendDatabaseBackupRetention _, s =>
    { s with databaseBackupRetentions := prior.databaseBackupRetentions, version := prior.version }
  | .appendStorageBackupTransfer _, s =>
    { s with storageBackupTransfers := prior.storageBackupTransfers, version := prior.version }
  | .appendStorageBackupRetention _, s =>
    { s with storageBackupRetentions := prior.storageBackupRetentions, version := prior.version }
  | .appendBuild _, s => { s with build := s.build.dropLast, version := prior.version }
  | .appendStorageArchive _, s => { s with storageArchive := s.storageArchive.dropLast, version := prior.version }
  | .appendDatabaseNetworkCapture _, s =>
    { s with databaseNetworkCapture := prior.databaseNetworkCapture, version := prior.version }
  | .appendProxy _, s => { s with proxy := s.proxy.dropLast, version := prior.version }
  | .appendHosting _, s => { s with hosting := s.hosting.dropLast, version := prior.version }
  | .appendBuildLog _ _ _ _ _ _ _, _ => prior
  | .ackEvents _, s => { s with events := prior.events }
  | .ackCompletion _, s => { s with completions := prior.completions }
  | .ackProvenance _, s => { s with provenance := prior.provenance }
  | .ackStorageArchive _, s => { s with storageArchive := prior.storageArchive }
  | .ackDatabaseImport _, s => { s with databaseImports := prior.databaseImports }
  | .ackDatabaseBackup _, s => { s with databaseBackup := prior.databaseBackup }
  | .ackDatabaseBackupTransfer _, s => { s with databaseBackupTransfers := prior.databaseBackupTransfers }
  | .ackDatabaseBackupRetention _, s => { s with databaseBackupRetentions := prior.databaseBackupRetentions }
  | .ackStorageBackupTransfer _, s => { s with storageBackupTransfers := prior.storageBackupTransfers }
  | .ackStorageBackupRetention _, s => { s with storageBackupRetentions := prior.storageBackupRetentions }
  | .ackProxy _, s => { s with proxy := prior.proxy }
  | .ackHosting _, s => { s with hosting := prior.hosting }
  | .ackHostingConnection _, s => { s with hosting := prior.hosting }
  | .ackBuild _, s => { s with build := prior.build }
  | .ackBuildLogs _ _, s => { s with buildLogs := prior.buildLogs }
  | .ackBuildCompletion _ _, _ => prior
  | .discardAttempt _, s =>
    { s with events := prior.events, completions := prior.completions, provenance := prior.provenance }
  | .retireDatabaseNetworkCapture _, s => { s with databaseNetworkCapture := prior.databaseNetworkCapture }

def call (w : WriteResult) (op : Operation) (j : AttemptJournal) : Except String Unit × AttemptJournal :=
  match op.target d j.state with
  | .error e => (.error e, j)
  | .ok none => (.ok (), j)
  | .ok (some t) =>
    match persistCall d w t j.file with
    | (.ok (), j') => (.ok (), j')
    | (.error e, j') => (.error e, { j' with state := op.restore j.state j'.state })

end

def Operation.restoresVersion : Operation → Bool
  | .appendDatabaseBackup _ => true
  | .appendDatabaseBackupTransfer _ => true
  | .appendDatabaseBackupRetention _ => true
  | .appendStorageBackupTransfer _ => true
  | .appendStorageBackupRetention _ => true
  | .appendBuild _ => true
  | .appendStorageArchive _ => true
  | .appendDatabaseNetworkCapture _ => true
  | .appendProxy _ => true
  | .appendHosting _ => true
  | .appendBuildLog _ _ _ _ _ _ _ => true
  | .ackBuildCompletion _ _ => true
  | _ => false

def Operation.movesCursors : Operation → Bool
  | .appendBuildLog _ _ _ _ _ _ _ => true
  | .ackBuildCompletion _ _ => true
  | _ => false

-- What the state that a call is to write has in common with the one before.
structure Operation.Frame (d : Documents) (op : Operation) (s t : JournalState) : Prop where
  restored : ∀ v, op.restore s (t.withVersion v) = s.withVersion (if op.restoresVersion then s.version else v)
  version : op.restoresVersion = false → t.version = s.version
  hosting : ∀ e ∈ t.hosting, e ∈ s.hosting ∨ d.validateJournalHosting e = .ok ()
  cursors : op.movesCursors = false → t.buildLogCursors = s.buildLogCursors

section

variable {d : Documents} {s t : JournalState} {op : Operation}

theorem Operation.frame (h : op.target d s = .ok (some t)) : op.Frame d s t := by
  cases op with
  | appendBuildLog _ _ _ _ _ _ _ =>
    obtain ⟨batch, cursors, -, ht⟩ := appendBuildLog_ok h
    cases ht
    exact ⟨fun _ => rfl, nofun, fun _ he => .inl he, nofun⟩
  | ackBuildCompletion _ _ =>
    obtain ⟨r, -, -, rfl⟩ := ackBuildCompletion_some h
    exact ⟨fun _ => rfl, nofun, fun _ he => .inl he, nofun⟩
  | ackEvents _ | ackCompletion _ | ackProvenance _ | ackStorageArchive _ =>
    rw [acknowledgeAny_some h]
    exact ⟨fun _ => rfl, fun _ => rfl, fun _ he => .inl he, fun _ => rfl⟩
  | ackDatabaseImport _ | ackDatabaseBackup _ | ackDatabaseBackupTransfer _ | ackDatabaseBackupRetention _
  | ackStorageBackupTransfer _ | ackStorageBackupRetention _ | ackProxy _ =>
    rw [acknowledge_some h]
    exact ⟨fun _ => rfl, fun _ => rfl, fun _ he => .inl he, fun _ => rfl⟩
  | ackHosting _ | ackHostingConnection _ =>
    rw [acknowledge_some h]
    exact ⟨fun _ => rfl, fun _ => rfl, fun _ he => .inl (List.mem_of_mem_filter he), fun _ => rfl⟩
  | ackBuild _ =>
    rw [ackBuild_some h]
    exact ⟨fun _ => rfl, fun _ => rfl, fun _ he => .inl he, fun _ => rfl⟩
  | ackBuildLogs _ _ =>
    rw [ackBuildLogs_some h]
    exact ⟨fun _ => rfl, fun _ => rfl, fun _ he => .inl he, fun _ => rfl⟩
  | discardAttempt _ =>
    rw [discardAttempt_some h]
    exact ⟨fun _ => rfl, fun _ => rfl, fun _ he => .inl he, fun _ => rfl⟩
  | retireDatabaseNetworkCapture _ =>
    rw [retireDatabaseNetworkCapture_some h]
    exact ⟨fun _ => rfl, fun _ => rfl, fun _ he => .inl he, fun _ => rfl⟩
  | appendDatabaseImport _ =>
    simp only [Operation.target] at h
    rw [(append_some h).2.2.2]
    exact ⟨fun _ => rfl, fun _ => rfl, fun _ he => .inl he, fun _ => rfl⟩
  | appendDatabaseBackup _ | appendDatabaseBackupTransfer _ | appendDatabaseBackupRetention _
  | appendStorageBackupTransfer _ | appendStorageBackupRetention _ | appendDatabaseNetworkCapture _ =>
    simp only [Operation.target] at h
    rw [(append_some h).2.2.2]
    exact ⟨fun _ => rfl, nofun, fun _ he => .inl he, fun _ => rfl⟩
  | appendEvent _ | appendCompletion _ | appendProvenance _ =>
    simp only [Operation.target] at h
    rw [(append_some h).2.2.2]
    exact ⟨fun _ => by simp [Operation.restore, appendedState, JournalState.withVersion, Operation.restoresVersion,
      eventEntries, completionEntries, provenanceEntries], fun _ => rfl, fun _ he => .inl he, fun _ => rfl⟩
  | appendBuild _ | appendStorageArchive _ | appendProxy _ =>
    simp only [Operation.target] at h
    rw [(append_some h).2.2.2]
    exact ⟨fun _ => by simp [Operation.restore, appendedState, JournalState.withVersion, Operation.restoresVersion,
      buildEntries, archiveEntries, proxyEntries], nofun, fun _ he => .inl he, fun _ => rfl⟩
  | appendHosting _ =>
    simp only [Operation.target] at h
    obtain ⟨hValid, -, -, rfl⟩ := append_some h
    refine ⟨fun _ => ?_, nofun, ?_, fun _ => rfl⟩
    · simp [Operation.restore, appendedState, JournalState.withVersion, Operation.restoresVersion, hostingEntries]
    · exact forall_mem_concat (fun _ he => .inl he) (.inr hValid)

variable {w : WriteResult} {j j' : AttemptJournal}

-- A failed call reached no write, or left the version that `persistLocked` put into memory.
theorem call_error {e : String} (h : call d w op j = (.error e, j')) :
    (j' = j ∧ op.target d j.state = .error e) ∨
      ∃ t, op.target d j.state = .ok (some t) ∧
        j'.state = j.state.withVersion (if op.restoresVersion then j.state.version else failedVersion d t) := by
  unfold call at h
  cases hTarget : op.target d j.state with
  | error _ =>
    simp only [hTarget, Prod.mk.injEq, Except.error.injEq] at h
    exact Or.inl ⟨h.2.symm, h.1 ▸ rfl⟩
  | ok target =>
    cases target with
    | none => simp [hTarget] at h
    | some t =>
      refine Or.inr ⟨t, rfl, ?_⟩
      have hRestore := (Operation.frame hTarget).restored (failedVersion d t)
      simp only [hTarget, persistCall] at h
      cases hPersist : persistLocked d t with
      | error _ =>
        simp only [hPersist, Prod.mk.injEq] at h
        rw [← h.2, ← hRestore]
      | ok _ =>
        cases w with
        | written => simp [hPersist] at h
        | failed _ =>
          simp only [hPersist, Prod.mk.injEq] at h
          rw [← h.2, ← hRestore]
        | unsynced _ =>
          simp only [hPersist, Prod.mk.injEq] at h
          rw [← h.2, ← hRestore]

end

end NeroCD.Journal
