import NeroCD.Journal.Steps

-- Whatever the operations did, the file opens as the journal in memory.

namespace NeroCD.Journal

open NeroCD.Checks

section

variable {d : Documents} {owner : String → Family} {j j' : AttemptJournal}

theorem perform_sound (op : Operation) (hOwner : ∀ x f, op.appended = some (x, f) → owner x = f)
    (hSound : Sound d owner j) (h : perform d op j = .ok j') : Sound d owner j' := by
  cases op with
  | appendEvent e => exact appendEvent_sound hSound e (hOwner _ _ rfl) h
  | appendCompletion e => exact appendCompletion_sound hSound e (hOwner _ _ rfl) h
  | appendProvenance e => exact appendProvenance_sound hSound e (hOwner _ _ rfl) h
  | appendDatabaseImport e => exact appendDatabaseImport_sound hSound e (hOwner _ _ rfl) h
  | appendDatabaseBackup e => exact appendDatabaseBackup_sound hSound e (hOwner _ _ rfl) h
  | appendDatabaseBackupTransfer e => exact appendDatabaseBackupTransfer_sound hSound e (hOwner _ _ rfl) h
  | appendDatabaseBackupRetention e => exact appendDatabaseBackupRetention_sound hSound e (hOwner _ _ rfl) h
  | appendStorageBackupTransfer e => exact appendStorageBackupTransfer_sound hSound e (hOwner _ _ rfl) h
  | appendStorageBackupRetention e => exact appendStorageBackupRetention_sound hSound e (hOwner _ _ rfl) h
  | appendBuild e => exact appendBuild_sound hSound e (hOwner _ _ rfl) h
  | appendStorageArchive e => exact appendStorageArchive_sound hSound e (hOwner _ _ rfl) h
  | appendDatabaseNetworkCapture e => exact appendDatabaseNetworkCapture_sound hSound e (hOwner _ _ rfl) h
  | appendProxy e => exact appendProxy_sound hSound e (hOwner _ _ rfl) h
  | appendHosting e => exact appendHosting_sound hSound e (hOwner _ _ rfl) h
  | appendBuildLog => exact appendBuildLog_sound hSound _ _ _ _ _ _ _ (hOwner _ _ rfl) h
  | ackEvents _ =>
    exact commit_shrinks hSound h fun _ ht =>
      acknowledgeAny_some ht ▸ { Shrinks.refl j.state with events := List.filter_sublist }
  | ackCompletion _ =>
    exact commit_shrinks hSound h fun _ ht =>
      acknowledgeAny_some ht ▸ { Shrinks.refl j.state with completions := List.filter_sublist }
  | ackProvenance _ =>
    exact commit_shrinks hSound h fun _ ht =>
      acknowledgeAny_some ht ▸ { Shrinks.refl j.state with provenance := List.filter_sublist }
  | ackStorageArchive _ =>
    exact commit_shrinks hSound h fun _ ht =>
      acknowledgeAny_some ht ▸ { Shrinks.refl j.state with archives := List.filter_sublist }
  | ackDatabaseImport _ =>
    exact commit_shrinks hSound h fun _ ht =>
      acknowledge_some ht ▸ { Shrinks.refl j.state with imports := List.filter_sublist }
  | ackDatabaseBackup _ =>
    exact commit_shrinks hSound h fun _ ht =>
      acknowledge_some ht ▸ { Shrinks.refl j.state with backups := List.filter_sublist }
  | ackDatabaseBackupTransfer _ =>
    exact commit_shrinks hSound h fun _ ht =>
      acknowledge_some ht ▸ { Shrinks.refl j.state with databaseTransfers := List.filter_sublist }
  | ackDatabaseBackupRetention _ =>
    exact commit_shrinks hSound h fun _ ht =>
      acknowledge_some ht ▸ { Shrinks.refl j.state with databaseRetentions := List.filter_sublist }
  | ackStorageBackupTransfer _ =>
    exact commit_shrinks hSound h fun _ ht =>
      acknowledge_some ht ▸ { Shrinks.refl j.state with storageTransfers := List.filter_sublist }
  | ackStorageBackupRetention _ =>
    exact commit_shrinks hSound h fun _ ht =>
      acknowledge_some ht ▸ { Shrinks.refl j.state with storageRetentions := List.filter_sublist }
  | ackProxy _ =>
    exact commit_shrinks hSound h fun _ ht =>
      acknowledge_some ht ▸ { Shrinks.refl j.state with proxy := List.filter_sublist }
  | ackHosting _ =>
    exact commit_shrinks hSound h fun _ ht =>
      acknowledge_some ht ▸ { Shrinks.refl j.state with hosting := List.filter_sublist }
  | ackHostingConnection _ =>
    exact commit_shrinks hSound h fun _ ht =>
      acknowledge_some ht ▸ { Shrinks.refl j.state with hosting := List.filter_sublist }
  | ackBuild _ =>
    exact commit_shrinks hSound h fun _ ht =>
      ackBuild_some ht ▸ { Shrinks.refl j.state with builds := List.filter_sublist }
  | ackBuildLogs _ _ =>
    exact commit_shrinks hSound h fun _ ht =>
      ackBuildLogs_some ht ▸ { Shrinks.refl j.state with logs := List.filter_sublist }
  | ackBuildCompletion _ _ =>
    refine commit_shrinks hSound h fun t ht => ?_
    obtain ⟨r, -, -, rfl⟩ := ackBuildCompletion_some ht
    exact { Shrinks.refl j.state with builds := List.filter_sublist, cursors := List.filter_sublist }
  | discardAttempt _ =>
    exact commit_shrinks hSound h fun _ ht => discardAttempt_some ht ▸ { Shrinks.refl j.state with
      events := List.filter_sublist
      completions := List.filter_sublist
      provenance := List.filter_sublist }
  | retireDatabaseNetworkCapture _ =>
    exact commit_shrinks hSound h fun _ ht =>
      retireDatabaseNetworkCapture_some ht ▸ { Shrinks.refl j.state with captures := List.filter_sublist }

theorem performAll_sound (ops : List Operation)
    (hOwner : ∀ x f, (x, f) ∈ ops.filterMap Operation.appended → owner x = f) (hSound : Sound d owner j)
    (h : performAll d ops j = .ok j') : Sound d owner j' := by
  induction ops generalizing j with
  | nil => exact Except.ok.inj h ▸ hSound
  | cons op _ ih =>
    simp only [performAll, bind_eq_ok] at h
    obtain ⟨j₁, hFirst, hRest⟩ := h
    have hStep : Sound d owner j₁ := by
      refine perform_sound op ?_ hSound hFirst
      intro x f hAppended
      exact hOwner x f (List.mem_filterMap.mpr ⟨op, List.mem_cons_self, hAppended⟩)
    refine ih ?_ hStep hRest
    intro x f hMem
    obtain ⟨op', hOp', hAppended⟩ := List.mem_filterMap.mp hMem
    exact hOwner x f (List.mem_filterMap.mpr ⟨op', List.mem_cons_of_mem _ hOp', hAppended⟩)

theorem empty_sound : Sound d owner {} := by
  refine ⟨?_, rfl⟩
  refine { valid := ?_, upgrades := rfl, count := by decide, nodup := ?_, owned := ?_, version_pos := by decide,
           version_le := by decide, stackBase := rfl, importBase := rfl, covers := ?_ }
  · refine ⟨?_, ?_, ?_, ?_, ?_, ?_⟩ <;> exact fun _ h => nomatch h
  · intro f _
    cases f <;> exact List.nodup_nil
  · intro f x hx
    cases f <;> cases hx
  · intro k _ hUses
    unfold uses versionEvidence at hUses
    split at hUses
    any_goals cases hUses
    split at hUses <;> cases hUses

end

def firstOwner (ops : List Operation) (x : String) : Family :=
  (((ops.filterMap Operation.appended).find? fun y => y.1 == x).map (·.2)).getD .event

theorem firstOwner_eq (ops : List Operation) (hDistinct : DistinctAcrossFamilies ops) (x : String) (f : Family)
    (hMem : (x, f) ∈ ops.filterMap Operation.appended) : firstOwner ops x = f := by
  unfold firstOwner
  cases hFind : (ops.filterMap Operation.appended).find? fun y => y.1 == x with
  | none =>
    have hNot := List.find?_eq_none.mp hFind (x, f) hMem
    simp at hNot
  | some y =>
    have hID : y.1 = x := by simpa using List.find?_some hFind
    exact hDistinct y (List.mem_of_find?_eq_some hFind) (x, f) hMem hID

-- After any sequence of successful operations on an empty journal, in which no ID is shared by two
-- families, opening the file gives back the journal: its entries and its version.
theorem openAttemptJournal_performAll (d : Documents) (ops : List Operation) (j : AttemptJournal)
    (hDistinct : DistinctAcrossFamilies ops) (hRun : performAll d ops {} = .ok j) :
    openAttemptJournal d j.file = .ok j :=
  (performAll_sound ops (firstOwner_eq ops hDistinct) empty_sound hRun).2

-- A run through both wrappers: a stack intent and an external import next to a storage retention.

def acceptingDocuments : Documents where
  validateJournalDatabaseImport := noCheck
  validateJournalStorageBackupRetention := noCheck
  validateJournalDatabaseBackupRetention := noCheck
  validateJournalStorageBackupTransfer := noCheck
  validateJournalDatabaseBackupTransfer := noCheck
  validateJournalDatabaseBackup := noCheck
  validateJournalDatabaseNetworkCapture := noCheck
  validateJournalStorageArchive := noCheck
  validateJournalBuild := noCheck
  validateJournalProxy := noCheck
  validateJournalHosting := noCheck
  documentHash x := x.getD "null"
  originRequestHash r := r.receiptID
  archiveCompleteHash c := c.receiptID
  sourceReceiptHash r := r.inputID
  originDocumentHash x := x
  validateOrigin _ _ := true
  executionPlanMembers _ := some 1
  stageTransition _ _ _ _ := true
  retirementTransition _ _ _ _ := true
  validateBuildAuthority _ := true
  canonicalHostingBuildLogs := .ok
  validateLogAcknowledgment _ _ := .ok ()
  validateCompletionAcknowledgment _ _ := .ok ()
  importHash e := e.id
  retentionHash e := e.id
  storageTransferHash e := e.id
  databaseTransferHash e := e.id
  databaseBackupHash e := e.id
  encodedBytes := entryCount

def sampleAttempt : AttemptIdentity :=
  { runID := "run", leaseID := "lease", attempt := 1, fence := "fence", createdAt := 1, expiresAt := 2 }

def sampleEvent : JournalEvent :=
  { id := "event", attempt := sampleAttempt, sequence := 1, stream := "stdout", message := "", createdAt := 1 }

def sampleHosting : JournalHosting :=
  { stackStopPlan := some "plan", id := "hosting", attempt := sampleAttempt, operationID := "operation",
    phase := "stack_stop_intent", createdAt := 1 }

def sampleImport : JournalDatabaseImport :=
  { id := "import", attempt := sampleAttempt, stagePlan := none, importPlan := none, request := "",
    createdAt := 1 }

def sampleRetention : JournalBackupRetention :=
  { probeKey := "", id := "retention", attempt := sampleAttempt, plan := "", request := "", createdAt := 1 }

def sampleOperations : List Operation :=
  [.appendEvent sampleEvent, .appendHosting sampleHosting, .appendStorageBackupRetention sampleRetention,
   .appendDatabaseImport sampleImport, .ackEvents ["event"]]

def sampleJournal : AttemptJournal where
  state :=
    { hosting := [sampleHosting], storageBackupRetentions := [sampleRetention],
      databaseImports := [sampleImport], version := 22 }
  file := some
    { hosting := [sampleHosting], storageBackupRetentions := [sampleRetention],
      databaseImports := [sampleImport], stackBaseVersion := 22, externalImportBaseVersion := 23,
      version := 24 }

theorem openAttemptJournal_sample :
    performAll acceptingDocuments sampleOperations {} = .ok sampleJournal ∧
      openAttemptJournal acceptingDocuments sampleJournal.file = .ok sampleJournal := by
  have hRun : performAll acceptingDocuments sampleOperations {} = .ok sampleJournal := by decide +kernel
  have hDistinct : DistinctAcrossFamilies sampleOperations := by
    unfold DistinctAcrossFamilies
    decide
  exact ⟨hRun, openAttemptJournal_performAll acceptingDocuments sampleOperations sampleJournal hDistinct hRun⟩

end NeroCD.Journal
