import NeroCD.Journal.Calls

-- What a call that returns an error leaves in memory.

namespace NeroCD.Journal

open NeroCD.Checks

-- A `persistLocked` that fails leaves the version it was called with.
def VersionStays (d : Documents) (t : JournalState) : Prop :=
  fails (openingChecks d t) = true ∨
    if fails (middleChecks d (t.withVersion (transferVersion t))) || !journalUsesRetention t then
      t.databaseBackupTransfers = [] ∨ t.version = 19
    else t.version = 20

def Operation.Restores (d : Documents) (s : JournalState) (op : Operation) : Prop :=
  op.restoresVersion = true ∨ ∀ t, op.target d s = .ok (some t) → VersionStays d t

section

variable {d : Documents} {s t : JournalState}

theorem transferVersion_eq_iff (s : JournalState) :
    transferVersion s = s.version ↔ s.databaseBackupTransfers = [] ∨ s.version = 19 := by
  unfold transferVersion
  cases s.databaseBackupTransfers with
  | nil => simp
  | cons _ _ => simp [eq_comm]

theorem failedVersion_eq_iff (d : Documents) (t : JournalState) :
    failedVersion d t = t.version ↔ VersionStays d t := by
  unfold failedVersion VersionStays
  by_cases hOpening : fails (openingChecks d t) = true
  · simp [hOpening]
  · by_cases hMiddle : fails (middleChecks d (t.withVersion (transferVersion t))) = true
    · simp [hOpening, hMiddle, transferVersion_eq_iff]
    · by_cases hRetention : journalUsesRetention t = true
      · simp [hOpening, hMiddle, hRetention, eq_comm]
      · simp [hOpening, hMiddle, hRetention, transferVersion_eq_iff]

theorem withVersion_eq_self (s : JournalState) (v : Nat) : s.withVersion v = s ↔ v = s.version := by
  refine ⟨fun h => ?_, fun h => ?_⟩
  · exact congrArg JournalState.version h
  · rw [h]
    rfl

-- The file plays no part in the outcome of a call and in the state it leaves.
theorem call_state_congr (w : WriteResult) (op : Operation) {j j' : AttemptJournal} (h : j'.state = j.state) :
    (call d w op j').1 = (call d w op j).1 ∧ (call d w op j').2.state = (call d w op j).2.state := by
  unfold call persistCall
  rw [h]
  cases op.target d j.state with
  | error e => exact ⟨rfl, h⟩
  | ok target =>
    cases target with
    | none => exact ⟨rfl, h⟩
    | some t =>
      simp only
      cases persistLocked d t with
      | error e => exact ⟨rfl, rfl⟩
      | ok _ => cases w <;> exact ⟨rfl, rfl⟩

theorem call_error_state_iff {w : WriteResult} {op : Operation} {j j' : AttemptJournal} {e : String}
    (hCall : call d w op j = (.error e, j')) : j'.state = j.state ↔ op.Restores d j.state := by
  rcases call_error hCall with ⟨hSame, hTarget⟩ | ⟨t, hTarget, hState⟩
  · refine ⟨fun _ => Or.inr fun t hSome => ?_, fun _ => hSame ▸ rfl⟩
    rw [hTarget] at hSome
    cases hSome
  · rw [hState, withVersion_eq_self]
    cases hRestores : op.restoresVersion with
    | true => simp [Operation.Restores, hRestores]
    | false =>
      have hVersion := (Operation.frame hTarget).version hRestores
      simp [Operation.Restores, hRestores, hTarget, ← hVersion, failedVersion_eq_iff]

end

-- A failed call leaves the state as it was exactly when it restores the version, and then the next
-- call does the same as without the failed one.
theorem failed_call_unchanged (d : Documents) (w : WriteResult) (op : Operation) (j j' : AttemptJournal)
    (e : String) (hCall : call d w op j = (.error e, j')) :
    (j'.state = j.state ↔ op.Restores d j.state) ∧
      (op.Restores d j.state → ∀ w' next,
        (call d w' next j').1 = (call d w' next j).1 ∧
          (call d w' next j').2.state = (call d w' next j).2.state) := by
  refine ⟨call_error_state_iff hCall, ?_⟩
  intro hRestores w' next
  exact call_state_congr w' next ((call_error_state_iff hCall).mpr hRestores)

def sampleDatabaseTransfer : JournalDatabaseBackupTransfer :=
  { id := "database", attempt := sampleAttempt, plan := "",
    request := { localCopy := none, remoteCopy := none, rest := "" }, createdAt := 1 }

def sampleStorageTransfer : JournalStorageBackupTransfer :=
  { id := "storage", attempt := sampleAttempt, plan := "", request := "", createdAt := 1 }

def sampleProxy : JournalProxy :=
  { id := "proxy", attempt := { sampleAttempt with runID := "other" }, operationID := "operation",
    phase := "apply_intent", plan := { verifiedSwitch := none, rest := "" }, rest := "", createdAt := 1 }

def mixedState : JournalState where
  events := [sampleEvent]
  proxy := [sampleProxy]
  databaseBackupTransfers := [sampleDatabaseTransfer]
  version := 19

def mixedJournal : AttemptJournal where
  state := mixedState
  file := some mixedState

-- An acknowledgement that cannot be written leaves its entry and those of the other families.
theorem failed_acknowledgement_unchanged :
    performAll acceptingDocuments [.appendProxy sampleProxy, .appendDatabaseBackupTransfer sampleDatabaseTransfer,
        .appendEvent sampleEvent] {} = .ok mixedJournal ∧
      call acceptingDocuments (.failed "no space left on device") (.ackProxy "proxy") mixedJournal =
        (.error "no space left on device", mixedJournal) ∧
      (Operation.ackProxy "proxy").Restores acceptingDocuments mixedJournal.state := by
  have hCall : call acceptingDocuments (.failed "no space left on device") (.ackProxy "proxy") mixedJournal =
      (.error "no space left on device", mixedJournal) := by decide +kernel
  refine ⟨by decide +kernel, hCall, ?_⟩
  exact (failed_call_unchanged acceptingDocuments _ _ mixedJournal mixedJournal _ hCall).1.mp rfl

def otherEvent : JournalEvent := { sampleEvent with attempt := { sampleAttempt with runID := "other" } }

def transferredState (version : Nat) : JournalState where
  databaseBackupTransfers := [sampleDatabaseTransfer]
  storageBackupTransfers := [sampleStorageTransfer]
  version := version

def transferredJournal (version : Nat) : AttemptJournal where
  state := transferredState version
  file := some (transferredState 21)

-- An event that cannot be written leaves version 19 in memory, and the journal then refuses a proxy entry that it
-- would have taken.
theorem failed_call_changes_version :
    performAll acceptingDocuments [.appendDatabaseBackupTransfer sampleDatabaseTransfer,
        .appendStorageBackupTransfer sampleStorageTransfer] {} = .ok (transferredJournal 21) ∧
      call acceptingDocuments (.failed "no space left on device") (.appendEvent otherEvent)
        (transferredJournal 21) = (.error "no space left on device", transferredJournal 19) ∧
      (call acceptingDocuments .written (.appendProxy sampleProxy) (transferredJournal 21)).1 = .ok () ∧
      (call acceptingDocuments .written (.appendProxy sampleProxy) (transferredJournal 19)).1 =
        .error "storage transfer journal version mismatch" := by
  decide +kernel

end NeroCD.Journal
