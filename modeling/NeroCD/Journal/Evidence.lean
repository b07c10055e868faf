import NeroCD.Journal.Atomicity
import NeroCD.Journal.BuildLogs

-- No evidence is lost: an entry stays until it is acknowledged, retired or, for generic entries,
-- discarded with its attempt.

namespace NeroCD.Journal

open NeroCD.Checks

inductive Entry where
  | databaseImport (e : JournalDatabaseImport)
  | storageRetention (e : JournalBackupRetention)
  | databaseRetention (e : JournalBackupRetention)
  | storageTransfer (e : JournalStorageBackupTransfer)
  | databaseTransfer (e : JournalDatabaseBackupTransfer)
  | databaseBackup (e : JournalDatabaseBackup)
  | capture (e : JournalDatabaseNetworkCapture)
  | archive (e : JournalStorageArchive)
  | buildLog (e : JournalBuildLog)
  | build (e : JournalBuild)
  | proxy (e : JournalProxy)
  | hosting (e : JournalHosting)
  | event (e : JournalEvent)
  | completion (e : JournalCompletion)
  | provenance (e : JournalProvenance)

def Entry.In (s : JournalState) : Entry → Prop
  | .databaseImport e => e ∈ s.databaseImports
  | .storageRetention e => e ∈ s.storageBackupRetentions
  | .databaseRetention e => e ∈ s.databaseBackupRetentions
  | .storageTransfer e => e ∈ s.storageBackupTransfers
  | .databaseTransfer e => e ∈ s.databaseBackupTransfers
  | .databaseBackup e => e ∈ s.databaseBackup
  | .capture e => e ∈ s.databaseNetworkCapture
  | .archive e => e ∈ s.storageArchive
  | .buildLog e => e ∈ s.buildLogs
  | .build e => e ∈ s.build
  | .proxy e => e ∈ s.proxy
  | .hosting e => e ∈ s.hosting
  | .event e => e ∈ s.events
  | .completion e => e ∈ s.completions
  | .provenance e => e ∈ s.provenance

def Entry.attempt : Entry → AttemptIdentity
  | .databaseImport e => e.attempt
  | .storageRetention e => e.attempt
  | .databaseRetention e => e.attempt
  | .storageTransfer e => e.attempt
  | .databaseTransfer e => e.attempt
  | .databaseBackup e => e.attempt
  | .capture e => e.attempt
  | .archive e => e.attempt
  | .buildLog e => e.attempt
  | .build e => e.attempt
  | .proxy e => e.attempt
  | .hosting e => e.attempt
  | .event e => e.attempt
  | .completion e => e.attempt
  | .provenance e => e.attempt

def Entry.Typed : Entry → Prop
  | .event _ => False
  | .completion _ => False
  | .provenance _ => False
  | _ => True

def Operation.Settles (s : JournalState) : Operation → Entry → Prop
  | .ackDatabaseImport id, .databaseImport e => e.id = id
  | .ackStorageBackupRetention id, .storageRetention e => e.id = id
  | .ackDatabaseBackupRetention id, .databaseRetention e => e.id = id
  | .ackStorageBackupTransfer id, .storageTransfer e => e.id = id
  | .ackDatabaseBackupTransfer id, .databaseTransfer e => e.id = id
  | .ackDatabaseBackup id, .databaseBackup e => e.id = id
  | .retireDatabaseNetworkCapture at_, .capture e => e.attempt = at_
  | .ackStorageArchive id, .archive e => e.id = id
  | .ackBuildLogs batch _, .buildLog e =>
    e.batch.authority = batch.authority ∧ ∃ event ∈ batch.events, event.eventKey = e.id
  | .ackBuild id, .build e => e.id = id
  | .ackBuildCompletion id _, .build e => e.id = id ∨
    ∃ r, (s.build.find? (·.id == id)).bind (·.result) = some r ∧ buildJournalAuthority e = r.authority
  | .ackProxy id, .proxy e => e.id = id
  | .ackHosting id, .hosting e => e.id = id
  | .ackHostingConnection a, .hosting e => e.authority = a
  | .ackEvents ids, .event e => e.id ∈ ids
  | .ackCompletion id, .completion e => e.id = id
  | .ackProvenance id, .provenance e => e.id = id
  | .discardAttempt a, .event e => sameAttemptAuthority e.attempt a = true
  | .discardAttempt a, .completion e => sameAttemptAuthority e.attempt a = true
  | .discardAttempt a, .provenance e => sameAttemptAuthority e.attempt a = true
  | _, _ => False

section

variable {d : Documents} {s t : JournalState} {j j' : AttemptJournal} {w : WriteResult} {op : Operation}
  {entry : Entry}

theorem Entry.in_unversioned : entry.In s.unversioned ↔ entry.In s := by
  cases entry <;> exact Iff.rfl

theorem Entry.In.of_unversioned (h : entry.In s) (hSame : t.unversioned = s.unversioned) : entry.In t :=
  Entry.in_unversioned.mp (hSame ▸ Entry.in_unversioned.mpr h)

theorem ackBuildLogs_settles {batch : HostingBuildLogBatch} {ack : Document}
    (h : ackBuildLogs d batch ack s = .ok (some t)) {e : JournalBuildLog} (he : e ∈ s.buildLogs)
    (hNot : ¬(Operation.ackBuildLogs batch ack).Settles s (.buildLog e)) :
    (wantedEvent batch e.id).isNone = true := by
  unfold ackBuildLogs at h
  simp only [bind_eq_ok, exists_unit, refuse_eq_ok, List.any_eq_false] at h
  obtain ⟨-, hExact, -⟩ := h
  cases hWanted : wantedEvent batch e.id with
  | none => rfl
  | some event =>
    have hMatch := hExact e he
    simp only [hWanted, Option.any_some, Bool.or_eq_true, bne_iff_ne, ne_eq, not_or, not_not] at hMatch
    have hMem : event ∈ batch.events := List.mem_reverse.mp (List.mem_of_find?_eq_some hWanted)
    have hKey : event.eventKey = e.id := by simpa using List.find?_some hWanted
    exact absurd ⟨hMatch.1, event, hMem, hKey⟩ hNot

theorem Operation.target_keeps (h : op.target d s = .ok (some t)) (hIn : entry.In s)
    (hNot : ¬op.Settles s entry) : entry.In t := by
  cases op with
  | appendBuildLog _ _ _ _ _ _ _ =>
    obtain ⟨batch, cursors, -, ht⟩ := appendBuildLog_ok h
    cases ht
    cases entry <;> first | exact hIn | exact List.mem_append_left _ hIn
  | ackBuildCompletion id _ =>
    obtain ⟨r, hResult, -, rfl⟩ := ackBuildCompletion_some h
    cases entry with
    | build e =>
      have hNamed : e.id ≠ id ∧ buildJournalAuthority e ≠ r.authority := by
        refine ⟨fun hID => hNot (.inl hID), fun hAuthority => hNot (.inr ⟨r, hResult, hAuthority⟩)⟩
      refine List.mem_filter.mpr ⟨hIn, ?_⟩
      simp [hNamed.1, hNamed.2]
    | _ => exact hIn
  | ackEvents _ =>
    rw [acknowledgeAny_some h]
    cases entry with
    | event e => exact List.mem_filter.mpr ⟨hIn, by simpa [Operation.Settles] using hNot⟩
    | _ => exact hIn
  | ackCompletion _ =>
    rw [acknowledgeAny_some h]
    cases entry with
    | completion e => exact List.mem_filter.mpr ⟨hIn, by simpa [Operation.Settles] using hNot⟩
    | _ => exact hIn
  | ackProvenance _ =>
    rw [acknowledgeAny_some h]
    cases entry with
    | provenance e => exact List.mem_filter.mpr ⟨hIn, by simpa [Operation.Settles] using hNot⟩
    | _ => exact hIn
  | ackStorageArchive _ =>
    rw [acknowledgeAny_some h]
    cases entry with
    | archive e => exact List.mem_filter.mpr ⟨hIn, by simpa [Operation.Settles] using hNot⟩
    | _ => exact hIn
  | ackDatabaseImport _ | ackDatabaseBackup _ | ackDatabaseBackupTransfer _ | ackDatabaseBackupRetention _
  | ackStorageBackupTransfer _ | ackStorageBackupRetention _ | ackProxy _ | ackHosting _
  | ackHostingConnection _ =>
    rw [acknowledge_some h]
    cases entry <;>
      first
      | exact hIn
      | exact List.mem_filter.mpr ⟨hIn, by simpa [Operation.Settles] using hNot⟩
  | ackBuild _ =>
    rw [ackBuild_some h]
    cases entry with
    | build e => exact List.mem_filter.mpr ⟨hIn, by simpa [Operation.Settles] using hNot⟩
    | _ => exact hIn
  | ackBuildLogs _ _ =>
    rw [ackBuildLogs_some h]
    cases entry with
    | buildLog e => exact List.mem_filter.mpr ⟨hIn, ackBuildLogs_settles h hIn hNot⟩
    | _ => exact hIn
  | discardAttempt _ =>
    rw [discardAttempt_some h]
    cases entry <;>
      first
      | exact hIn
      | exact List.mem_filter.mpr ⟨hIn, by simpa [Operation.Settles] using hNot⟩
  | retireDatabaseNetworkCapture _ =>
    rw [retireDatabaseNetworkCapture_some h]
    cases entry with
    | capture e => exact List.mem_filter.mpr ⟨hIn, by simpa [Operation.Settles] using hNot⟩
    | _ => exact hIn
  | _ =>
    simp only [Operation.target] at h
    rw [(append_some h).2.2.2]
    cases entry <;> first | exact hIn | exact List.mem_append_left _ hIn

theorem step_keeps {st : Step} (hTracked : Tracked d j) (hIn : entry.In j.state) (h : step d j st = .ok j') :
    entry.In j'.state ∨ ∃ w op, st = .call w op ∧ (call d w op j).1 = .ok () ∧ op.Settles j.state entry := by
  cases st with
  | reopen =>
    obtain ⟨hOpened, hFile⟩ := openAttemptJournal_tracked h
    refine .inl (hIn.of_unversioned ?_)
    rw [hOpened.synced, hFile, ← hTracked.synced]
  | call w op =>
    cases h
    obtain ⟨outcome, j', hCall⟩ : ∃ outcome j', call d w op j = (outcome, j') := ⟨_, _, rfl⟩
    cases outcome with
    | error e =>
      refine .inl (hIn.of_unversioned ?_)
      rw [hCall]
      exact call_error_unversioned hCall
    | ok u =>
      by_cases hSettles : op.Settles j.state entry
      · exact .inr ⟨w, op, rfl, congrArg Prod.fst hCall, hSettles⟩
      · rw [hCall]
        rcases call_ok hCall with ⟨-, hSame⟩ | ⟨t, hTarget, hPersist⟩
        · exact .inl (hSame ▸ hIn)
        · have hKept := Operation.target_keeps hTarget hIn hSettles
          exact .inl (hKept.of_unversioned (persistLocked_unversioned hPersist))

def SettledIn (d : Documents) (entry : Entry) (steps : List Step) (j : AttemptJournal) : Prop :=
  ∃ before w op after j', steps = before ++ .call w op :: after ∧ runSteps d before j = .ok j' ∧
    (call d w op j').1 = .ok () ∧ op.Settles j'.state entry

theorem runSteps_keeps {steps : List Step} (hTracked : Tracked d j) (hSynced : ∀ st ∈ steps, st.Synced)
    (hIn : entry.In j.state) (h : runSteps d steps j = .ok j') :
    entry.In j'.state ∨ SettledIn d entry steps j := by
  induction steps generalizing j with
  | nil => exact .inl (Except.ok.inj h ▸ hIn)
  | cons st rest ih =>
    simp only [runSteps, bind_eq_ok] at h
    obtain ⟨j₁, hStep, hRest⟩ := h
    rcases step_keeps hTracked hIn hStep with hKept | ⟨w, op, rfl, hOk, hSettles⟩
    · have hFirst := step_tracked hTracked (hSynced st List.mem_cons_self) hStep
      have hLater := ih hFirst (fun st' hMem => hSynced st' (List.mem_cons_of_mem _ hMem)) hKept hRest
      refine hLater.imp_right ?_
      rintro ⟨before, w, op, after, j₂, rfl, hBefore, hOk, hSettles⟩
      refine ⟨st :: before, w, op, after, j₂, rfl, ?_, hOk, hSettles⟩
      simp only [runSteps, bind_eq_ok]
      exact ⟨j₁, hStep, hBefore⟩
    · exact .inr ⟨[], w, op, rest, j, rfl, rfl, hOk, hSettles⟩

-- Discarding.

theorem refuseTyped_pending {a : AttemptIdentity} (hOrdered : LogsOrdered s) (h : refuseTyped a s = .ok ())
    (hTyped : entry.Typed) (hIn : entry.In s) : sameAttemptAuthority entry.attempt a = false := by
  unfold refuseTyped at h
  simp only [bind_eq_ok, exists_unit, refuse_eq_ok, List.any_eq_false, Bool.not_eq_true] at h
  obtain ⟨hStorageRetention, hDatabaseRetention, hStorageTransfer, hImport, hDatabaseTransfer, hBackup, hCapture,
    hArchive, hCursor, hBuild, hProxy, hHosting⟩ := h
  cases entry with
  | databaseImport e => exact hImport e hIn
  | storageRetention e => exact hStorageRetention e hIn
  | databaseRetention e => exact hDatabaseRetention e hIn
  | storageTransfer e => exact hStorageTransfer e hIn
  | databaseTransfer e => exact hDatabaseTransfer e hIn
  | databaseBackup e => exact hBackup e hIn
  | capture e => exact hCapture e hIn
  | archive e => exact hArchive e hIn
  | build e => exact hBuild e hIn
  | proxy e => exact hProxy e hIn
  | hosting e => exact hHosting e hIn
  | buildLog e =>
    obtain ⟨n, hSome, -⟩ := hOrdered.bounded e hIn
    obtain ⟨hRun, hLease, hAttempt, hFence⟩ := hOrdered.own e hIn
    have hAny : s.buildLogCursors.any (·.authority == e.batch.authority) = true := by
      rw [← cursorSequence_isSome, hSome]
      rfl
    obtain ⟨c, hc, hSame⟩ := List.any_eq_true.mp hAny
    have hRefused := hCursor c hc
    rw [beq_iff_eq.mp hSame, hRun, hLease, hAttempt, hFence] at hRefused
    exact hRefused
  | event e => exact hTyped.elim
  | completion e => exact hTyped.elim
  | provenance e => exact hTyped.elim

theorem filter_of_any_false {α : Type} {p : α → Bool} {l : List α} (h : l.any p = false) :
    l.filter (fun e => !p e) = l := by
  simpa [List.filter_eq_self] using h

theorem discardAttempt_ok {a : AttemptIdentity} {target : Option JournalState}
    (h : discardAttempt a s = .ok target) :
    refuseTyped a s = .ok () ∧ target.getD s = withoutAttempt a s := by
  unfold discardAttempt at h
  simp only [bind_eq_ok, exists_unit] at h
  obtain ⟨hTyped, h⟩ := h
  refine ⟨hTyped, ?_⟩
  split at h
  · rw [← Except.ok.inj h]
    rfl
  · rename_i hNone
    rw [← Except.ok.inj h]
    simp only [Bool.or_eq_true, not_or, Bool.not_eq_true] at hNone
    obtain ⟨⟨hEvents, hCompletions⟩, hProvenance⟩ := hNone
    simp only [Option.getD_none, withoutAttempt, filter_of_any_false hEvents, filter_of_any_false hCompletions,
      filter_of_any_false hProvenance]

theorem discard_ok {a : AttemptIdentity} (hTracked : Tracked d j)
    (hCall : call d w (.discardAttempt a) j = (.ok (), j')) :
    j'.state.unversioned = (withoutAttempt a j.state).unversioned ∧
      ∀ entry : Entry, entry.Typed → entry.In j.state → sameAttemptAuthority entry.attempt a = false := by
  have hOrdered := hTracked.validated.logsOrdered
  rcases call_ok hCall with ⟨hTarget, rfl⟩ | ⟨t, hTarget, hPersist⟩
  · obtain ⟨hTyped, hState⟩ := discardAttempt_ok hTarget
    exact ⟨congrArg JournalState.unversioned hState, fun entry => refuseTyped_pending hOrdered hTyped⟩
  · obtain ⟨hTyped, hState⟩ := discardAttempt_ok hTarget
    refine ⟨?_, fun entry => refuseTyped_pending hOrdered hTyped⟩
    rw [persistLocked_unversioned hPersist]
    exact congrArg JournalState.unversioned hState

end

-- In every run in which no write reports an error after it replaced the file, an entry stays in memory and in the
-- file until a successful call of its own family names it or its attempt is discarded.
theorem evidence_kept (d : Documents) (file : Option JournalState) (before steps : List Step)
    (j₀ j₁ j₂ : AttemptJournal) (hOpened : openAttemptJournal d file = .ok j₀)
    (hBefore : runSteps d before j₀ = .ok j₁) (hRun : runSteps d steps j₁ = .ok j₂)
    (hSynced : ∀ st ∈ before ++ steps, st.Synced) :
    (∀ entry : Entry, entry.In j₁.state →
        (entry.In j₂.state ∧ entry.In (j₂.file.getD {})) ∨ SettledIn d entry steps j₁) ∧
      ∀ (w : WriteResult) (a : AttemptIdentity) (j' : AttemptJournal),
        (Step.call w (.discardAttempt a)).Synced →
        (∀ e, call d w (.discardAttempt a) j₁ = (.error e, j') →
          (Operation.discardAttempt a).Restores d j₁.state → j' = j₁) ∧
        (call d w (.discardAttempt a) j₁ = (.ok (), j') →
          j'.state.unversioned = (withoutAttempt a j₁.state).unversioned ∧
            ∀ entry : Entry, entry.Typed → entry.In j₁.state → sameAttemptAuthority entry.attempt a = false) := by
  have hTracked₁ : Tracked d j₁ :=
    opened_tracked hOpened (fun st hMem => hSynced st (List.mem_append_left _ hMem)) hBefore
  have hSteps : ∀ st ∈ steps, st.Synced := fun st hMem => hSynced st (List.mem_append_right _ hMem)
  refine ⟨?_, ?_⟩
  · intro entry hIn
    refine (runSteps_keeps hTracked₁ hSteps hIn hRun).imp_left fun hKept => ⟨hKept, ?_⟩
    exact hKept.of_unversioned (runSteps_tracked hTracked₁ hSteps hRun).synced.symm
  · intro w a j' hDiscard
    refine ⟨?_, discard_ok hTracked₁⟩
    intro e hCall hRestores
    have hState := (call_error_state_iff hCall).mpr hRestores
    have hFile := call_error_file hCall hDiscard
    cases j'
    cases j₁
    exact congr (congrArg AttemptJournal.mk hState) hFile

def keptSteps : List Step := [.reopen, .call .written (.discardAttempt otherEvent.attempt)]

def keptState (events : List JournalEvent) : JournalState where
  storageBackupTransfers := [sampleStorageTransfer]
  events := events
  version := 21

theorem evidence_kept_sample :
    runSteps acceptingDocuments keptSteps ⟨keptState [otherEvent], some (keptState [otherEvent])⟩ =
        .ok ⟨keptState [], some (keptState [])⟩ ∧
      (Entry.storageTransfer sampleStorageTransfer).In (keptState []) := by
  have hBefore : runSteps acceptingDocuments
      [.call .written (.appendStorageBackupTransfer sampleStorageTransfer), .call .written (.appendEvent otherEvent)]
      {} = .ok ⟨keptState [otherEvent], some (keptState [otherEvent])⟩ := by decide +kernel
  have hRun : runSteps acceptingDocuments keptSteps ⟨keptState [otherEvent], some (keptState [otherEvent])⟩ =
      .ok ⟨keptState [], some (keptState [])⟩ := by decide +kernel
  have hSynced : ∀ st ∈ [Step.call .written (.appendStorageBackupTransfer sampleStorageTransfer),
      .call .written (.appendEvent otherEvent)] ++ keptSteps, st.Synced := by simp [keptSteps, Step.Synced]
  have hKept := (evidence_kept acceptingDocuments none _ keptSteps {} _ _ rfl hBefore hRun hSynced).1
    (.storageTransfer sampleStorageTransfer) List.mem_cons_self
  refine ⟨hRun, ?_⟩
  rcases hKept with ⟨hIn, -⟩ | ⟨before, w, op, after, j', hSplit, -, -, hSettles⟩
  · exact hIn
  · have hMem : Step.call w op ∈ keptSteps := by simp [hSplit]
    simp only [keptSteps, List.mem_cons, Step.call.injEq, reduceCtorEq, List.not_mem_nil, or_false,
      false_or] at hMem
    obtain ⟨-, rfl⟩ := hMem
    exact hSettles.elim

def discardedState (version : Nat) : JournalState :=
  { transferredState version with events := [otherEvent] }

def discardedJournal (version : Nat) : AttemptJournal where
  state := discardedState version
  file := some (discardedState 21)

-- A discarded attempt that cannot be written leaves version 19 in a journal of version 21; and an entry is lost whose
-- acknowledgment replaced the file before it failed.
theorem failed_calls_lose_evidence :
    performAll acceptingDocuments [.appendDatabaseBackupTransfer sampleDatabaseTransfer,
        .appendStorageBackupTransfer sampleStorageTransfer, .appendEvent otherEvent] {} =
        .ok (discardedJournal 21) ∧
      call acceptingDocuments (.failed "no space left on device") (.discardAttempt otherEvent.attempt)
        (discardedJournal 21) = (.error "no space left on device", discardedJournal 19) ∧
      (call acceptingDocuments (.unsynced "input/output error") (.ackDatabaseBackupTransfer "database")
        (discardedJournal 21)).1 = .error "input/output error" ∧
      (runSteps acceptingDocuments
        [.call (.unsynced "input/output error") (.ackDatabaseBackupTransfer "database"), .reopen]
        (discardedJournal 21)).toOption.map (·.state.databaseBackupTransfers) = some [] := by
  decide +kernel

end NeroCD.Journal
