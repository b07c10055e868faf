import NeroCD.Journal.Calls

-- Runs of calls and reopenings.  The file holds what memory holds, and memory holds what the checks
-- accepted.

namespace NeroCD.Journal

open NeroCD.Checks

inductive Step where
  | call (w : WriteResult) (op : Operation)
  | reopen
deriving Repr

def step (d : Documents) (j : AttemptJournal) : Step → Except String AttemptJournal
  | .call w op => .ok (call d w op j).2
  | .reopen => openAttemptJournal d j.file

def runSteps (d : Documents) : List Step → AttemptJournal → Except String AttemptJournal
  | [], j => .ok j
  | st :: rest, j => do
    let j ← step d j st
    runSteps d rest j

def Step.Synced : Step → Prop
  | .call (.unsynced _) _ => False
  | _ => True

def JournalState.unversioned (s : JournalState) : JournalState :=
  { s with version := 0, stackBaseVersion := 0, externalImportBaseVersion := 0 }

structure Validated (d : Documents) (s : JournalState) : Prop where
  logs : (s.buildLogs.isEmpty && s.buildLogCursors.isEmpty) = true ∨ buildLogsConsistent d s = .ok ()
  application : validateApplicationDatabaseJournalChain d s.hosting = .ok ()
  hosting : ∀ e ∈ s.hosting, d.validateJournalHosting e = .ok ()

structure Tracked (d : Documents) (j : AttemptJournal) : Prop where
  synced : j.state.unversioned = (j.file.getD {}).unversioned
  validated : Validated d j.state

section

variable {d : Documents} {s t : JournalState} {j j' : AttemptJournal} {w : WriteResult} {op : Operation}

@[simp] theorem unversioned_withVersion (s : JournalState) (v : Nat) :
    (s.withVersion v).unversioned = s.unversioned := rfl

@[simp] theorem unversioned_stackWire (s : JournalState) : (stackWire s).unversioned = s.unversioned := by
  unfold stackWire
  split <;> rfl

@[simp] theorem unversioned_importWire (s : JournalState) : (importWire s).unversioned = s.unversioned := by
  unfold importWire
  split <;> rfl

theorem unversioned_without_withVersion (s : JournalState) (v : Nat) :
    (s.withVersion v).withoutStorageRetentions.unversioned = s.withoutStorageRetentions.unversioned := rfl

theorem without_without (s : JournalState) :
    s.withoutStorageRetentions.withoutStorageRetentions = s.withoutStorageRetentions := rfl

theorem validated_unversioned : Validated d s.unversioned ↔ Validated d s :=
  ⟨fun h => ⟨h.logs, h.application, h.hosting⟩, fun h => ⟨h.logs, h.application, h.hosting⟩⟩

theorem Validated.of_unversioned (h : Validated d s) (hSame : t.unversioned = s.unversioned) : Validated d t :=
  validated_unversioned.mp (hSame ▸ validated_unversioned.mpr h)

-- Calls that succeed.

theorem call_ok (h : call d w op j = (.ok (), j')) :
    (op.target d j.state = .ok none ∧ j' = j) ∨
      ∃ t, op.target d j.state = .ok (some t) ∧ persistLocked d t = .ok j' := by
  unfold call at h
  cases hTarget : op.target d j.state with
  | error e => simp [hTarget] at h
  | ok target =>
    cases target with
    | none =>
      simp only [hTarget, Prod.mk.injEq, true_and] at h
      exact Or.inl ⟨rfl, h.symm⟩
    | some t =>
      refine Or.inr ⟨t, rfl, ?_⟩
      simp only [hTarget, persistCall] at h
      cases hPersist : persistLocked d t with
      | error e => simp [hPersist] at h
      | ok _ =>
        cases w with
        | written =>
          simp only [hPersist, Prod.mk.injEq, true_and] at h
          rw [h]
        | failed e => simp [hPersist] at h
        | unsynced e => simp [hPersist] at h

theorem call_error_unversioned {e : String} (h : call d w op j = (.error e, j')) :
    j'.state.unversioned = j.state.unversioned := by
  rcases call_error h with ⟨hSame, -⟩ | ⟨t, -, hState⟩
  · rw [hSame]
  · rw [hState, unversioned_withVersion]

theorem call_error_file {e : String} (h : call d w op j = (.error e, j')) (hSynced : (Step.call w op).Synced) :
    j'.file = j.file := by
  unfold call at h
  cases hTarget : op.target d j.state with
  | error _ =>
    simp only [hTarget, Prod.mk.injEq] at h
    rw [← h.2]
  | ok target =>
    cases target with
    | none => simp [hTarget] at h
    | some t =>
      simp only [hTarget, persistCall] at h
      cases hPersist : persistLocked d t with
      | error _ =>
        simp only [hPersist, Prod.mk.injEq] at h
        rw [← h.2]
      | ok _ =>
        cases w with
        | written => simp [hPersist] at h
        | failed _ =>
          simp only [hPersist, Prod.mk.injEq] at h
          rw [← h.2]
        | unsynced _ => exact hSynced.elim

-- What is persisted.

theorem persistLocked_unversioned (h : persistLocked d t = .ok j) : j.state.unversioned = t.unversioned := by
  rw [(persistLocked_ok h).2.1, unversioned_withVersion]

theorem persistLocked_tracked (hHosting : ∀ e ∈ t.hosting, d.validateJournalHosting e = .ok ())
    (h : persistLocked d t = .ok j) : Tracked d j := by
  obtain ⟨hChecked, hState, hFile⟩ := persistLocked_ok h
  refine ⟨?_, ?_⟩
  · rw [hFile, Option.getD_some, unversioned_importWire, unversioned_stackWire]
  · have hValidated : Validated d t := ⟨hChecked.logs, hChecked.application, hHosting⟩
    exact hValidated.of_unversioned (persistLocked_unversioned h)

theorem Operation.target_hosting (h : op.target d s = .ok (some t))
    (hHosting : ∀ e ∈ s.hosting, d.validateJournalHosting e = .ok ()) :
    ∀ e ∈ t.hosting, d.validateJournalHosting e = .ok () := by
  intro e he
  exact ((Operation.frame h).hosting e he).elim (hHosting e) id

-- What is opened.

theorem unwrapImports_unversioned (h : unwrapImports s = .ok t) : t.unversioned = s.unversioned := by
  unfold unwrapImports at h
  split at h <;>
    · simp only [bind_eq_ok, exists_unit, pure_eq_ok] at h
      exact h.2 ▸ rfl

theorem unwrapStack_unversioned (h : unwrapStack s = .ok t) : t.unversioned = s.unversioned := by
  unfold unwrapStack at h
  split at h <;>
    · simp only [bind_eq_ok, exists_unit, pure_eq_ok] at h
      exact h.2 ▸ rfl

-- The two storage stages only touch the versions and the storage retentions.
theorem validateSettledState_of_validate (h : validateJournalState d s = .ok ()) :
    ∃ u, validateSettledState d u = .ok () ∧
      u.withoutStorageRetentions.unversioned = s.withoutStorageRetentions.unversioned := by
  unfold validateJournalState at h
  simp only [bind_eq_ok, exists_unit] at h
  obtain ⟨-, t, hStage1, u, hStage2, hSettled⟩ := h
  refine ⟨u, hSettled, ?_⟩
  have hFirst : t.withoutStorageRetentions.unversioned = s.withoutStorageRetentions.unversioned := by
    unfold storageRetentionStage at hStage1
    split at hStage1
    · rw [Except.ok.inj hStage1]
    · simp only [bind_eq_ok, exists_unit, pure_eq_ok] at hStage1
      rw [← hStage1.2.2.2, unversioned_without_withVersion, without_without]
  have hSecond : u.withoutStorageRetentions.unversioned = t.withoutStorageRetentions.unversioned := by
    unfold storageTransferStage at hStage2
    split at hStage2
    · rw [Except.ok.inj hStage2]
    · simp only [bind_eq_ok, exists_unit, pure_eq_ok] at hStage2
      rw [← hStage2.2.2, unversioned_without_withVersion]
  rw [hSecond, hFirst]

theorem validateHostingEntries_valid {ids r : List String} (h : validateHostingEntries d s ids = .ok r) :
    ∀ e ∈ s.hosting, d.validateJournalHosting e = .ok () := by
  unfold validateHostingEntries at h
  simp only [bind_eq_ok, exists_unit, recordIDs_eq_ok] at h
  obtain ⟨-, -, -, -, -, hEntries, -⟩ := h
  intro e he
  have hEntry := (hEntries e he).1
  unfold validateHostingEntry at hEntry
  simp only [bind_eq_ok, exists_unit] at hEntry
  exact hEntry.2.2.2.2.2.2.2.2.2

theorem validateSettledState_validated (h : validateSettledState d s = .ok ()) : Validated d s := by
  unfold validateSettledState at h
  simp only [bind_eq_ok, exists_unit] at h
  obtain ⟨-, hApplication, -, -, -, -, -, ids, -, ids', hHosting, -, -, hLogs⟩ := h
  exact ⟨buildLogs_of_validate s.version hLogs, hApplication, validateHostingEntries_valid hHosting⟩

theorem validateJournalState_validated (h : validateJournalState d s = .ok ()) : Validated d s := by
  obtain ⟨u, hSettled, hSame⟩ := validateSettledState_of_validate h
  have hValidated := validateSettledState_validated hSettled
  have hBare : Validated d u.withoutStorageRetentions.unversioned :=
    ⟨hValidated.logs, hValidated.application, hValidated.hosting⟩
  rw [hSame] at hBare
  exact ⟨hBare.logs, hBare.application, hBare.hosting⟩

theorem empty_tracked : Tracked d {} := by
  refine ⟨rfl, ⟨.inl rfl, rfl, ?_⟩⟩
  intro e he
  cases he

theorem openAttemptJournal_tracked {file : Option JournalState} (h : openAttemptJournal d file = .ok j) :
    Tracked d j ∧ j.file = file := by
  cases file with
  | none =>
    cases h
    exact ⟨empty_tracked, rfl⟩
  | some _ =>
    simp only [openAttemptJournal, bind_eq_ok, exists_unit, pure_eq_ok] at h
    obtain ⟨s₁, hImports, s₂, hStack, hValid, rfl⟩ := h
    refine ⟨⟨?_, validateJournalState_validated hValid⟩, rfl⟩
    rw [unwrapStack_unversioned hStack, unwrapImports_unversioned hImports, Option.getD_some]

-- One step and whole runs.

theorem call_validated (hValidated : Validated d j.state) : Validated d (call d w op j).2.state := by
  obtain ⟨outcome, j', hCall⟩ : ∃ outcome j', call d w op j = (outcome, j') := ⟨_, _, rfl⟩
  rw [hCall]
  cases outcome with
  | error e => exact hValidated.of_unversioned (call_error_unversioned hCall)
  | ok u =>
    rcases call_ok hCall with ⟨-, hSame⟩ | ⟨t, hTarget, hPersist⟩
    · exact hSame ▸ hValidated
    · exact (persistLocked_tracked (Operation.target_hosting hTarget hValidated.hosting) hPersist).validated

theorem call_tracked (hTracked : Tracked d j) (hSynced : (Step.call w op).Synced) :
    Tracked d (call d w op j).2 := by
  refine ⟨?_, call_validated hTracked.validated⟩
  obtain ⟨outcome, j', hCall⟩ : ∃ outcome j', call d w op j = (outcome, j') := ⟨_, _, rfl⟩
  rw [hCall]
  cases outcome with
  | error e => rw [call_error_unversioned hCall, call_error_file hCall hSynced, hTracked.synced]
  | ok u =>
    rcases call_ok hCall with ⟨-, hSame⟩ | ⟨t, hTarget, hPersist⟩
    · exact hSame ▸ hTracked.synced
    · have hHosting := Operation.target_hosting hTarget hTracked.validated.hosting
      exact (persistLocked_tracked hHosting hPersist).synced

theorem step_tracked {st : Step} (hTracked : Tracked d j) (hSynced : st.Synced) (h : step d j st = .ok j') :
    Tracked d j' := by
  cases st with
  | call _ _ =>
    cases h
    exact call_tracked hTracked hSynced
  | reopen => exact (openAttemptJournal_tracked h).1

theorem runSteps_tracked {steps : List Step} (hTracked : Tracked d j) (hSynced : ∀ st ∈ steps, st.Synced)
    (h : runSteps d steps j = .ok j') : Tracked d j' := by
  induction steps generalizing j with
  | nil => exact Except.ok.inj h ▸ hTracked
  | cons st _ ih =>
    simp only [runSteps, bind_eq_ok] at h
    obtain ⟨j₁, hStep, hRest⟩ := h
    have hFirst := step_tracked hTracked (hSynced st List.mem_cons_self) hStep
    exact ih hFirst (fun st' hMem => hSynced st' (List.mem_cons_of_mem _ hMem)) hRest

theorem opened_tracked {file : Option JournalState} {steps : List Step} (hOpened : openAttemptJournal d file = .ok j)
    (hSynced : ∀ st ∈ steps, st.Synced) (h : runSteps d steps j = .ok j') : Tracked d j' :=
  runSteps_tracked (openAttemptJournal_tracked hOpened).1 hSynced h

end

end NeroCD.Journal
