import NeroCD.Store.Frames
import NeroCD.Store.Links

-- The records from which requests are answered again: log events, provenance replays, transitions and
-- completed leases. Each comes from an operation that succeeded.

namespace NeroCD.Store

open NeroCD.Domain NeroCD.Records

def MemoryStore.receipts (s : MemoryStore) : List RunLog × GoMap ProvenanceReplay :=
  (s.logs, s.provenanceReplays)

def Operation.LeavesReceipts : Operation → Prop
  | .createRunRequest _ _ _ _ | .createRunLog _ | .createRunLogForLease _ _ _ _ _ _
  | .createRunLogsForLease _ _ _ _ _ _ _ | .completeLeaseRequest _ _ _ _ _ _ _ _ _ _ _ _
  | .cancelRunRequest _ _ _ _ | .resolveRevisionProvenance _ _ _ => False
  | _ => True

variable {s : MemoryStore} {logs : List RunLog} {runID leaseID : String} {attempt : Int}
  {events : List (RunLog × Option RunLog)}

theorem perform_receipts (op : Operation) (h : op.LeavesReceipts) : (perform op s).2.receipts = s.receipts := by
  have hNot : op.writes .logs = false ∧ op.writes .provenanceReplays = false := by
    cases op with
    | createRunRequest | createRunLog | createRunLogForLease | createRunLogsForLease | completeLeaseRequest
    | cancelRunRequest | resolveRevisionProvenance => exact h.elim
    | _ => exact ⟨rfl, rfl⟩
  exact Prod.ext ((perform_writes op).logs hNot.1) ((perform_writes op).provenanceReplays hNot.2)

structure SameEvent (event log : RunLog) : Prop where
  runID : event.runID = log.runID
  eventKey : event.eventKey = log.eventKey
  leaseID : event.leaseID = log.leaseID
  attempt : event.attempt = log.attempt
  requestedSequence : event.requestedSequence = log.requestedSequence
  stream : event.stream = log.stream
  message : event.message = log.message

theorem sameEvent_sequenced (logs : List RunLog) (log : RunLog) : SameEvent log (sequenced logs log) :=
  ⟨rfl, rfl, rfl, rfl, rfl, rfl, rfl⟩

def Operation.Appends (runnerID fence : String) (log : RunLog) : Operation → Prop
  | .createRunLogsForLease logs runID runnerID' leaseID attempt fence' _ =>
    (runID = log.runID ∧ leaseID = log.leaseID ∧ attempt = log.attempt) ∧
      (runnerID' = runnerID ∧ fence' = fence) ∧ ∃ event ∈ logs, SameEvent event log
  | .createRunLogForLease event runnerID' leaseID attempt fence' _ =>
    (event.runID = log.runID ∧ leaseID = log.leaseID ∧ attempt = log.attempt) ∧
      (runnerID' = runnerID ∧ fence' = fence) ∧ SameEvent event log
  | _ => False

-- Logs that are not appended by runners carry no event key, and a completed lease is not left active.
def Operation.KeepsRecords : Operation → Prop
  | .createRunRequest _ log _ _ => log.eventKey = ""
  | .createRunLog log => log.eventKey = ""
  | .cancelRunRequest _ _ log _ => log.eventKey = ""
  | .completeLeaseRequest _ _ status _ _ _ _ _ _ _ logs _ =>
    status ≠ .active ∧ ∀ log ∈ logs, log.eventKey = ""
  | _ => True

theorem storedEvent_ok {log : RunLog} {stored : Option RunLog}
    (h : storedEvent logs runID leaseID attempt log = .ok stored) :
    (log.runID = runID ∧ log.leaseID = leaseID ∧ log.attempt = attempt ∧ log.eventKey ≠ "") ∧
      ∀ existing, stored = some existing → existing ∈ logs ∧ SameEvent log existing := by
  unfold storedEvent at h
  split at h
  · cases h
  rename_i hNamed
  simp only [Bool.or_eq_true, bne_iff_ne, ne_eq, beq_iff_eq, decide_eq_true_eq, not_or, not_not] at hNamed
  obtain ⟨⟨⟨⟨hRun, hKey⟩, -⟩, hLease⟩, hAttempt⟩ := hNamed
  refine ⟨⟨hRun, hLease, hAttempt, hKey⟩, ?_⟩
  split at h
  · cases h
    intro existing hEq
    cases hEq
  rename_i found hFound
  split at h
  · cases h
  rename_i hSame
  simp only [Bool.or_eq_true, bne_iff_ne, ne_eq, not_or, not_not] at hSame
  obtain ⟨⟨⟨⟨hFoundLease, hFoundAttempt⟩, hSequence⟩, hStream⟩, hMessage⟩ := hSame
  have hFoundKey := List.find?_some hFound
  simp only [Bool.and_eq_true, beq_iff_eq] at hFoundKey
  cases h
  intro existing hEq
  cases hEq
  exact ⟨List.mem_of_find?_eq_some hFound, hRun.trans hFoundKey.1.symm, hFoundKey.2.symm,
    hLease.trans hFoundLease.symm, hAttempt.trans hFoundAttempt.symm, hSequence.symm, hStream.symm,
    hMessage.symm⟩

theorem storedEvents_ok {batch : List RunLog} (h : storedEvents logs runID leaseID attempt batch = .ok events) :
    events.map Prod.fst = batch ∧
      ∀ event ∈ events, storedEvent logs runID leaseID attempt event.1 = .ok event.2 := by
  induction batch generalizing events with
  | nil =>
    unfold storedEvents at h
    cases h
    simp
  | cons _ _ ih =>
    unfold storedEvents at h
    split at h
    · cases h
    rename_i stored hStored
    split at h
    · cases h
    rename_i others hOthers
    cases h
    obtain ⟨hMap, hEach⟩ := ih hOthers
    refine ⟨by rw [List.map_cons, hMap], ?_⟩
    intro event hEvent
    cases List.mem_cons.mp hEvent with
    | inl hEq =>
      rw [hEq]
      exact hStored
    | inr hRest => exact hEach event hRest

theorem mem_storeEvents (log : RunLog) (h : log ∈ (storeEvents events logs).2) :
    log ∈ logs ∨ ∃ event ∈ events, SameEvent event.1 log := by
  induction events generalizing logs with
  | nil => exact .inl h
  | cons event rest ih =>
    have hLift (hRest : ∃ event ∈ rest, SameEvent event.1 log) :
        ∃ e ∈ event :: rest, SameEvent e.1 log := by
      obtain ⟨e, he, hSame⟩ := hRest
      exact ⟨e, List.mem_cons_of_mem _ he, hSame⟩
    obtain ⟨new, stored⟩ := event
    cases stored with
    | some _ => exact (ih h).imp_right hLift
    | none =>
      cases ih h with
      | inr hRest => exact .inr (hLift hRest)
      | inl hOld =>
        cases List.mem_append.mp hOld with
        | inl hOld => exact .inl hOld
        | inr hNew =>
          rw [List.mem_singleton.mp hNew]
          exact .inr ⟨_, List.mem_cons_self, sameEvent_sequenced _ _⟩

theorem storeEvents_stored (h : ∀ event ∈ events, event.2.isSome = true) :
    (storeEvents events logs).2 = logs ∧
      List.Forall₂ (fun event log => event.2 = some log) events (storeEvents events logs).1 := by
  induction events with
  | nil => exact ⟨rfl, .nil⟩
  | cons event _ ih =>
    obtain ⟨hLogs, hResults⟩ := ih (fun e he => h e (List.mem_cons_of_mem _ he))
    obtain ⟨log, stored⟩ := event
    cases stored with
    | none => exact absurd (h _ List.mem_cons_self) (by simp)
    | some _ => exact ⟨hLogs, .cons rfl hResults⟩

section

variable {s : MemoryStore}

theorem createRunLogsForLease_logs (logs : List RunLog) (runID runnerID leaseID : String) (attempt : Int)
    (fence : String) (now : Time) (log : RunLog)
    (h : log ∈ (createRunLogsForLease logs runID runnerID leaseID attempt fence now s).2.logs) :
    log ∈ s.logs ∨
      ((createRunLogsForLease logs runID runnerID leaseID attempt fence now s).1.isOk = true ∧
        (runID = log.runID ∧ leaseID = log.leaseID ∧ attempt = log.attempt) ∧
        (∃ event ∈ logs, SameEvent event log) ∧
        ∃ l ∈ s.leases, leaseNamed leaseID runID runnerID attempt fence l = true) := by
  revert h
  unfold createRunLogsForLease
  split
  · exact fun h => .inl h
  split
  · exact fun h => .inl h
  rename_i hNamed
  rw [Bool.not_eq_true', Bool.not_eq_false, List.any_eq_true] at hNamed
  split
  · exact fun h => .inl h
  rename_i events hEvents
  split
  · exact fun h => .inl h
  intro h
  obtain ⟨hMap, hEach⟩ := storedEvents_ok hEvents
  refine (mem_storeEvents log h).imp_right ?_
  intro hNew
  obtain ⟨event, hEvent, hSame⟩ := hNew
  obtain ⟨⟨hRun, hLease, hAttempt, -⟩, -⟩ := storedEvent_ok (hEach event hEvent)
  refine ⟨rfl, ⟨hRun.symm.trans hSame.runID, hLease.symm.trans hSame.leaseID,
    hAttempt.symm.trans hSame.attempt⟩, ⟨event.1, ?_, hSame⟩, hNamed⟩
  rw [← hMap]
  exact List.mem_map.mpr ⟨event, hEvent, rfl⟩

theorem mem_createRunLogs {logs : List RunLog} {log : RunLog}
    (h : log ∈ (logs.foldl (fun s log => createRunLogLocked log s) s).logs) :
    log ∈ s.logs ∨ ∃ event ∈ logs, SameEvent event log := by
  induction logs generalizing s with
  | nil => exact .inl h
  | cons first _ ih =>
    rw [List.foldl_cons] at h
    cases ih h with
    | inr hRest =>
      obtain ⟨event, hEvent, hSame⟩ := hRest
      exact .inr ⟨event, List.mem_cons_of_mem _ hEvent, hSame⟩
    | inl hOld =>
      cases List.mem_append.mp hOld with
      | inl hOld => exact .inl hOld
      | inr hNew =>
        rw [List.mem_singleton.mp hNew]
        exact .inr ⟨first, List.mem_cons_self, sameEvent_sequenced _ _⟩

theorem resolveRevisionProvenance_receipts (req : ProvenanceRequest) (audit : AuditEvent) (now : Time) :
    (resolveRevisionProvenance req audit now s).2.receipts = s.receipts ∨
      ((resolveRevisionProvenance req audit now s).1.isOk = true ∧
        ∃ r, (resolveRevisionProvenance req audit now s).2.receipts = (s.logs, s.provenanceReplays.insert
          (provenanceKey req.deploymentID req.resolutionID) (provenanceReplay req r))) := by
  unfold resolveRevisionProvenance
  split
  · split <;> exact .inl rfl
  split
  · exact .inl rfl
  split
  · exact .inl rfl
  split
  · exact .inl rfl
  · rename_i r _
    refine .inr ⟨rfl, r, ?_⟩
    simp only
    split <;> rfl

theorem perform_logs (op : Operation) (hKeeps : op.KeepsRecords) (log : RunLog)
    (h : log ∈ (perform op s).2.logs) :
    log ∈ s.logs ∨ log.eventKey = "" ∨
      ((perform op s).1.isOk = true ∧ ∃ runnerID fence, op.Appends runnerID fence log ∧
        ∃ l ∈ s.leases, leaseNamed log.leaseID log.runID runnerID log.attempt fence l = true) := by
  by_cases hLeaves : op.LeavesReceipts
  · have hSame : (perform op s).2.logs = s.logs := congrArg Prod.fst (perform_receipts op hLeaves)
    exact .inl (hSame ▸ h)
  cases op with
  | createRunRequest run new approval audit =>
    revert h
    show log ∈ (createRunRequest run new approval audit s).2.logs → _
    unfold createRunRequest
    split
    · exact fun h => .inl h
    · intro h
      refine (List.mem_append.mp h).imp_right (fun hNew => .inl ?_)
      rw [List.mem_singleton.mp hNew]
      exact hKeeps
  | createRunLog new =>
    revert h
    show log ∈ (createRunLog new s).2.logs → _
    unfold createRunLog
    split
    · exact fun h => .inl h
    split
    · exact fun h => .inl h
    · intro h
      refine (List.mem_append.mp h).imp_right (fun hNew => .inl ?_)
      rw [List.mem_singleton.mp hNew]
      exact hKeeps
  | createRunLogForLease new runnerID leaseID attempt fence now =>
    revert h
    show log ∈ (createRunLogForLease new runnerID leaseID attempt fence now s).2.logs →
      _ ∨ _ ∨ (Outcome.answer .log (createRunLogForLease new runnerID leaseID attempt fence now s)).1.isOk = true ∧ _
    have hBatch := createRunLogsForLease_logs (s := s) [new] new.runID runnerID leaseID attempt fence now log
    unfold createRunLogForLease
    split
    · split <;> rename_i hEq <;> rw [hEq] at hBatch
      · intro h
        refine (hBatch h).imp_right ?_
        intro hNew
        cases hNew.1
      · intro h
        refine (hBatch h).imp_right ?_
        intro hNew
        obtain ⟨-, hNamed, ⟨event, hEvent, hSame⟩, hLease⟩ := hNew
        rw [List.mem_singleton.mp hEvent] at hSame
        refine .inr ⟨rfl, runnerID, fence, ⟨hNamed, ⟨rfl, rfl⟩, hSame⟩, ?_⟩
        rw [← hNamed.1, ← hNamed.2.1, ← hNamed.2.2]
        exact hLease
    rename_i hKey
    rw [bne_iff_ne, ne_eq, not_not] at hKey
    split
    · exact fun h => .inl h
    split
    · intro h
      refine (List.mem_append.mp h).imp_right (fun hNew => .inl ?_)
      rw [List.mem_singleton.mp hNew]
      exact hKey
    · exact fun h => .inl h
  | createRunLogsForLease logs runID runnerID leaseID attempt fence now =>
    refine (createRunLogsForLease_logs logs runID runnerID leaseID attempt fence now log h).imp_right ?_
    intro hNew
    obtain ⟨hOk, hNamed, hEvent, hLease⟩ := hNew
    refine .inr ⟨(isOk_answer .logs _).trans hOk, runnerID, fence, ⟨hNamed, ⟨rfl, rfl⟩, hEvent⟩, ?_⟩
    rw [← hNamed.1, ← hNamed.2.1, ← hNamed.2.2]
    exact hLease
  | completeLeaseRequest leaseID runnerID status attempt fence completionKey completedAt runStatus finishedAt
      workflowState logs audit =>
      revert h
      show log ∈ (completeLeaseRequest leaseID runnerID status attempt fence completionKey completedAt
        runStatus finishedAt workflowState logs audit s).2.logs → _
      unfold completeLeaseRequest
      split
      · exact fun h => .inl h
      split
      · exact fun h => .inl h
      split
      · exact fun h => .inl h
      split
      · split <;> exact fun h => .inl h
      split
      · exact fun h => .inl h
      · intro h
        refine (mem_createRunLogs h).imp_right ?_
        intro hNew
        obtain ⟨event, hEvent, hSame⟩ := hNew
        rw [← hSame.eventKey]
        exact .inl (hKeeps.2 event hEvent)
  | cancelRunRequest runID canceledAt new audit =>
    revert h
    show log ∈ (cancelRunRequest runID canceledAt new audit s).2.logs → _
    unfold cancelRunRequest
    simp only
    split
    · exact fun h => .inl h
    split
    · exact fun h => .inl h
    · intro h
      refine (List.mem_append.mp h).imp_right (fun hNew => .inl ?_)
      rw [List.mem_singleton.mp hNew]
      exact hKeeps
  | resolveRevisionProvenance req audit now =>
    have hSame := (perform_writes (s := s) (.resolveRevisionProvenance req audit now)).logs rfl
    exact .inl (hSame ▸ h)
  | _ => exact absurd trivial hLeaves

end

section

variable {s : MemoryStore}

theorem perform_replays (op : Operation) (k : String) (replay : ProvenanceReplay)
    (h : (perform op s).2.provenanceReplays.lookup k = some replay) :
    s.provenanceReplays.lookup k = some replay ∨
      ((perform op s).1.isOk = true ∧ ∃ req audit now, .resolveRevisionProvenance req audit now = op ∧
        k = provenanceKey req.deploymentID req.resolutionID ∧ ∃ r, replay = provenanceReplay req r) := by
  have hSame (hEq : (perform op s).2.provenanceReplays = s.provenanceReplays) :
      s.provenanceReplays.lookup k = some replay := hEq ▸ h
  cases op with
  | resolveRevisionProvenance req audit now =>
    obtain hEq | ⟨hOk, r, hEq⟩ := resolveRevisionProvenance_receipts (s := s) req audit now
    · exact .inl (hSame (congrArg Prod.snd hEq))
    · have hReplays : (perform (.resolveRevisionProvenance req audit now) s).2.provenanceReplays =
          s.provenanceReplays.insert (provenanceKey req.deploymentID req.resolutionID)
            (provenanceReplay req r) := congrArg Prod.snd hEq
      rw [hReplays] at h
      by_cases hk : k = provenanceKey req.deploymentID req.resolutionID
      · rw [hk, Finmap.lookup_insert, Option.some.injEq] at h
        exact .inr ⟨(isOk_answer .revision _).trans hOk, req, audit, now, rfl, hk, r, h.symm⟩
      · rw [Finmap.lookup_insert_of_ne _ hk] at h
        exact .inl h
  | _ => exact .inl (hSame ((perform_writes _).provenanceReplays rfl))

end

inductive TransitionsAfter (D : Discipline) (a a' : Authority) : Prop
  | same (h : a'.deploymentTransitions = a.deploymentTransitions)
  | more (t : DeploymentTransitionRequest) (hRecords : D.transitions t)
      (h : a'.deploymentTransitions = a.deploymentTransitions.insert
        (transitionRecordKey t.deploymentID t.transitionKey) t)
      (hNew : a.deploymentTransitions.lookup (transitionRecordKey t.deploymentID t.transitionKey) = none ∨
        ∃ d ∈ a.deployments, d.id = t.deploymentID ∧ failureStatus d.status = true)

structure Authority.Ledger (D : Discipline) (a : Authority) : Prop where
  leaseIDs : Keyed (fun l : RunLease => l.id) a.leases
  transitions : ∀ k t, a.deploymentTransitions.lookup k = some t →
    k = transitionRecordKey t.deploymentID t.transitionKey ∧ D.transitions t
  completions : ∀ l ∈ a.leases, l.completionKey ≠ "" → D.completions l

section

variable {D : Discipline} {a a' : Authority}

theorem Authority.Linkage.not_stranded (hLinks : a.Linkage) {req : DeploymentFailureRollbackRequest}
    {l : RunLease} {t : DeploymentAttempt} {r : TaskRun} {d : Deployment} {e : Environment} (hl : l ∈ a.leases)
    (hHeld : Held req.deploymentID req.runID req.leaseID req.runnerID req.attempt req.fence l t r)
    (hd : d ∈ a.deployments) (hBacks : d.taskRunID = some req.runID) (he : e ∈ a.environments)
    (hEnv : e.id = d.environmentID) :
    ¬ ∀ v, a.services.find? (fun service => service.id == e.serviceID) = some v → v.projectID = "" := by
  intro hMissing
  have hRun : l.runID = req.runID := ((leaseNamed_iff _ _ _ _ _ _).mp hHeld.lease).2.1
  obtain ⟨v, hv, hProject⟩ := hLinks.project hl hd (hRun ▸ hBacks) he hEnv
  exact hProject (hMissing v hv)

theorem Effect.transitions (h : Effect D a a') (hLinks : a.Linkage) : TransitionsAfter D a a' := by
  cases h with
  | addRun | addApproval | decide | decideAbsent | editRun | claim | renew | expire | complete | cancelRun
  | addService | addEnvironment | addDeployment | confirm | failUnassigned | cancelNow
  | cancelLater => exact .same rfl
  | advance request _ _ _ _ _ _ _ _ _ hRecords hNew =>
    exact .more request hRecords rfl (.inl hNew)
  | finish request _ _ _ _ _ _ _ _ _ _ _ _ _ _ _ _ _ _ _ _ _ _ hRecords hNew =>
      exact .more request hRecords rfl (.inl hNew)
  | failSource req target d _ _ _ _ _ _ _ _ _ hd hID hBacks hStatus he hEnv hHeld hl _ _ hCause hRecords =>
      obtain ⟨hTarget, -⟩ | ⟨-, -, hMissing⟩ := hCause
      · refine .more (failureTransition req target) (hRecords hTarget) ?_ (.inr ⟨d, hd.mem_old, hID, hStatus⟩)
        rw [hID]
        rfl
      · exact absurd hMissing (hLinks.not_stranded hl.mem_old hHeld hd.mem_old hBacks he hEnv)
  | rollBack req _ d _ _ _ _ _ _ _ _ _ _ hd hID _ hStatus _ _ _ _ _ _ _ _ _ _ _ _ _ _ _ hRecords =>
      refine .more (failureTransition req .rollingBack) hRecords ?_ (.inr ⟨d, hd.mem_old, hID, hStatus⟩)
      rw [hID]
      rfl

theorem Effect.lease_ids (h : Effect D a a') (hOld : Keyed (fun l : RunLease => l.id) a.leases) :
    Keyed (fun l : RunLease => l.id) a'.leases := by
  rw [keyed_iff_nodup] at hOld ⊢
  cases h.leases with
  | same hLeases =>
    rwa [map_eq_of_forall₂ hLeases]
    intro l l' hStep
    exact congrArg Prod.fst hStep.identity
  | claimed _ _ hLeases hFresh =>
    rw [hLeases, List.map_append, List.nodup_append]
    refine ⟨hOld, by simp, ?_⟩
    intro x hx y hy hxy
    obtain ⟨l, hl, rfl⟩ := List.mem_map.mp hx
    exact hFresh l hl (hxy.trans (by simpa using hy))

theorem Effect.lease_kept (h : Effect D a a') : a.leases.map leaseIdentity ⊆ a'.leases.map leaseIdentity := by
  cases h.leases with
  | same hLeases =>
    rw [map_eq_of_forall₂ hLeases leaseIdentity (fun _ _ hStep => hStep.identity)]
    exact List.Subset.refl _
  | claimed _ _ hLeases =>
    rw [hLeases, List.map_append]
    exact List.subset_append_left _ _

theorem Effect.ledger (h : Effect D a a') (hLinks : a.Linkage) (hLedger : a.Ledger D)
    (hClosed : ∀ l, D.completions l → l.status ≠ .active) : a'.Ledger D where
  leaseIDs := h.lease_ids hLedger.leaseIDs
  transitions := by
    intro k t hLookup
    cases h.transitions hLinks with
    | same hEq => exact hLedger.transitions k t (hEq ▸ hLookup)
    | more t' hRecords hEq =>
      rw [hEq] at hLookup
      by_cases hk : k = transitionRecordKey t'.deploymentID t'.transitionKey
      · subst hk
        rw [Finmap.lookup_insert, Option.some.injEq] at hLookup
        subst hLookup
        exact ⟨rfl, hRecords⟩
      · rw [Finmap.lookup_insert_of_ne _ hk] at hLookup
        exact hLedger.transitions k t hLookup
  completions := by
    intro l' hl' hKey
    cases h.leases with
    | same hLeases =>
      obtain ⟨l, hl, hStep⟩ := exists_of_forall₂_right hLeases l' hl'
      cases hStep with
      | kept => exact hLedger.completions _ hl hKey
      | changed _ hActive _ hKept =>
        cases hKept with
        | inr hCompleted => exact hCompleted
        | inl hSame =>
          -- an active lease has not been completed
          rw [hSame] at hKey
          exact absurd hActive (hClosed l (hLedger.completions l hl hKey))
    | claimed _ _ hLeases _ hNoKey =>
      rw [hLeases] at hl'
      cases List.mem_append.mp hl' with
      | inl hOld => exact hLedger.completions l' hOld hKey
      | inr hNew =>
        rw [List.mem_singleton.mp hNew] at hKey
        exact absurd hNoKey hKey

end

-- Deployments and services are created as the service does it; the status of runs may be set at will.
def deploymentDiscipline : Discipline := { runs := False, deployments := True }

structure Recorded (past : List Operation) (s : MemoryStore) : Prop where
  sound : s.authority.Sound deploymentDiscipline
  links : s.authority.Linkage
  leaseIDs : Keyed (fun l : RunLease => l.id) s.leases
  transitions : ∀ k t, s.deploymentTransitions.lookup k = some t →
    k = transitionRecordKey t.deploymentID t.transitionKey ∧ ∃ op ∈ past, op.Records t
  completions : ∀ l ∈ s.leases, l.completionKey ≠ "" → (∃ op ∈ past, op.Completes l) ∧ l.status ≠ .active
  logs : ∀ log ∈ s.logs, log.eventKey ≠ "" → ∃ runnerID fence, (∃ op ∈ past, op.Appends runnerID fence log) ∧
    ∃ l ∈ s.leases, leaseNamed log.leaseID log.runID runnerID log.attempt fence l = true
  replays : ∀ k replay, s.provenanceReplays.lookup k = some replay →
    ∃ req audit now, .resolveRevisionProvenance req audit now ∈ past ∧
      k = provenanceKey req.deploymentID req.resolutionID ∧ ∃ r, replay = provenanceReplay req r

def StoreAdmitted (s : MemoryStore) (op : Operation) : Prop :=
  op.Fresh s ∧ op.KeepsDeployments s ∧ op.KeepsRecords

theorem leaseNamed_kept {leases leases' : List RunLease} {runnerID fence : String}
    (hKept : leases.map leaseIdentity ⊆ leases'.map leaseIdentity)
    (h : ∃ l ∈ leases, leaseNamed leaseID runID runnerID attempt fence l = true) :
    ∃ l ∈ leases', leaseNamed leaseID runID runnerID attempt fence l = true := by
  obtain ⟨l, hl, hNamed⟩ := h
  obtain ⟨l', hl', hSame⟩ := List.mem_map.mp (hKept (List.mem_map.mpr ⟨l, hl, rfl⟩))
  unfold leaseIdentity at hSame
  simp only [Prod.mk.injEq] at hSame
  rw [leaseNamed_iff] at hNamed
  refine ⟨l', hl', ?_⟩
  rw [leaseNamed_iff, hSame.1, hSame.2.1, hSame.2.2.1, hSame.2.2.2.1, hSame.2.2.2.2]
  exact hNamed

theorem Recorded.perform {past : List Operation} (h : Recorded past s) (op : Operation)
    (hAdmitted : StoreAdmitted s op) :
    Recorded (if (perform op s).1.isOk then op :: past else past) (perform op s).2 := by
  generalize hNow : (if (NeroCD.Store.perform op s).1.isOk then op :: past else past) = now
  have hPast : past ⊆ now := by
    rw [← hNow]
    split
    · exact List.subset_cons_self _ _
    · exact List.Subset.refl _
  have hOp (hOk : (NeroCD.Store.perform op s).1.isOk = true) : op ∈ now := by
    rw [← hNow, if_pos hOk]
    exact List.mem_cons_self
  let D : Discipline := { deploymentDiscipline with
    transitions := fun t => ∃ op ∈ now, op.Records t
    completions := fun l => (∃ op ∈ now, op.Completes l) ∧ l.status ≠ .active }
  have hSound : s.authority.Sound D := h.sound.weaken id id
  have hLedger : s.authority.Ledger D := by
    refine ⟨h.leaseIDs, ?_, ?_⟩
    · intro k t hLookup
      obtain ⟨hKey, earlier, hEarlier, hRecords⟩ := h.transitions k t hLookup
      exact ⟨hKey, earlier, hPast hEarlier, hRecords⟩
    · intro l hl hKey
      obtain ⟨⟨earlier, hEarlier, hCompletes⟩, hClosed⟩ := h.completions l hl hKey
      exact ⟨⟨earlier, hPast hEarlier, hCompletes⟩, hClosed⟩
  have hEffects : Effects D s.authority (NeroCD.Store.perform op s).2.authority := by
    apply perform_effects op hSound.formed hAdmitted.1 False.elim (fun _ => hAdmitted.2.1) (.inr trivial)
    · intro hOk t hRecords
      exact ⟨op, hOp hOk, hRecords⟩
    · intro hOk l hCompletes
      refine ⟨⟨op, hOp hOk, hCompletes⟩, ?_⟩
      cases op with
      | completeLeaseRequest =>
        rw [hCompletes.2.1]
        exact hAdmitted.2.2.1
      | _ => exact hCompletes.elim
  obtain ⟨hSound', hLinks', hLedger', hKept⟩ := hEffects.keeps
    (fun b => b.Sound D ∧ b.Linkage ∧ b.Ledger D ∧ s.leases.map leaseIdentity ⊆ b.leases.map leaseIdentity)
    (fun b b' hEffect hb => ⟨hEffect.sound hb.1, hEffect.linkage hb.1 hb.2.1 trivial,
      hEffect.ledger hb.2.1 hb.2.2.1 (fun _ hl => hl.2), List.Subset.trans hb.2.2.2 hEffect.lease_kept⟩)
    ⟨hSound, h.links, hLedger, List.Subset.refl _⟩
  refine ⟨hSound'.weaken id id, hLinks', hLedger'.leaseIDs, hLedger'.transitions, hLedger'.completions, ?_, ?_⟩
  · intro log hLog hKey
    obtain hOld | hNoKey | ⟨hOk, runnerID, fence, hAppends, hLease⟩ := perform_logs op hAdmitted.2.2 log hLog
    · obtain ⟨runnerID, fence, ⟨earlier, hEarlier, hAppends⟩, hLease⟩ := h.logs log hOld hKey
      exact ⟨runnerID, fence, ⟨earlier, hPast hEarlier, hAppends⟩, leaseNamed_kept hKept hLease⟩
    · exact absurd hNoKey hKey
    · exact ⟨runnerID, fence, ⟨op, hOp hOk, hAppends⟩, leaseNamed_kept hKept hLease⟩
  · intro k replay hLookup
    obtain hOld | ⟨hOk, req, audit, time, hEq, hKey⟩ := perform_replays op k replay hLookup
    · obtain ⟨req, audit, time, hEarlier, hKey⟩ := h.replays k replay hOld
      exact ⟨req, audit, time, hPast hEarlier, hKey⟩
    · exact ⟨req, audit, time, hEq ▸ hOp hOk, hKey⟩

theorem recorded_newMemoryStore : Recorded [] newMemoryStore where
  sound := sound_newMemoryStore _
  links := linkage_newMemoryStore
  leaseIDs := List.Pairwise.nil
  transitions := by
    intro k t hLookup
    simp [newMemoryStore] at hLookup
  completions := by simp [newMemoryStore]
  logs := by simp [newMemoryStore]
  replays := by
    intro k replay hLookup
    simp [newMemoryStore] at hLookup

theorem Reaches.recorded {past : List Operation} (h : Reaches StoreAdmitted past s) : Recorded past s := by
  induction h with
  | start => exact recorded_newMemoryStore
  | step _ _ op _ hAdmitted ih => exact ih.perform op hAdmitted

end NeroCD.Store
