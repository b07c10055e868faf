import NeroCD.Store.Operations

-- The parts of the store that each operation writes. What an operation does not write it leaves as it
-- was, whether it succeeds or not.

namespace NeroCD.Store

open NeroCD.Domain NeroCD.Records

-- `claims` are the cursors, the claim order and the attempt numbers.
inductive Part
  | runs
  | runners
  | leases
  | claims
  | logs
  | artifacts
  | approvals
  | auditEvents
  | services
  | environments
  | revisions
  | deployments
  | deploymentAttempts
  | deploymentTransitions
  | deploymentCancels
  | provenanceReplays

def MemoryStore.overwrite (s : MemoryStore) (parts : Part → Bool) (t : MemoryStore) : MemoryStore where
  runs := bif parts .runs then t.runs else s.runs
  runners := bif parts .runners then t.runners else s.runners
  leases := bif parts .leases then t.leases else s.leases
  claimCursors := bif parts .claims then t.claimCursors else s.claimCursors
  claimOrderByRun := bif parts .claims then t.claimOrderByRun else s.claimOrderByRun
  nextAttemptByRun := bif parts .claims then t.nextAttemptByRun else s.nextAttemptByRun
  logs := bif parts .logs then t.logs else s.logs
  artifacts := bif parts .artifacts then t.artifacts else s.artifacts
  approvals := bif parts .approvals then t.approvals else s.approvals
  auditEvents := bif parts .auditEvents then t.auditEvents else s.auditEvents
  services := bif parts .services then t.services else s.services
  environments := bif parts .environments then t.environments else s.environments
  revisions := bif parts .revisions then t.revisions else s.revisions
  deployments := bif parts .deployments then t.deployments else s.deployments
  deploymentAttempts := bif parts .deploymentAttempts then t.deploymentAttempts else s.deploymentAttempts
  deploymentTransitions := bif parts .deploymentTransitions then t.deploymentTransitions else s.deploymentTransitions
  deploymentCancels := bif parts .deploymentCancels then t.deploymentCancels else s.deploymentCancels
  provenanceReplays := bif parts .provenanceReplays then t.provenanceReplays else s.provenanceReplays

def Writes (parts : Part → Bool) (s t : MemoryStore) : Prop := t = s.overwrite parts t

section

variable {parts parts' : Part → Bool} {s t u : MemoryStore}

theorem Writes.refl (parts : Part → Bool) (s : MemoryStore) : Writes parts s s := by
  unfold Writes MemoryStore.overwrite
  simp only [Bool.cond_self]

theorem Writes.trans (h : Writes parts s t) (h' : Writes parts t u) : Writes parts s u := by
  unfold Writes at h h' ⊢
  have hTwice : (s.overwrite parts t).overwrite parts u = s.overwrite parts u := by
    unfold MemoryStore.overwrite
    congr 1 <;> (cases parts _ <;> rfl)
  rw [← hTwice, ← h]
  exact h'

theorem Writes.mono (h : Writes parts s t) (hParts : ∀ part, parts part = true → parts' part = true) :
    Writes parts' s t := by
  unfold Writes at h ⊢
  have hMore : (s.overwrite parts t) = s.overwrite parts' (s.overwrite parts t) := by
    unfold MemoryStore.overwrite
    congr 1 <;>
      (cases hp : parts _ with
      | false => exact (Bool.cond_self _ _).symm
      | true => rw [hParts _ hp]; rfl)
  rw [← h] at hMore
  exact hMore

theorem Writes.runs (h : Writes parts s t) (hNot : parts .runs = false) : t.runs = s.runs := by
  rw [h]
  simp only [MemoryStore.overwrite, hNot, cond_false]

theorem Writes.runners (h : Writes parts s t) (hNot : parts .runners = false) : t.runners = s.runners := by
  rw [h]
  simp only [MemoryStore.overwrite, hNot, cond_false]

theorem Writes.leases (h : Writes parts s t) (hNot : parts .leases = false) : t.leases = s.leases := by
  rw [h]
  simp only [MemoryStore.overwrite, hNot, cond_false]

theorem Writes.deployments (h : Writes parts s t) (hNot : parts .deployments = false) :
    t.deployments = s.deployments := by
  rw [h]
  simp only [MemoryStore.overwrite, hNot, cond_false]

theorem Writes.logs (h : Writes parts s t) (hNot : parts .logs = false) : t.logs = s.logs := by
  rw [h]
  simp only [MemoryStore.overwrite, hNot, cond_false]

theorem Writes.provenanceReplays (h : Writes parts s t) (hNot : parts .provenanceReplays = false) :
    t.provenanceReplays = s.provenanceReplays := by
  rw [h]
  simp only [MemoryStore.overwrite, hNot, cond_false]

end

def leaseParts : Part → Bool
  | .runs | .leases | .claims | .deploymentAttempts => true
  | _ => false

def logParts : Part → Bool
  | .logs => true
  | _ => false

-- A failed operation writes nothing, but for the sweep at the start of a claim and for a failure of a
-- deployment whose service has no project.
def Operation.writes : Operation → Part → Bool
  | .createRun _ => fun | .runs | .claims => true | _ => false
  | .createRunRequest _ _ _ _ => fun | .runs | .claims | .logs | .approvals | .auditEvents => true | _ => false
  | .updateRunStatus _ _ _ _ => fun | .runs | .claims => true | _ => false
  | .updateRunWorkflowState _ _ => fun | .runs => true | _ => false
  | .createApproval _ => fun | .approvals => true | _ => false
  | .approveRun _ _ _ _ => fun | .runs | .claims | .approvals | .auditEvents => true | _ => false
  | .rejectRun _ _ _ _ => fun | .runs | .approvals | .auditEvents => true | _ => false
  | .createRunLog _ | .createRunLogForLease _ _ _ _ _ _ | .createRunLogsForLease _ _ _ _ _ _ _ =>
    logParts
  | .createArtifact _ | .createArtifactForLease _ _ _ _ _ => fun | .artifacts => true | _ => false
  | .registerRunner _ _ | .updateRunnerToken _ _ _ _ _ => fun | .runners | .auditEvents => true | _ => false
  | .heartbeatRunner _ _ => fun | .runners => true | _ => false
  | .claimRun _ _ _ _ _ _ => fun
    | .runs | .leases | .claims | .deploymentAttempts | .runners | .deployments | .auditEvents => true
    | _ => false
  | .renewLease _ _ _ _ _ _ => fun | .leases => true | _ => false
  | .expireLeases _ => leaseParts
  | .completeLeaseRequest _ _ _ _ _ _ _ _ _ _ _ _ => fun
    | .runs | .leases | .claims | .logs | .auditEvents => true
    | _ => false
  | .cancelRunRequest _ _ _ _ => fun | .runs | .leases | .logs | .auditEvents => true | _ => false
  | .authorizeSecretAccess _ _ => fun | .auditEvents => true | _ => false
  | .createService _ _ => fun | .services | .auditEvents => true | _ => false
  | .createEnvironment _ _ => fun | .environments | .auditEvents => true | _ => false
  | .createRevision _ _ _ => fun | .revisions | .auditEvents => true | _ => false
  | .resolveRevisionProvenance _ _ _ => fun
    | .revisions | .provenanceReplays | .auditEvents => true
    | _ => false
  | .createDeploymentRequest _ _ _ => fun | .runs | .claims | .deployments | .auditEvents => true | _ => false
  | .confirmDeployment _ _ _ _ => fun | .runs | .claims | .deployments | .auditEvents => true | _ => false
  | .failPreAssignmentDeployment _ _ _ _ => fun | .runs | .deployments | .auditEvents => true | _ => false
  | .transitionDeploymentAttempt _ _ _ => fun
    | .runs | .leases | .deploymentAttempts | .environments | .deployments | .deploymentTransitions
    | .auditEvents => true
    | _ => false
  | .cancelDeploymentRequest _ _ _ => fun
    | .runs | .leases | .deploymentAttempts | .deployments | .deploymentCancels | .auditEvents => true
    | _ => false
  | .failDeploymentAndCreateRollback _ _ _ _ => fun
    | .runs | .leases | .claims | .deploymentAttempts | .deployments | .deploymentTransitions
    | .auditEvents => true
    | _ => false

section

variable {s : MemoryStore}

theorem writes_pushOptionalAudit (s : MemoryStore) (audit : Option AuditEvent) :
    s.pushOptionalAudit audit = { s with auditEvents := (s.pushOptionalAudit audit).auditEvents } := by
  cases audit <;> rfl

theorem writes_appendTargetedAudit (s : MemoryStore) (audit : Option AuditEvent) (targetID : String)
    (facts : List (String × Value)) : s.appendTargetedAudit audit targetID facts =
      { s with auditEvents := (s.appendTargetedAudit audit targetID facts).auditEvents } := by
  unfold MemoryStore.appendTargetedAudit
  split
  · rfl
  · split <;> rfl

theorem writes_createRunLogs (logs : List RunLog) (s : MemoryStore) :
    logs.foldl (fun s log => createRunLogLocked log s) s =
      { s with logs := (logs.foldl (fun s log => createRunLogLocked log s) s).logs } := by
  induction logs generalizing s with
  | nil => rfl
  | cons _ _ ih =>
    rw [List.foldl_cons, ih]
    rfl

theorem writes_createRunLogsForLease (logs : List RunLog) (runID runnerID leaseID : String) (attempt : Int)
    (fence : String) (now : Time) :
    Writes logParts s (createRunLogsForLease logs runID runnerID leaseID attempt fence now s).2 := by
  unfold createRunLogsForLease
  split
  · rfl
  split
  · rfl
  split
  · rfl
  · split <;> rfl

theorem writes_expireLease (now : Time) (i : Nat) : Writes leaseParts s (expireLease now s i) := by
  unfold expireLease
  split
  · exact Writes.refl _ s
  · split
    · exact Writes.refl _ s
    · split
      · exact Writes.refl _ s
      · rfl

theorem writes_expireLeasesLocked (now : Time) : Writes leaseParts s (expireLeasesLocked now s) := by
  unfold expireLeasesLocked
  generalize List.range s.leases.length = indexes
  induction indexes generalizing s with
  | nil => exact Writes.refl _ s
  | cons i _ ih => exact (writes_expireLease now i).trans ih

theorem writes_claimRun (runnerID : String) (now ttl : Time) (leaseToken fenceToken : Option String)
    (audit : Option AuditEvent) : Writes (Operation.claimRun runnerID now ttl leaseToken fenceToken audit).writes s
      (claimRun runnerID now ttl leaseToken fenceToken audit s).2 := by
  unfold claimRun
  split
  · exact Writes.refl _ s
  have hSweep : Writes leaseParts s (expireLeasesLocked now s) := writes_expireLeasesLocked now
  refine (hSweep.mono ?_).trans ?_
  · intro part hPart
    cases part <;> first | rfl | cases hPart
  generalize expireLeasesLocked now s = swept
  unfold claimQueued
  simp only
  split
  · rfl
  split
  · rfl
  split
  · split
    · unfold leaseRun
      simp only
      rw [writes_appendTargetedAudit]
      rfl
    · rfl
  · split
    · split <;> rfl
    · rfl

theorem writes_failDeploymentAndCreateRollback (req : DeploymentFailureRollbackRequest)
    (failedAudit rollbackAudit : AuditEvent) (now : Time) :
    Writes (Operation.failDeploymentAndCreateRollback req failedAudit rollbackAudit now).writes s
      (failDeploymentAndCreateRollback req failedAudit rollbackAudit now s).2 := by
  unfold failDeploymentAndCreateRollback
  split
  · exact Writes.refl _ s
  split
  · exact Writes.refl _ s
  split
  · exact Writes.refl _ s
  split
  · exact Writes.refl _ s
  split
  · rfl
  split
  · rfl
  split
  · exact Writes.refl _ s
  · unfold queueRollback
    simp only
    split <;> rfl

end

theorem perform_writes {s : MemoryStore} (op : Operation) : Writes op.writes s (perform op s).2 := by
  cases op with
  | createRun run =>
    show Writes _ s (createRun run s).2
    unfold createRun
    split <;> rfl
  | createRunRequest run log approval audit =>
    show Writes _ s (createRunRequest run log approval audit s).2
    unfold createRunRequest
    split <;> rfl
  | updateRunStatus id status finishedAt now =>
    show Writes _ s (updateRunStatus id status finishedAt now s).2
    unfold updateRunStatus
    split
    · rfl
    · split <;> rfl
  | updateRunWorkflowState id workflowState =>
    show Writes _ s (updateRunWorkflowState id workflowState s).2
    unfold updateRunWorkflowState
    split
    · rfl
    · split <;> rfl
  | createApproval approval =>
    show Writes _ s (createApproval approval s).2
    unfold createApproval
    split <;> rfl
  | approveRun runID actorID approvedAt audit =>
    show Writes _ s (approveRun runID actorID approvedAt audit s).2
    unfold approveRun
    split
    · rfl
    split
    · rfl
    split
    · rfl
    split
    · rfl
    · simp only
      rw [writes_appendTargetedAudit]
      rfl
  | rejectRun runID actorID rejectedAt audit =>
    show Writes _ s (rejectRun runID actorID rejectedAt audit s).2
    unfold rejectRun
    split
    · rfl
    split
    · rfl
    split
    · rfl
    · simp only
      rw [writes_appendTargetedAudit]
      rfl
  | createRunLog log =>
    show Writes _ s (createRunLog log s).2
    unfold createRunLog
    split
    · rfl
    · split <;> rfl
  | createRunLogForLease log runnerID leaseID attempt fence now =>
    have hBatch := writes_createRunLogsForLease (s := s) [log] log.runID runnerID leaseID attempt fence now
    show Writes _ s (createRunLogForLease log runnerID leaseID attempt fence now s).2
    unfold createRunLogForLease
    split
    · generalize createRunLogsForLease [log] log.runID runnerID leaseID attempt fence now s = outcome at hBatch
      obtain ⟨answer, t⟩ := outcome
      cases answer <;> exact hBatch
    · split
      · rfl
      · split <;> rfl
  | createRunLogsForLease => exact writes_createRunLogsForLease ..
  | createArtifact artifact =>
    show Writes _ s (createArtifact artifact s).2
    unfold createArtifact
    split <;> rfl
  | createArtifactForLease artifact runnerID attempt fence now =>
    show Writes _ s (createArtifactForLease artifact runnerID attempt fence now s).2
    unfold createArtifactForLease
    split <;> rfl
  | registerRunner runner audit =>
    show Writes _ s (registerRunner runner audit s).2
    unfold registerRunner
    split
    · rfl
    · rw [writes_pushOptionalAudit]
      rfl
  | updateRunnerToken runnerID tokenHash status updatedAt audit =>
    show Writes _ s (updateRunnerToken runnerID tokenHash status updatedAt audit s).2
    unfold updateRunnerToken
    split
    · rfl
    · simp only
      rw [writes_pushOptionalAudit]
      rfl
  | heartbeatRunner id heartbeatAt =>
    show Writes _ s (heartbeatRunner id heartbeatAt s).2
    unfold heartbeatRunner
    split <;> rfl
  | claimRun => exact writes_claimRun ..
  | renewLease runnerID leaseID fence attempt now ttl =>
    show Writes _ s (renewLease runnerID leaseID fence attempt now ttl s).2
    unfold renewLease
    simp only
    split <;> rfl
  | expireLeases now => exact writes_expireLeasesLocked now
  | completeLeaseRequest leaseID runnerID status attempt fence completionKey completedAt runStatus finishedAt
      workflowState logs audit =>
      show Writes _ s (completeLeaseRequest leaseID runnerID status attempt fence completionKey completedAt runStatus
        finishedAt workflowState logs audit s).2
      unfold completeLeaseRequest
      split
      · rfl
      split
      · rfl
      split
      · rfl
      split
      · split <;> rfl
      split
      · rfl
      · simp only
        rw [writes_createRunLogs]
        rfl
  | cancelRunRequest runID canceledAt log audit =>
    show Writes _ s (cancelRunRequest runID canceledAt log audit s).2
    unfold cancelRunRequest
    simp only
    split
    · rfl
    · split <;> rfl
  | authorizeSecretAccess toLower request =>
    show Writes _ s (authorizeSecretAccess toLower request s).2
    unfold authorizeSecretAccess
    simp only
    split
    · rfl
    split
    · split
      · rfl
      · split <;> split <;> rfl
    · split <;> split <;> rfl
  | createService v audit =>
    show Writes _ s (createService v audit s).2
    unfold createService
    split
    · rfl
    · rw [writes_pushOptionalAudit]
      rfl
  | createEnvironment v audit =>
    show Writes _ s (createEnvironment v audit s).2
    unfold createEnvironment
    split
    · rfl
    · rw [writes_pushOptionalAudit]
      rfl
  | createRevision v audit now =>
    show Writes _ s (createRevision v audit now s).2
    unfold createRevision
    split
    · split <;> rfl
    · simp only
      rw [writes_pushOptionalAudit]
      rfl
  | resolveRevisionProvenance req audit now =>
    show Writes _ s (resolveRevisionProvenance req audit now s).2
    unfold resolveRevisionProvenance
    split
    · split <;> rfl
    split
    · rfl
    split
    · rfl
    split
    · rfl
    · simp only
      split <;> rfl
  | createDeploymentRequest v run audit =>
    show Writes _ s (createDeploymentRequest v run audit s).2
    unfold createDeploymentRequest
    split
    · rfl
    split
    · rfl
    split
    · rfl
    split
    · rfl
    split
    · rfl
    split
    · rfl
    · split <;> rfl
  | confirmDeployment id confirmedBy audit now =>
    show Writes _ s (confirmDeployment id confirmedBy audit now s).2
    unfold confirmDeployment
    split
    · rfl
    split
    · rfl
    · split <;> rfl
  | failPreAssignmentDeployment id failureCode audit now =>
    show Writes _ s (failPreAssignmentDeployment id failureCode audit now s).2
    unfold failPreAssignmentDeployment
    split
    · rfl
    split
    · split <;> rfl
    split
    · rfl
    split
    · rfl
    · split <;> rfl
  | transitionDeploymentAttempt request audit now =>
    show Writes _ s (transitionDeploymentAttempt request audit now s).2
    unfold transitionDeploymentAttempt
    simp only
    split
    · rfl
    split
    · rfl
    split
    · split
      · rfl
      · split <;> rfl
    split
    · rfl
    split
    · rfl
    split
    · rfl
    split
    · rfl
    split
    · rfl
    · split <;> rfl
  | cancelDeploymentRequest req audit now =>
    show Writes _ s (cancelDeploymentRequest req audit now s).2
    unfold cancelDeploymentRequest cancelExecution
    split
    · split
      · rfl
      · split <;> rfl
    split
    · rfl
    split
    · rfl
    split
    · rfl
    simp only
    split
    · split <;> rfl
    · split <;> rfl
  | failDeploymentAndCreateRollback => exact writes_failDeploymentAndCreateRollback ..

end NeroCD.Store
