import NeroCD.Store.Effects

-- The deployment operations as effects, and the theorem for all operations.

namespace NeroCD.Store

open NeroCD.Domain NeroCD.Records

section

variable {D : Discipline} {s : MemoryStore}

theorem createService_effects (v : Service) (audit : Option AuditEvent)
    (hDeployments : D.deployments → v.projectID ≠ "") :
    Effects D s.authority (createService v audit s).2.authority := by
  unfold createService
  split
  · exact .none rfl
  · simp only [authority_pushOptionalAudit]
    exact .one (.addService v hDeployments)

theorem createEnvironment_effects (v : Environment) (audit : Option AuditEvent) :
    Effects D s.authority (createEnvironment v audit s).2.authority := by
  unfold createEnvironment
  split
  · exact .none rfl
  · rename_i hNew
    rw [Bool.not_eq_true, List.any_eq_false] at hNew
    simp only [authority_pushOptionalAudit]
    apply Effects.one
    apply Effect.addEnvironment v
    intro e he hEq
    exact hNew e he (by simp [hEq])

theorem createRevision_authority (v : Revision) (audit : Option AuditEvent) (now : Time) :
    (createRevision v audit now s).2.authority = s.authority := by
  unfold createRevision
  split
  · split <;> rfl
  · simp only [authority_pushOptionalAudit]
    rfl

theorem resolveRevisionProvenance_authority (req : ProvenanceRequest) (audit : AuditEvent) (now : Time) :
    (resolveRevisionProvenance req audit now s).2.authority = s.authority := by
  unfold resolveRevisionProvenance
  split
  · split <;> rfl
  split
  · rfl
  split
  · rfl
  split
  · rfl
  · simp only
    split <;> rfl

theorem canonicalComposeDeploymentRun_spec (d : Deployment) (run run' : TaskRun)
    (h : canonicalComposeDeploymentRun d run = .ok run') :
    ComposeTask d.id run' ∧ run'.status = run.status ∧ run'.id = run.id := by
  unfold canonicalComposeDeploymentRun at h
  simp only at h
  split at h
  · cases h
  split at h
  · cases h
  rename_i hValid
  cases h
  refine ⟨⟨?_, by simp⟩, rfl, rfl⟩
  -- the validation accepts only this type
  by_contra hType
  apply hValid
  unfold validateComposeDeploymentTask
  simp [hType, Except.isOk, Except.toBool]

theorem priorDeployment_none (v : Deployment) (deployments : List Deployment)
    (h : priorDeployment v deployments = none) (e : Deployment) (he : e ∈ deployments)
    (hEnv : e.environmentID = v.environmentID) : isTerminalDeploymentStatus e.status = true := by
  unfold priorDeployment at h
  have hNone := List.findSome?_eq_none_iff.mp h e he
  split at hNone
  · cases hNone
  split at hNone
  · cases hNone
  rename_i hOpen
  simpa [hEnv] using hOpen

theorem createDeploymentRequest_effects (v : Deployment) (run : TaskRun) (audit : AuditEvent)
    (hFresh : D.deployments → ∀ d ∈ s.deployments, d.id ≠ v.id)
    (hRun : run.status = .queued ∨ run.status = .waitingApproval)
    (hDeployments : D.deployments → v.status = .queued ∨ v.status = .waitingConfirmation) :
    Effects D s.authority (createDeploymentRequest v run audit s).2.authority := by
  unfold createDeploymentRequest
  split
  · exact .none rfl
  rename_i run' hCanonical
  obtain ⟨hTask, hStatus, -⟩ := canonicalComposeDeploymentRun_spec v run run' hCanonical
  split
  · exact .none rfl
  rename_i hRoot
  split
  · exact .none rfl
  rename_i e _
  split
  · exact .none rfl
  split
  · exact .none rfl
  split
  · exact .none rfl
  rename_i hPrior
  split
  · exact .none rfl
  rename_i hNewRun
  rw [Bool.not_eq_true, List.any_eq_false] at hNewRun
  simp only [authority_pushAudit]
  apply Effects.one
  apply Effect.addDeployment run' { v with
    fenceRequired := true
    taskRunID := some run'.id
    previousHealthyRevisionID := e.currentHealthyRevisionID } _ hFresh rfl (hStatus ▸ hRun) hTask
    (by simpa using hRoot) (fun e he hEnv => priorDeployment_none v _ hPrior e he hEnv) hDeployments
  intro r hr hEq
  exact hNewRun r hr (by simp [hEq])

theorem deploymentIs_iff (id : String) (d : Deployment) : deploymentIs id d = true ↔ d.id = id := by
  simp [deploymentIs]

theorem replaces_waitingRun (hFormed : s.authority.Formed) (runID : String) (f : TaskRun → TaskRun)
    (r : TaskRun) (hr : r ∈ s.runs) (hID : r.id = runID) :
    Replaces r (if waitingRun runID r then f r else r) s.runs (updateAll (waitingRun runID) f s.runs) := by
  by_cases hWaiting : waitingRun runID r = true
  · rw [if_pos hWaiting]
    apply replaces_updateAll (fun r : TaskRun => r.id) _ _ _ _ hFormed.runs hr hWaiting
    intro z _ hz
    exact ((waitingRun_iff runID z).mp hz).1.trans hID.symm
  · rw [if_neg hWaiting]
    have hSelf : updateAll (waitingRun runID) f s.runs = s.runs := by
      apply updateAll_eq_self
      intro z hz
      rw [← Bool.not_eq_true]
      intro hzWaiting
      have hEq : z = r := hFormed.runs.eq hz hr (((waitingRun_iff runID z).mp hzWaiting).1.trans hID.symm)
      exact hWaiting (hEq ▸ hzWaiting)
    rw [hSelf]
    obtain ⟨before, after, hSplit⟩ := List.append_of_mem hr
    exact ⟨before, after, hSplit, hSplit⟩

theorem confirmDeployment_effects (id confirmedBy : String) (audit : AuditEvent) (now : Time)
    (hFormed : s.authority.Formed) :
    Effects D s.authority (confirmDeployment id confirmedBy audit now s).2.authority := by
  unfold confirmDeployment
  split
  · exact .none rfl
  rename_i d hd
  split
  · exact .none rfl
  rename_i runID hRunID
  split
  · exact .none rfl
  rename_i hStatus
  rw [bne_iff_ne, ne_eq, not_not] at hStatus
  obtain ⟨r, hr, hBacks⟩ := hFormed.deployments d (List.mem_of_find?_eq_some hd)
  have hID : r.id = runID := by
    rw [hRunID, Option.some.injEq] at hBacks
    exact hBacks.symm
  simp only [authority_pushAudit]
  apply Effects.one
  apply Effect.confirm d _ _ r _ _ (replaces_updateFirst _ _ _ _ hd) hStatus hBacks confirmedBy now rfl
    (replaces_waitingRun hFormed runID (fun run => { run with status := .queued }) r hr hID)
  by_cases hWaiting : waitingRun runID r = true
  · rw [if_pos hWaiting]
    exact .inr ⟨((waitingRun_iff runID r).mp hWaiting).2, rfl⟩
  · rw [if_neg hWaiting]
    exact .inl rfl

theorem unassignedRun_iff (runID : String) (r : TaskRun) :
    unassignedRun runID r = true ↔ r.id = runID ∧ (r.status = .queued ∨ r.status = .waitingApproval) := by
  simp [unassignedRun]

theorem failPreAssignmentDeployment_effects (id failureCode : String) (audit : AuditEvent) (now : Time) :
    Effects D s.authority (failPreAssignmentDeployment id failureCode audit now s).2.authority := by
  unfold failPreAssignmentDeployment
  split
  · exact .none rfl
  rename_i d hd
  split
  · split <;> exact .none rfl
  split
  · exact .none rfl
  rename_i runID hRunID
  split
  · exact .none rfl
  rename_i hStatus
  split
  · exact .none rfl
  rename_i r hr
  obtain ⟨hID, hRun⟩ := (unassignedRun_iff runID r).mp (List.find?_some hr)
  simp only [Bool.and_eq_true, bne_iff_ne, ne_eq, not_and_or, not_not] at hStatus
  simp only [authority_pushAudit]
  exact .one (.failUnassigned d _ _ r _ now failureCode (replaces_updateFirst _ _ _ _ hd) hStatus
    (by rw [hRunID, hID]) rfl (replaces_updateFirst _ (fun _ => failedRun now r) _ _ hr) hRun)

theorem heldRun_iff (runID runnerID : String) (r : TaskRun) :
    heldRun runID runnerID r = true ↔ r.id = runID ∧ r.runnerID = some runnerID ∧ r.status = .running := by
  simp [heldRun, and_assoc]

theorem transitionRefused_false (request : DeploymentTransitionRequest) (revisions : List Revision)
    (d : Deployment) (h : transitionRefused request revisions d = false) :
    d.taskRunID = some request.runID ∧ d.status = request.expectedStatus ∧
      deploymentRoleTransitionAllowed d.rollbackOfID.isSome d.status request.targetStatus = true ∧
      (certifiesHealth request.targetStatus d.rollbackOfID.isSome = true →
        request.healthPassed = some true) := by
  unfold transitionRefused at h
  simp only [Bool.or_eq_false_iff, bne_eq_false_iff_eq, Bool.not_eq_false', Bool.and_eq_false_iff] at h
  obtain ⟨⟨⟨⟨hRun, hStatus⟩, hAllowed⟩, -⟩, hHealth⟩ := h
  refine ⟨hRun, hStatus, hAllowed, ?_⟩
  intro hCertifies
  rw [hCertifies] at hHealth
  simpa using hHealth

theorem recordTransition_open (request : DeploymentTransitionRequest) (d : Deployment) (now : Time)
    (hOpen : deploymentTerminalOutcome request.targetStatus = none) :
    recordTransition request d now s = { s with
      deployments := updateFirst (deploymentIs request.deploymentID)
        (fun _ => transitioned request now d) s.deployments
      deploymentTransitions := s.deploymentTransitions.insert
        (transitionRecordKey request.deploymentID request.transitionKey) request } := by
  unfold recordTransition
  cases hTarget : request.targetStatus <;> simp [hTarget, deploymentTerminalOutcome] at hOpen <;>
    simp [certifiesHealth] <;> split <;> rfl

theorem transitionDeploymentAttempt_effects (request : DeploymentTransitionRequest) (audit : AuditEvent)
    (now : Time)
    (hRecords : (transitionDeploymentAttempt request audit now s).1.isOk = true → D.transitions request) :
    Effects D s.authority (transitionDeploymentAttempt request audit now s).2.authority := by
  revert hRecords
  unfold transitionDeploymentAttempt
  simp only
  split
  · exact fun _ => .none rfl
  rename_i l hl
  split
  · exact fun _ => .none rfl
  rename_i t ht
  split
  · split
    · exact fun _ => .none rfl
    · split <;> exact fun _ => .none rfl
  rename_i hNew
  split
  · exact fun _ => .none rfl
  rename_i hLive
  rw [Bool.not_eq_true', Bool.not_eq_false, leaseLive_iff] at hLive
  split
  · exact fun _ => .none rfl
  rename_i d hd
  have hID : d.id = request.deploymentID := (deploymentIs_iff _ _).mp (List.find?_some hd)
  split
  · exact fun _ => .none rfl
  rename_i hRefused
  rw [Bool.not_eq_true] at hRefused
  obtain ⟨hBacks, hStatus, hAllowed, hHealth⟩ := transitionRefused_false request s.revisions d hRefused
  split
  · rename_i hOpen
    intro hRecords
    rw [authority_pushAudit, recordTransition_open request d now hOpen]
    exact .one (.advance request d _ now (replaces_updateFirst _ _ _ _ hd) hID hBacks hStatus hAllowed
      hOpen (hRecords rfl) hNew)
  · rename_i attemptStatus leaseStatus runStatus hOutcome
    split
    · exact fun _ => .none rfl
    rename_i hActive
    rw [bne_iff_ne, ne_eq, not_not] at hActive
    split
    · exact fun _ => .none rfl
    rename_i r hr
    intro hRecords
    rw [authority_pushAudit]
    exact .one (.finish request d _ _ l _ r _ t _ now attemptStatus leaseStatus runStatus rfl
      hd rfl hID hBacks hStatus hAllowed hHealth hOutcome (hRecords rfl) hNew
      ⟨List.find?_some hl, hLive.1, List.find?_some ht, hActive, List.find?_some hr⟩
      (replaces_updateFirst _ _ _ _ hl) (replaces_updateFirst _ _ _ _ hr) (replaces_updateFirst _ _ _ _ ht)
      ht)

theorem cancelExecution_of_backs (d : Deployment) (runID : String) (now : Time)
    (hBacks : d.taskRunID = some runID) :
    cancelExecution d now s = { s with
      runs := updateAll (fun run => run.id == runID) (canceledRun now) s.runs
      leases := updateAll (activeLeaseOf runID) (canceledLease now) s.leases
      deploymentAttempts := updateAll (fun a => a.deploymentID == d.id && a.status == .active)
        (endedAttempt .canceled now) s.deploymentAttempts } := by
  unfold cancelExecution
  rw [hBacks]

theorem cancelDeploymentRequest_effects (req : DeploymentCancelRequest) (audit : AuditEvent) (now : Time)
    (hFormed : s.authority.Formed) :
    Effects D s.authority (cancelDeploymentRequest req audit now s).2.authority := by
  unfold cancelDeploymentRequest
  split
  · split
    · exact .none rfl
    · split <;> exact .none rfl
  rename_i hNew
  split
  · exact .none rfl
  split
  · exact .none rfl
  rename_i d hd
  have hID : d.id = req.deploymentID := (deploymentIs_iff _ _).mp (List.find?_some hd)
  split
  · exact .none rfl
  rename_i hGuard
  rw [Bool.or_eq_true, not_or, Bool.not_eq_true, Option.isSome_eq_false_iff, Option.isNone_iff_eq_none] at hGuard
  simp only
  split
  · rename_i hBefore
    obtain ⟨r, hr, hBacks⟩ := hFormed.deployments d (List.mem_of_find?_eq_some hd)
    have hRun : Replaces r (canceledRun now r) s.runs
        (updateAll (fun run => run.id == r.id) (canceledRun now) s.runs) := by
      apply replaces_updateAll (fun r : TaskRun => r.id) _ _ _ _ hFormed.runs hr (by simp)
      intro z _ hz
      simpa using hz
    rw [cancelExecution_of_backs d r.id now hBacks]
    exact .one (.cancelNow req d _ r _ now (replaces_updateFirst _ _ _ _ hd) hID hGuard.1 hBefore hBacks
      hRun hNew)
  split
  · rename_i hStatus
    simp only [Bool.or_eq_true, beq_iff_eq] at hStatus
    exact .one (.cancelLater req d _ now (replaces_updateFirst _ _ _ _ hd) hID hGuard.1 hStatus hNew)
  · exact .none rfl

structure FailureTarget.Found (t : FailureTarget) (req : DeploymentFailureRollbackRequest)
    (s : MemoryStore) : Prop where
  lease : s.leases.find? (failingLease req) = some t.lease
  attempt : s.deploymentAttempts.find? (failingAttempt req) = some t.attempt
  source : s.deployments.find? (sourceIs req) = some t.source
  run : s.runs.find? (heldRun req.runID req.runnerID) = some t.run
  env : s.environments.find? (fun e => e.id == t.source.environmentID) = some t.env
  active : t.lease.status = .active
  status : failureStatus t.source.status = true
  expected : t.source.status = req.expectedStatus

theorem failureTarget_found (req : DeploymentFailureRollbackRequest) (now : Time) (t : FailureTarget)
    (h : failureTarget req now s = .ok t) : t.Found req s := by
  unfold failureTarget at h
  split at h
  · cases h
  rename_i l hl
  split at h
  · cases h
  rename_i hLive
  rw [Bool.not_eq_true', Bool.not_eq_false, leaseLive_iff] at hLive
  split at h
  · rename_i a d r ha hd hr
    split at h
    · cases h
    rename_i hStatus
    simp only [Bool.or_eq_true, bne_iff_ne, ne_eq, Bool.not_eq_true', not_or, not_not,
      Bool.not_eq_false] at hStatus
    split at h
    · cases h
    rename_i e he
    split at h
    · cases h
    cases h
    exact ⟨hl, ha, hd, hr, he, hLive.1, hStatus.2, hStatus.1⟩
  · cases h

theorem failingAttempt_iff (req : DeploymentFailureRollbackRequest) (t : DeploymentAttempt) :
    failingAttempt req t = true ↔
      attemptNamed req.deploymentID req.runID req.leaseID req.runnerID req.attempt req.fence t = true ∧
        t.status = .active := by
  simp [failingAttempt]

theorem sourceIs_iff (req : DeploymentFailureRollbackRequest) (d : Deployment) :
    sourceIs req d = true ↔ d.id = req.deploymentID ∧ d.taskRunID = some req.runID := by
  simp [sourceIs]

theorem FailureTarget.Found.held {t : FailureTarget} {req : DeploymentFailureRollbackRequest}
    (h : t.Found req s) :
    Held req.deploymentID req.runID req.leaseID req.runnerID req.attempt req.fence t.lease t.attempt t.run := by
  obtain ⟨hNamed, hActive⟩ := (failingAttempt_iff req t.attempt).mp (List.find?_some h.attempt)
  exact ⟨List.find?_some h.lease, h.active, hNamed, hActive, List.find?_some h.run⟩

theorem FailureTarget.Found.env_mem {t : FailureTarget} {req : DeploymentFailureRollbackRequest}
    (h : t.Found req s) : t.env ∈ s.environments ∧ t.env.id = t.source.environmentID :=
  ⟨List.mem_of_find?_eq_some h.env, by simpa using List.find?_some h.env⟩

theorem settleSource_effects (req : DeploymentFailureRollbackRequest) (target : DeploymentStatus)
    (t : FailureTarget) (now : Time) (h : t.Found req s)
    (hCause : (target = .manualIntervention ∧ rollbackUnsafe t.source t.env = true) ∨
      (target = .rollingBack ∧ rollbackUnsafe t.source t.env = false ∧
        ∀ v, s.services.find? (fun service => service.id == t.env.serviceID) = some v → v.projectID = ""))
    (hRecords : target = .manualIntervention → D.transitions (failureTransition req target)) :
    Effects D s.authority (settleSource req target t now s).authority := by
  obtain ⟨hID, hBacks⟩ := (sourceIs_iff req t.source).mp (List.find?_some h.source)
  exact .one (.failSource req target t.source _ t.lease _ t.run _ t.attempt _ t.env now
    (replaces_updateFirst _ _ _ _ h.source) hID hBacks h.status h.env_mem.1 h.env_mem.2 h.held
    (replaces_updateFirst _ _ _ _ h.lease) (replaces_updateFirst _ _ _ _ h.run)
    (replaces_updateFirst _ _ _ _ h.attempt) hCause hRecords)

theorem queueRollback_effects (req : DeploymentFailureRollbackRequest) (t : FailureTarget) (previous : String)
    (failedAudit rollbackAudit : AuditEvent) (now : Time) (h : t.Found req s)
    (hPrevious : t.source.previousHealthyRevisionID = some previous)
    (hSafe : rollbackUnsafe t.source t.env = false) (hAlone : ∀ o ∈ s.deployments, otherOpen t.source o = false)
    (hKey : ∀ o ∈ s.deployments, o.idempotencyKey ≠ rollbackKey req.deploymentID req.requestID)
    (hFresh : D.deployments → ∀ d ∈ s.deployments, d.id ≠ (rollbackObjectIDs req.deploymentID req.requestID).1)
    (hRunFresh : ∀ r ∈ s.runs, r.id ≠ (rollbackObjectIDs req.deploymentID req.requestID).2)
    (hRecords : (queueRollback req t previous failedAudit rollbackAudit now s).1.isOk = true →
      D.transitions (failureTransition req .rollingBack)) :
    Effects D s.authority
      (queueRollback req t previous failedAudit rollbackAudit now s).2.authority := by
  obtain ⟨hID, hBacks⟩ := (sourceIs_iff req t.source).mp (List.find?_some h.source)
  revert hRecords
  unfold queueRollback
  simp only
  split
  · rename_i hMissing
    intro _
    refine settleSource_effects req .rollingBack t now h (.inr ⟨rfl, hSafe, ?_⟩) (fun hEq => by cases hEq)
    intro v hv
    -- the IDs of the rollback are not empty, so it is the project that is missing
    have hServices : (settleSource req .rollingBack t now s).services = s.services := rfl
    rw [hServices, hv] at hMissing
    simpa [rollbackDeployment, rollbackRun, rollbackObjectIDs] using hMissing
  · intro hRecords
    exact .one (.rollBack req previous t.source _ t.lease _ t.run _ t.attempt _ t.env _ now
      (replaces_updateFirst _ _ _ _ h.source) hID hBacks h.status h.env_mem.1 h.env_mem.2 h.held
      (replaces_updateFirst _ _ _ _ h.lease) (replaces_updateFirst _ _ _ _ h.run)
      (replaces_updateFirst _ _ _ _ h.attempt) hSafe hPrevious hAlone hKey hFresh hRunFresh rfl rfl
      ⟨rfl, by simp [rollbackRun, Finmap.lookup_insert_of_ne]⟩ (hRecords rfl))

theorem failDeploymentAndCreateRollback_effects (req : DeploymentFailureRollbackRequest)
    (failedAudit rollbackAudit : AuditEvent) (now : Time)
    (hFresh : D.deployments →
      (∀ d ∈ s.deployments, d.idempotencyKey ≠ rollbackKey req.deploymentID req.requestID) →
        ∀ d ∈ s.deployments, d.id ≠ (rollbackObjectIDs req.deploymentID req.requestID).1)
    (hRunFresh : (∀ d ∈ s.deployments, d.idempotencyKey ≠ rollbackKey req.deploymentID req.requestID) →
      ∀ r ∈ s.runs, r.id ≠ (rollbackObjectIDs req.deploymentID req.requestID).2)
    (hRecords : (failDeploymentAndCreateRollback req failedAudit rollbackAudit now s).1.isOk = true →
      ∀ target, D.transitions (failureTransition req target)) :
    Effects D s.authority
      (failDeploymentAndCreateRollback req failedAudit rollbackAudit now s).2.authority := by
  revert hRecords
  unfold failDeploymentAndCreateRollback
  split
  · exact fun _ => .none rfl
  split
  · exact fun _ => .none rfl
  split
  · exact fun _ => .none rfl
  rename_i hNoKey
  have hKey : ∀ o ∈ s.deployments, o.idempotencyKey ≠ rollbackKey req.deploymentID req.requestID := by
    intro o ho hEq
    exact List.find?_eq_none.mp hNoKey o ho (by simp [hEq])
  split
  · exact fun _ => .none rfl
  rename_i t ht
  have hFound := failureTarget_found req now t ht
  split
  · rename_i hNone
    intro hRecords
    exact settleSource_effects req .manualIntervention t now hFound
      (.inl ⟨rfl, by simp [rollbackUnsafe, hNone]⟩) (fun _ => hRecords rfl _)
  rename_i previous hPrevious
  split
  · rename_i hUnsafe
    intro hRecords
    exact settleSource_effects req .manualIntervention t now hFound (.inl ⟨rfl, hUnsafe⟩)
      (fun _ => hRecords rfl _)
  rename_i hSafe
  rw [Bool.not_eq_true] at hSafe
  split
  · exact fun _ => .none rfl
  · rename_i hAlone
    intro hRecords
    rw [Bool.not_eq_true, List.any_eq_false] at hAlone
    exact queueRollback_effects req t previous failedAudit rollbackAudit now hFound hPrevious hSafe
      (fun o ho => Bool.not_eq_true _ ▸ hAlone o ho) hKey (fun hD => hFresh hD hKey) (hRunFresh hKey)
      (fun hOk => hRecords hOk _)

end

section

variable {s : MemoryStore}

-- Logs, artifacts, runners and grants are no part of the authority.

theorem createRunLogsForLease_authority (logs : List RunLog) (runID runnerID leaseID : String) (attempt : Int)
    (fence : String) (now : Time) :
    (createRunLogsForLease logs runID runnerID leaseID attempt fence now s).2.authority = s.authority := by
  unfold createRunLogsForLease
  split
  · rfl
  split
  · rfl
  split
  · rfl
  · split <;> rfl

theorem createRunLogForLease_authority (log : RunLog) (runnerID leaseID : String) (attempt : Int)
    (fence : String) (now : Time) :
    (createRunLogForLease log runnerID leaseID attempt fence now s).2.authority = s.authority := by
  unfold createRunLogForLease
  split
  · have hBatch := createRunLogsForLease_authority (s := s) [log] log.runID runnerID leaseID attempt fence now
    split <;> rename_i hEq <;> rw [hEq] at hBatch <;> exact hBatch
  split
  · rfl
  · split <;> rfl

theorem runner_authority (op : Operation)
    (hOp : match op with
      | .registerRunner _ _ | .updateRunnerToken _ _ _ _ _ | .heartbeatRunner _ _ => True
      | _ => False) :
    (perform op s).2.authority = s.authority := by
  cases op <;> simp only at hOp
  case registerRunner runner audit =>
    show (registerRunner runner audit s).2.authority = _
    unfold registerRunner
    split
    · rfl
    · exact authority_pushOptionalAudit _ _
  case updateRunnerToken runnerID tokenHash status updatedAt audit =>
    show (updateRunnerToken runnerID tokenHash status updatedAt audit s).2.authority = _
    unfold updateRunnerToken
    split
    · rfl
    · exact authority_pushOptionalAudit _ _
  case heartbeatRunner id heartbeatAt =>
    show (heartbeatRunner id heartbeatAt s).2.authority = _
    unfold heartbeatRunner
    split <;> rfl

theorem authorizeSecretAccess_authority (toLower : String → String) (request : SecretAccessRequest) :
    (authorizeSecretAccess toLower request s).2.authority = s.authority := by
  unfold authorizeSecretAccess
  simp only
  split
  · rfl
  split
  · split
    · rfl
    · split <;> split <;> rfl
  · split <;> split <;> rfl

end

-- Every operation is a sequence of effects, provided the IDs it brings are new.
theorem perform_effects {D : Discipline} {s : MemoryStore} (op : Operation) (hFormed : s.authority.Formed)
    (hFresh : op.Fresh s) (hRuns : D.runs → op.KeepsRuns) (hDeployments : D.deployments → op.KeepsDeployments s)
    (hSome : D.runs ∨ D.deployments)
    (hTransitions : (perform op s).1.isOk = true → ∀ t, op.Records t → D.transitions t)
    (hCompletions : (perform op s).1.isOk = true → ∀ l, op.Completes l → D.completions l) :
    Effects D s.authority (perform op s).2.authority := by
  cases op with
  | createRun run => exact createRun_effects run hFresh hRuns
  | createRunRequest => exact createRunRequest_effects _ _ _ _ hFresh hRuns
  | updateRunStatus => exact updateRunStatus_effects _ _ _ _ hRuns
  | updateRunWorkflowState => exact updateRunWorkflowState_effects ..
  | createApproval => exact createApproval_effects _ hRuns
  | approveRun => exact approveRun_effects ..
  | rejectRun => exact rejectRun_effects ..
  | createRunLog log =>
    apply Effects.none
    show (createRunLog log s).2.authority = _
    unfold createRunLog
    split
    · rfl
    · split <;> rfl
  | createArtifact artifact =>
    apply Effects.none
    show (createArtifact artifact s).2.authority = _
    unfold createArtifact
    split <;> rfl
  | createRunLogForLease => exact .none (createRunLogForLease_authority ..)
  | createRunLogsForLease => exact .none (createRunLogsForLease_authority ..)
  | createArtifactForLease artifact runnerID attempt fence now =>
    apply Effects.none
    show (createArtifactForLease artifact runnerID attempt fence now s).2.authority = _
    unfold createArtifactForLease
    split <;> rfl
  | registerRunner _ _ => exact .none (runner_authority _ trivial)
  | updateRunnerToken _ _ _ _ _ => exact .none (runner_authority _ trivial)
  | heartbeatRunner _ _ => exact .none (runner_authority _ trivial)
  | claimRun => exact claimRun_effects _ _ _ _ _ _ hFresh
  | renewLease => exact renewLease_effects ..
  | expireLeases now => exact expireLeasesLocked_effects now
  | completeLeaseRequest leaseID runnerID status attempt fence completionKey completedAt runStatus finishedAt
      workflowState logs audit =>
      exact completeLeaseRequest_effects leaseID runnerID status attempt fence completionKey completedAt
        runStatus finishedAt workflowState logs audit hFormed hRuns (isOk_answer .lease _ ▸ hCompletions)
  | cancelRunRequest => exact cancelRunRequest_effects ..
  | authorizeSecretAccess => exact .none (authorizeSecretAccess_authority ..)
  | createService => exact createService_effects _ _ hDeployments
  | createEnvironment => exact createEnvironment_effects ..
  | createRevision => exact .none (createRevision_authority ..)
  | resolveRevisionProvenance => exact .none (resolveRevisionProvenance_authority ..)
  | createDeploymentRequest v run audit =>
    apply createDeploymentRequest_effects v run audit (fun hD => (hDeployments hD).1)
    · obtain hD | hD := hSome
      · exact hRuns hD
      · exact (hDeployments hD).2.imp And.right And.right
    · intro hD
      exact (hDeployments hD).2.imp And.left And.left
  | confirmDeployment => exact confirmDeployment_effects _ _ _ _ hFormed
  | failPreAssignmentDeployment => exact failPreAssignmentDeployment_effects ..
  | transitionDeploymentAttempt request audit now =>
    exact transitionDeploymentAttempt_effects request audit now
      (fun hAccepted => hTransitions ((isOk_answer .deployment _).trans hAccepted) request rfl)
  | cancelDeploymentRequest => exact cancelDeploymentRequest_effects _ _ _ hFormed
  | failDeploymentAndCreateRollback req failedAudit rollbackAudit now =>
    exact failDeploymentAndCreateRollback_effects req failedAudit rollbackAudit now hDeployments hFresh
      (fun hAccepted target => hTransitions ((isOk_answer .failure _).trans hAccepted) _ ⟨target, rfl⟩)

end NeroCD.Store
