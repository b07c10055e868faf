import NeroCD.Store.Authority

-- Every operation of the store is a sequence of effects.

namespace NeroCD.Store

open NeroCD.Domain NeroCD.Records

structure Authority.Formed (a : Authority) : Prop where
  runs : Keyed (fun r : TaskRun => r.id) a.runs
  leases : ∀ l ∈ a.leases, ∃ r ∈ a.runs, r.id = l.runID
  deployments : ∀ d ∈ a.deployments, ∃ r ∈ a.runs, d.taskRunID = some r.id

-- The statuses that `completionRunState` computes for a completed lease and its run.
def completionStatuses : LeaseStatus → RunStatus → Bool
  | .succeeded, .succeeded | .succeeded, .queued | .failed, .failed | .canceled, .canceled => true
  | _, _ => false

-- Runs are created queued or with their approval, completions carry the statuses of the service, and nothing else
-- sets the status of a run or adds an approval to it.
def Operation.KeepsRuns : Operation → Prop
  | .createRun run => run.status = .queued
  | .createRunRequest run _ approval _ =>
    (run.status = .queued ∧ approval = none) ∨
      (run.status = .waitingApproval ∧ ∃ p, approval = some p ∧ p.runID = run.id)
  | .createDeploymentRequest _ run _ => run.status = .queued ∨ run.status = .waitingApproval
  | .completeLeaseRequest _ _ status _ _ _ _ runStatus _ _ _ _ =>
    completionStatuses status runStatus = true
  | .updateRunStatus _ _ _ _ => False
  | .createApproval _ => False
  | _ => True

-- Services have a project; deployments are created under new IDs, queued with a queued run, or waiting
-- for confirmation with a waiting run.
def Operation.KeepsDeployments (s : MemoryStore) : Operation → Prop
  | .createService v _ => v.projectID ≠ ""
  | .createDeploymentRequest v run _ =>
    (∀ d ∈ s.deployments, d.id ≠ v.id) ∧
      ((v.status = .queued ∧ run.status = .queued) ∨
        (v.status = .waitingConfirmation ∧ run.status = .waitingApproval))
  | .failDeploymentAndCreateRollback req _ _ _ =>
    (∀ d ∈ s.deployments, d.idempotencyKey ≠ rollbackKey req.deploymentID req.requestID) →
      ∀ d ∈ s.deployments, d.id ≠ (rollbackObjectIDs req.deploymentID req.requestID).1
  | _ => True

def Operation.Records (t : DeploymentTransitionRequest) : Operation → Prop
  | .transitionDeploymentAttempt request _ _ => request = t
  | .failDeploymentAndCreateRollback req _ _ _ => ∃ target, failureTransition req target = t
  | _ => False

def Operation.Completes (l : RunLease) : Operation → Prop
  | .completeLeaseRequest leaseID runnerID status attempt fence completionKey _ _ _ _ _ _ =>
    leaseHeldAs leaseID runnerID attempt fence l = true ∧ l.status = status ∧ l.completionKey = completionKey
  | _ => False

theorem Effects.one {D : Discipline} {a a' : Authority} (h : Effect D a a') : Effects D a a' :=
  Relation.ReflTransGen.single h

theorem Effects.none {D : Discipline} {a a' : Authority} (h : a' = a) : Effects D a a' :=
  h ▸ Relation.ReflTransGen.refl

-- Audit events and logs are no part of the authority.

@[simp] theorem authority_pushAudit (s : MemoryStore) (audit : AuditEvent) :
    (s.pushAudit audit).authority = s.authority := rfl

@[simp] theorem authority_pushOptionalAudit (s : MemoryStore) (audit : Option AuditEvent) :
    (s.pushOptionalAudit audit).authority = s.authority := by
  cases audit <;> rfl

@[simp] theorem authority_appendTargetedAudit (s : MemoryStore) (audit : Option AuditEvent) (targetID : String)
    (facts : List (String × Value)) : (s.appendTargetedAudit audit targetID facts).authority = s.authority := by
  unfold MemoryStore.appendTargetedAudit
  split
  · rfl
  · split <;> rfl

@[simp] theorem authority_createRunLogLocked (s : MemoryStore) (log : RunLog) :
    (createRunLogLocked log s).authority = s.authority := rfl

@[simp] theorem authority_createRunLogs (logs : List RunLog) (s : MemoryStore) :
    (logs.foldl (fun s log => createRunLogLocked log s) s).authority = s.authority := by
  induction logs generalizing s with
  | nil => rfl
  | cons _ _ ih => rw [List.foldl_cons, ih, authority_createRunLogLocked]

theorem not_backed_of_eq_false {s : MemoryStore} {runID : String}
    (h : s.deploymentBackedRunLocked runID = false) : ¬ s.authority.Backed runID := by
  unfold MemoryStore.deploymentBackedRunLocked at h
  intro hBacked
  obtain ⟨d, hd, hRun⟩ := List.mem_map.mp hBacked
  have := List.any_eq_false.mp h d hd
  simp [hRun] at this

section

variable {D : Discipline} {s : MemoryStore}

theorem createRun_effects (run : TaskRun) (hFresh : ∀ r ∈ s.runs, r.id ≠ run.id)
    (hRuns : D.runs → run.status = .queued) : Effects D s.authority (createRun run s).2.authority := by
  unfold createRun
  split
  · exact .none rfl
  · exact .one (.addRun run s.approvals hFresh (fun hD => .inl ⟨hRuns hD, rfl⟩))

theorem createRunRequest_effects (run : TaskRun) (log : RunLog) (approval : Option Approval)
    (audit : AuditEvent) (hFresh : ∀ r ∈ s.runs, r.id ≠ run.id)
    (hRuns : D.runs → (run.status = .queued ∧ approval = none) ∨
      (run.status = .waitingApproval ∧ ∃ p, approval = some p ∧ p.runID = run.id)) :
    Effects D s.authority (createRunRequest run log approval audit s).2.authority := by
  unfold createRunRequest
  split
  · exact .none rfl
  · apply Effects.one
    apply Effect.addRun run (approval.toList ++ s.approvals) hFresh
    intro hD
    obtain ⟨hStatus, hNone⟩ | ⟨hStatus, p, hSome, hRun⟩ := hRuns hD
    · exact .inl ⟨hStatus, by rw [hNone]; rfl⟩
    · exact .inr ⟨hStatus, p, hRun, by rw [hSome]; rfl⟩

theorem replaces_run (runID : String) (f : TaskRun → TaskRun) {runs : List TaskRun} {run : TaskRun}
    (h : runs.find? (fun run => run.id == runID) = some run) :
    run.id = runID ∧ Replaces run (f run) runs (updateFirst (fun run => run.id == runID) f runs) := by
  have hID := List.find?_some h
  exact ⟨by simpa using hID, replaces_updateFirst _ f _ _ h⟩

theorem updateRunStatus_effects (id : String) (status : RunStatus) (finishedAt : Option Time) (now : Time)
    (hRuns : ¬ D.runs) : Effects D s.authority (updateRunStatus id status finishedAt now s).2.authority := by
  unfold updateRunStatus
  split
  · exact .none rfl
  · rename_i hGuard
    rw [Bool.or_eq_true, not_or, Bool.not_eq_true, Bool.not_eq_true] at hGuard
    split
    · exact .none rfl
    · rename_i run hRun
      obtain ⟨hID, hr⟩ := replaces_run id (fun _ => { run with status := status, finishedAt := finishedAt }) hRun
      exact .one (.editRun run _ _ hr ⟨rfl, rfl⟩ (.inr ⟨hRuns, hID ▸ not_backed_of_eq_false hGuard.2⟩))

theorem updateRunWorkflowState_effects (id : String) (workflowState : WorkflowState) :
    Effects D s.authority (updateRunWorkflowState id workflowState s).2.authority := by
  unfold updateRunWorkflowState
  split
  · exact .none rfl
  · split
    · exact .none rfl
    · rename_i run hRun
      obtain ⟨-, hr⟩ := replaces_run id (fun _ => { run with workflowState := workflowState }) hRun
      exact .one (.editRun run _ _ hr ⟨rfl, rfl⟩ (.inl ⟨rfl, rfl⟩))

theorem createApproval_effects (approval : Approval) (hRuns : ¬ D.runs) :
    Effects D s.authority (createApproval approval s).2.authority := by
  unfold createApproval
  split
  · exact .none rfl
  · exact .one (.addApproval _ hRuns)

theorem pendingApproval_iff (runID : String) (p : Approval) :
    pendingApproval runID p = true ↔ p.runID = runID ∧ p.status = .pending := by
  simp [pendingApproval]

theorem waitingRun_iff (runID : String) (r : TaskRun) :
    waitingRun runID r = true ↔ r.id = runID ∧ r.status = .waitingApproval := by
  simp [waitingRun]

theorem approveRun_effects (runID actorID : String) (approvedAt : Time) (audit : Option AuditEvent) :
    Effects D s.authority (approveRun runID actorID approvedAt audit s).2.authority := by
  unfold approveRun
  split
  · exact .none rfl
  split
  · exact .none rfl
  rename_i hGuard
  rw [Bool.or_eq_true, not_or, Bool.not_eq_true, Bool.not_eq_true] at hGuard
  split
  · exact .none rfl
  rename_i p hp
  split
  · exact .none rfl
  rename_i r hr
  obtain ⟨hAbout, hPending⟩ := (pendingApproval_iff runID p).mp (List.find?_some hp)
  obtain ⟨hID, hWaiting⟩ := (waitingRun_iff runID r).mp (List.find?_some hr)
  rw [authority_appendTargetedAudit]
  exact .one (.decide p _ _ r _ _ (replaces_updateFirst _ _ _ _ hp) hPending (by simp)
    (replaces_updateFirst _ _ _ _ hr) ⟨rfl, rfl⟩ (hAbout.trans hID.symm)
    (hID ▸ not_backed_of_eq_false hGuard.1) (.inl ⟨hWaiting, rfl⟩))

theorem rejectRun_effects (runID actorID : String) (rejectedAt : Time) (audit : Option AuditEvent) :
    Effects D s.authority (rejectRun runID actorID rejectedAt audit s).2.authority := by
  unfold rejectRun
  split
  · exact .none rfl
  split
  · exact .none rfl
  rename_i hGuard
  rw [Bool.or_eq_true, not_or, Bool.not_eq_true, Bool.not_eq_true] at hGuard
  split
  · exact .none rfl
  rename_i p hp
  obtain ⟨hAbout, hPending⟩ := (pendingApproval_iff runID p).mp (List.find?_some hp)
  rw [authority_appendTargetedAudit]
  cases hr : s.runs.find? (fun run => run.id == runID) with
  | none =>
    rw [updateFirst_eq_self _ _ _ hr]
    exact .one (.decideAbsent p _ _ (replaces_updateFirst _ _ _ _ hp) (by simp))
  | some r =>
    obtain ⟨hID, hReplaced⟩ := replaces_run runID
      (fun run => { run with status := .canceled, finishedAt := some rejectedAt }) hr
    exact .one (.decide p _ _ r _ _ (replaces_updateFirst _ _ _ _ hp) hPending (by simp) hReplaced
      ⟨rfl, rfl⟩ (hAbout.trans hID.symm) (hID ▸ not_backed_of_eq_false hGuard.1) (.inr rfl))

theorem leaseLive_iff (now : Time) (l : RunLease) :
    leaseLive now l = true ↔ l.status = .active ∧ now < l.expiresAt := by
  simp [leaseLive]

theorem renewLease_effects (runnerID leaseID fence : String) (attempt : Int) (now ttl : Time) :
    Effects D s.authority (renewLease runnerID leaseID fence attempt now ttl s).2.authority := by
  unfold renewLease
  simp only
  split
  · exact .none rfl
  · rename_i l hl
    have hLive := List.find?_some hl
    rw [Bool.and_eq_true, leaseLive_iff] at hLive
    exact .one (.renew l (now + ttl) _ hLive.2.1 (replaces_updateFirst _ _ _ _ hl))

theorem runningRun_iff (runID : String) (r : TaskRun) :
    runningRun runID r = true ↔ r.id = runID ∧ r.status = .running := by
  simp [runningRun]

theorem releasedRun_spec (now : Time) (r : TaskRun) :
    SameTask r (releasedRun now r) ∧ ((releasedRun now r).status = .queued ∨ (releasedRun now r).status = .failed) ∧
      (releasedRun now r).runnerID = none := by
  unfold releasedRun
  split
  · exact ⟨⟨rfl, rfl⟩, .inr rfl, rfl⟩
  · exact ⟨⟨rfl, rfl⟩, .inl rfl, rfl⟩

theorem expireLease_effects (now : Time) (i : Nat) :
    Effects D s.authority (expireLease now s i).authority := by
  unfold expireLease
  split
  · exact .none rfl
  rename_i l hl
  split
  · exact .none rfl
  rename_i hGuard
  rw [Bool.or_eq_true, not_or, bne_iff_ne, ne_eq, not_not] at hGuard
  split
  · exact .none rfl
  rename_i r hr
  obtain ⟨hID, hRunning⟩ := (runningRun_iff l.runID r).mp (List.find?_some hr)
  obtain ⟨hTask, hStatus, -⟩ := releasedRun_spec now r
  exact .one (.expire l _ r _ _ now (replaces_set _ i l _ hl) hGuard.1
    (replaces_updateFirst _ _ _ _ hr) hTask hID.symm hRunning hStatus)

theorem expireLeasesLocked_effects (now : Time) :
    Effects D s.authority (expireLeasesLocked now s).authority := by
  unfold expireLeasesLocked
  generalize List.range s.leases.length = indexes
  induction indexes generalizing s with
  | nil => exact .none rfl
  | cons i _ ih => exact (expireLease_effects now i).trans ih

theorem leaseNamed_iff (leaseID runID runnerID : String) (attempt : Int) (fence : String) (l : RunLease) :
    leaseNamed leaseID runID runnerID attempt fence l = true ↔
      l.id = leaseID ∧ l.runID = runID ∧ l.runnerID = runnerID ∧ l.attempt = attempt ∧ l.fence = fence := by
  simp [leaseNamed, and_assoc]

theorem completionStatuses_closed (status : LeaseStatus) (runStatus : RunStatus)
    (h : completionStatuses status runStatus = true) : status ≠ .active ∧ runStatus ≠ .running := by
  cases status <;> cases runStatus <;> simp_all [completionStatuses]

theorem completeLeaseRequest_effects (leaseID runnerID : String) (status : LeaseStatus) (attempt : Int)
    (fence completionKey : String) (completedAt : Time) (runStatus : RunStatus) (finishedAt : Option Time)
    (workflowState : Option WorkflowState) (logs : List RunLog) (audit : AuditEvent)
    (hFormed : s.authority.Formed) (hRuns : D.runs → completionStatuses status runStatus = true)
    (hCompletes : (completeLeaseRequest leaseID runnerID status attempt fence completionKey completedAt
      runStatus finishedAt workflowState logs audit s).1.isOk = true → ∀ l,
        leaseHeldAs leaseID runnerID attempt fence l = true ∧ l.status = status ∧
          l.completionKey = completionKey → D.completions l) :
    Effects D s.authority (completeLeaseRequest leaseID runnerID status attempt fence completionKey
      completedAt runStatus finishedAt workflowState logs audit s).2.authority := by
  revert hCompletes
  unfold completeLeaseRequest
  split
  · exact fun _ => .none rfl
  rename_i l hl
  split
  · exact fun _ => .none rfl
  split
  · exact fun _ => .none rfl
  rename_i hFree
  rw [Bool.not_eq_true] at hFree
  split
  · split <;> exact fun _ => .none rfl
  split
  · exact fun _ => .none rfl
  rename_i hLive
  rw [Bool.not_eq_true', Bool.not_eq_false] at hLive
  intro hCompletes
  have hHeld : leaseHeldAs leaseID runnerID attempt fence l = true := List.find?_some hl
  simp only [authority_pushAudit, authority_createRunLogs]
  -- the run of the lease exists, so the loop over the runs meets it
  obtain ⟨r₀, hr₀, hID₀⟩ := hFormed.leases l (List.mem_of_find?_eq_some hl)
  cases hr : s.runs.find? (fun run => run.id == l.runID) with
  | none => exact absurd (List.find?_eq_none.mp hr r₀ hr₀) (by simp [hID₀])
  | some r =>
    obtain ⟨hID, hReplaced⟩ := replaces_run l.runID (completedRun runStatus finishedAt workflowState) hr
    exact .one (.complete l _ _ r _ _ (replaces_updateFirst _ _ _ _ hl) ((leaseLive_iff _ _).mp hLive).1
      (hCompletes rfl _ ⟨hHeld, rfl, rfl⟩) ⟨rfl, rfl, rfl, rfl, rfl⟩ hReplaced ⟨rfl, rfl⟩ hID.symm
      (hID ▸ not_backed_of_eq_false hFree)
      (fun hD => completionStatuses_closed status runStatus (hRuns hD)))

theorem activeLeaseOf_iff (runID : String) (l : RunLease) :
    activeLeaseOf runID l = true ↔ l.runID = runID ∧ l.status = .active := by
  simp [activeLeaseOf]

theorem cancelRunRequest_effects (runID : String) (canceledAt : Time) (log : RunLog) (audit : AuditEvent) :
    Effects D s.authority (cancelRunRequest runID canceledAt log audit s).2.authority := by
  unfold cancelRunRequest
  simp only
  split
  · exact .none rfl
  rename_i hGuard
  rw [Bool.or_eq_true, not_or, Bool.not_eq_true, Bool.not_eq_true] at hGuard
  split
  · exact .none rfl
  rename_i r hr
  have hID : r.id = runID := by
    have := List.find?_some hr
    simp only [Bool.and_eq_true, beq_iff_eq] at this
    exact this.1
  subst hID
  exact .one (.cancelRun r _ canceledAt (replaces_updateFirst _ _ _ _ hr) (not_backed_of_eq_false hGuard.2))

-- The claim of a queued run: what the candidate list and the check of the definition say about it.

theorem mem_claimCandidates (order : GoMap Time) (cursor : Option ClaimCursor) (runs : List TaskRun)
    (c : TaskRun × Nat) (h : c ∈ claimCandidates order cursor runs) :
    runs[c.2]? = some c.1 ∧ c.1.status = .queued := by
  unfold claimCandidates at h
  have hMem := (List.perm_insertionSort (claimBefore order) _).mem_iff.mp (List.mem_of_mem_take h)
  obtain ⟨hIdx, hSel⟩ := List.mem_filter.mp hMem
  rw [Bool.and_eq_true, beq_iff_eq] at hSel
  exact ⟨List.mem_zipIdx_iff_getElem?.mp hIdx, hSel.1⟩

theorem claimDefinitionAllowed_linked (run : TaskRun) (h : claimDefinitionAllowed s run = true)
    (hType : run.runSpec.type = runTypeComposeDeploy) :
    ∃ d ∈ s.deployments, run.runSpec.inputs.lookup "deployment_id" = some (.text d.id) ∧
      d.taskRunID = some run.id ∧ s.authority.Linked d := by
  unfold claimDefinitionAllowed at h
  rw [if_neg (by simp [hType])] at h
  split at h
  · exact absurd h (by simp)
  -- a deployment, its environment and the environment's service are found
  rw [Option.getD_eq_iff] at h
  obtain hFound | ⟨-, hNo⟩ := h
  · obtain ⟨d, hd, hb⟩ := List.exists_of_findSome?_eq_some hFound
    split at hb
    · exact absurd hb (by simp)
    rename_i hGuard
    simp only [Bool.or_eq_true, not_or, bne_iff_ne, ne_eq, not_not] at hGuard
    obtain ⟨e, he, hService⟩ := List.exists_of_findSome?_eq_some hb
    split at hService
    · exact absurd hService (by simp)
    rename_i hEnv
    rw [bne_iff_ne, ne_eq, not_not] at hEnv
    obtain ⟨v, hv, -⟩ := Option.map_eq_some_iff.mp hService
    have hvID : v.id = e.serviceID := by simpa using List.find?_some hv
    exact ⟨d, hd, hGuard.1.1.1.1, hGuard.1.1.1.2, e, he, hEnv, v, List.mem_of_find?_eq_some hv, hvID⟩
  · exact absurd hNo (by simp)

theorem leaseRun_effects (runner : Runner) (run : TaskRun) (i : Nat) (leaseID fence : String)
    (now ttl : Time) (audit : Option AuditEvent) (hIdx : s.runs[i]? = some run) (hQueued : run.status = .queued)
    (hAllowed : claimDefinitionAllowed s run = true) (hFresh : ∀ l ∈ s.leases, l.id ≠ leaseID) :
    Effects D s.authority (leaseRun runner run i leaseID fence now ttl audit s).2.authority := by
  unfold leaseRun
  simp only [authority_appendTargetedAudit]
  exact .one (.claim run { run with status := .running, runnerID := some runner.id } _
    { id := leaseID, runID := run.id, runnerID := runner.id, status := .active, expiresAt := now + ttl,
      createdAt := now, attempt := max 1 ((s.nextAttemptByRun.lookup run.id).getD 0), fence := fence } now
    (replaces_set _ i run _ hIdx) ⟨rfl, rfl⟩ hQueued rfl rfl rfl rfl rfl rfl hFresh
    (claimDefinitionAllowed_linked run hAllowed))

theorem claimQueued_effects (runnerID : String) (now ttl : Time) (leaseToken fenceToken : Option String)
    (audit : Option AuditEvent) (hFresh : ∀ l ∈ s.leases, leaseToken ≠ some l.id) :
    Effects D s.authority (claimQueued runnerID now ttl leaseToken fenceToken audit s).2.authority := by
  unfold claimQueued
  simp only
  split
  · exact .none rfl
  rename_i runner _
  split
  · exact .none rfl
  split
  · rename_i run i hFound
    obtain ⟨hIdx, hQueued⟩ := mem_claimCandidates _ _ _ _ (List.mem_of_find?_eq_some hFound)
    have hEligible := List.find?_some hFound
    simp only [claimEligible, Bool.and_eq_true] at hEligible
    split
    · rename_i leaseID fence
      apply leaseRun_effects (s := { s with
        runners := markStale runnerID (now - 2 * ttl) s.runners
        claimOrderByRun := fillClaimOrder s.runs s.claimOrderByRun }) runner run i leaseID fence now ttl audit
        hIdx hQueued hEligible.1.1
      intro l hl hEq
      exact hFresh l hl (by rw [hEq])
    · exact .none rfl
  · split
    · split <;> exact .none rfl
    · exact .none rfl

end

theorem expireLease_leases (now : Time) (s : MemoryStore) (i : Nat) :
    (expireLease now s i).leases.map (fun l => (l.id, l.fence)) = s.leases.map (fun l => (l.id, l.fence)) := by
  unfold expireLease
  split
  · rfl
  rename_i l hl
  split
  · rfl
  split
  · rfl
  · exact (replaces_set _ i l _ hl).map_eq _ rfl

theorem expireLeasesLocked_leases (now : Time) (s : MemoryStore) :
    (expireLeasesLocked now s).leases.map (fun l => (l.id, l.fence)) = s.leases.map (fun l => (l.id, l.fence)) := by
  unfold expireLeasesLocked
  generalize List.range s.leases.length = indexes
  induction indexes generalizing s with
  | nil => rfl
  | cons i _ ih => exact (ih (expireLease now s i)).trans (expireLease_leases now s i)

theorem claimRun_effects {D : Discipline} {s : MemoryStore} (runnerID : String) (now ttl : Time)
    (leaseToken fenceToken : Option String) (audit : Option AuditEvent)
    (hFresh : ∀ l ∈ s.leases, leaseToken ≠ some l.id ∧ fenceToken ≠ some l.fence) :
    Effects D s.authority (claimRun runnerID now ttl leaseToken fenceToken audit s).2.authority := by
  unfold claimRun
  split
  · exact .none rfl
  · refine (expireLeasesLocked_effects now).trans (claimQueued_effects runnerID now ttl leaseToken fenceToken
      audit ?_)
    intro l hl
    have hMem : (l.id, l.fence) ∈ s.leases.map (fun l => (l.id, l.fence)) := by
      rw [← expireLeasesLocked_leases now s]
      exact List.mem_map.mpr ⟨l, hl, rfl⟩
    obtain ⟨m, hm, hEq⟩ := List.mem_map.mp hMem
    rw [Prod.mk.injEq] at hEq
    rw [← hEq.1]
    exact (hFresh m hm).1

end NeroCD.Store
