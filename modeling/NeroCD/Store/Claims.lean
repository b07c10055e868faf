import NeroCD.Store.RunMoves

-- What a claim returns, what the sweep before it does to runs and leases, and what a completion writes.

namespace NeroCD.Store

open NeroCD.Domain NeroCD.Records

def Overdue (now : Time) (s : MemoryStore) (runID : String) : Prop :=
  ∃ l ∈ s.leases, l.runID = runID ∧ l.status = .active ∧ l.expiresAt ≤ now

section

variable {s t : MemoryStore} {now : Time} {runnerID : String}

theorem swept_run {r r' : TaskRun} (h : RunMoves s (.expireLeases now) r r') :
    r'.id = r.id ∧ r'.workflow = r.workflow ∧ r'.workflowState = r.workflowState ∧ r'.runSpec = r.runSpec ∧
      (¬ Overdue now s r.id → r' = r) := by
  induction h with
  | refl => exact ⟨rfl, rfl, rfl, rfl, fun _ => rfl⟩
  | @tail x _ _ hMove ih =>
    obtain ⟨hID, hWorkflow, hState, hSpec, hSame⟩ := ih
    cases hMove with
    | expire l _ hOp hl hActive hLate hRun _ =>
      cases hOp
      have hReleased : (releasedRun now x).id = x.id ∧ (releasedRun now x).workflow = x.workflow ∧
          (releasedRun now x).workflowState = x.workflowState ∧ (releasedRun now x).runSpec = x.runSpec := by
        unfold releasedRun
        split <;> exact ⟨rfl, rfl, rfl, rfl⟩
      refine ⟨hReleased.1.trans hID, hReleased.2.1.trans hWorkflow, hReleased.2.2.1.trans hState,
        hReleased.2.2.2.trans hSpec, ?_⟩
      intro hSpared
      exact absurd ⟨l, hl, hRun.trans hID, hActive, hLate⟩ hSpared
    | setState _ hOp | setStatus _ _ _ hOp | reject _ _ _ hOp => cases hOp
    | complete _ _ _ _ _ _ _ _ _ _ _ _ _ hOp | cancel _ _ _ hOp => cases hOp
    | release hOp | claim _ hOp | cancelBacked _ hOp | fail _ hOp | finish _ _ hOp => exact hOp.elim

theorem expireLease_leases_or (i : Nat) (h : ∀ l' ∈ t.leases, l' ∈ s.leases ∨ Overdue now s l'.runID) :
    ∀ l' ∈ (expireLease now t i).leases, l' ∈ s.leases ∨ Overdue now s l'.runID := by
  unfold expireLease
  split
  · exact h
  rename_i l hl
  split
  · exact h
  rename_i hGuard
  simp only [Bool.or_eq_true, not_or, bne_iff_ne, ne_eq, not_not, decide_eq_true_eq] at hGuard
  split
  · exact h
  intro l' hl'
  cases (replaces_set _ i l _ hl).mem_or l' hl' with
  | inl hEq =>
    rw [hEq]
    refine .inr ((h l (List.mem_of_getElem? hl)).elim (fun hOld => ?_) id)
    exact ⟨l, hOld, rfl, hGuard.1, Int.not_lt.mp hGuard.2⟩
  | inr hOld => exact h l' hOld

theorem swept_leases (now : Time) :
    ∀ l' ∈ (expireLeasesLocked now s).leases, l' ∈ s.leases ∨ Overdue now s l'.runID := by
  have hFold (indexes : List Nat) (t : MemoryStore) (h : ∀ l' ∈ t.leases, l' ∈ s.leases ∨ Overdue now s l'.runID) :
      ∀ l' ∈ (indexes.foldl (expireLease now) t).leases, l' ∈ s.leases ∨ Overdue now s l'.runID := by
    induction indexes generalizing t with
    | nil => exact h
    | cons i _ ih => exact ih _ (expireLease_leases_or i h)
  exact hFold _ s fun l' hl' => .inl hl'

theorem leases_appendTargetedAudit (s : MemoryStore) (audit : Option AuditEvent) (targetID : String)
    (facts : List (String × Value)) : (s.appendTargetedAudit audit targetID facts).leases = s.leases := by
  rw [writes_appendTargetedAudit]

theorem find?_markStale {staleBefore : Time} {runners : List Runner} {runner : Runner}
    (h : (markStale runnerID staleBefore runners).find? (fun candidate => candidate.id == runnerID) = some runner) :
    ∃ known, runners.find? (fun candidate => candidate.id == runnerID) = some known ∧
      known.capabilities = runner.capabilities := by
  unfold markStale at h
  cases hFind : runners.find? (fun candidate => candidate.id == runnerID) with
  | none =>
    rw [updateFirst_eq_self _ _ _ hFind, hFind] at h
    cases h
  | some known =>
    refine ⟨known, rfl, ?_⟩
    rw [find?_updateFirst_self _ _ _ _ hFind (by
      have hID := List.find?_some hFind
      split <;> exact hID)] at h
    rw [← Option.some.inj h]
    split <;> rfl

structure ClaimTaken (runnerID : String) (now : Time) (s t : MemoryStore) (claim : ClaimedRun) (r : TaskRun) :
    Prop where
  run : claim.run = { r with status := .running, runnerID := claim.run.runnerID }
  queued : r.status = .queued
  allowed : r.runSpec.type ≠ runTypeComposeDeploy → (validateGenericRunDefinition r.runSpec r.workflow).isOk = true
  capable : ∃ runner, s.runners.find? (fun runner => runner.id == runnerID) = some runner ∧
    runner.capabilities.contains (claimRunType r) = true
  runs : Replaces r claim.run (expireLeasesLocked now s).runs t.runs
  leases : t.leases = (expireLeasesLocked now s).leases ++ [claim.lease]
  lease : claim.lease.runID = r.id ∧ claim.lease.status = .active

theorem claimRun_taken {ttl : Time} {leaseToken fenceToken : Option String} {audit : Option AuditEvent}
    {claim : ClaimedRun} (h : claimRun runnerID now ttl leaseToken fenceToken audit s = (.ok claim, t)) :
    s.auditTaken audit = false ∧ ∃ r, ClaimTaken runnerID now s t claim r := by
  unfold claimRun at h
  split at h
  · cases h
  rename_i hFree
  refine ⟨Bool.eq_false_iff.mpr hFree, ?_⟩
  unfold claimQueued at h
  simp only at h
  split at h
  · cases h
  rename_i runner hRunner
  split at h
  · cases h
  split at h
  · rename_i r i hFound
    obtain ⟨hIdx, hQueued⟩ := mem_claimCandidates _ _ _ _ (List.mem_of_find?_eq_some hFound)
    have hEligible := List.find?_some hFound
    simp only [claimEligible, Bool.and_eq_true] at hEligible
    split at h
    · rename_i leaseID fence
      rw [Prod.mk.injEq, Except.ok.injEq] at h
      obtain ⟨hClaim, hStore⟩ := h
      refine ⟨r, ?_, hQueued, ?_, ?_, ?_, ?_, ?_⟩
      · rw [← hClaim]
        rfl
      · intro hType
        have hAllowed := hEligible.1.1
        unfold claimDefinitionAllowed at hAllowed
        rwa [if_pos (bne_iff_ne.mpr hType)] at hAllowed
      · obtain ⟨known, hKnown, hSame⟩ := find?_markStale hRunner
        have hRunners : (expireLeasesLocked now s).runners = s.runners :=
          (writes_expireLeasesLocked now).runners rfl
        rw [hRunners] at hKnown
        exact ⟨known, hKnown, hSame ▸ hEligible.2⟩
      · rw [← hStore, ← hClaim]
        unfold leaseRun
        simp only [runs_appendTargetedAudit]
        exact replaces_set _ i r _ hIdx
      · rw [← hStore, ← hClaim]
        unfold leaseRun
        simp only [leases_appendTargetedAudit]
      · rw [← hClaim]
        exact ⟨rfl, rfl⟩
    · cases h
  · split at h
    · split at h <;> cases h
    · cases h

theorem claimRun_refused {ttl : Time} {leaseToken fenceToken : Option String} {audit : Option AuditEvent}
    {e : StoreError} (h : claimRun runnerID now ttl leaseToken fenceToken audit s = (.error e, t)) :
    (s.auditTaken audit = true ∧ t = s) ∨ (s.auditTaken audit = false ∧
      t.runs = (expireLeasesLocked now s).runs ∧ t.leases = (expireLeasesLocked now s).leases) := by
  unfold claimRun at h
  split at h
  · rename_i hTaken
    exact .inl ⟨hTaken, (Prod.mk.inj h).2.symm⟩
  rename_i hFree
  refine .inr ⟨Bool.eq_false_iff.mpr hFree, ?_⟩
  unfold claimQueued at h
  simp only at h
  split at h
  · rw [← (Prod.mk.inj h).2]
    exact ⟨rfl, rfl⟩
  split at h
  · rw [← (Prod.mk.inj h).2]
    exact ⟨rfl, rfl⟩
  split at h
  · split at h
    · cases h
    · rw [← (Prod.mk.inj h).2]
      exact ⟨rfl, rfl⟩
  · split at h
    · split at h <;> rw [← (Prod.mk.inj h).2] <;> exact ⟨rfl, rfl⟩
    · rw [← (Prod.mk.inj h).2]
      exact ⟨rfl, rfl⟩

theorem claimRun_deployments (runnerID : String) (now ttl : Time) (leaseToken fenceToken : Option String)
    (audit : Option AuditEvent) (h : s.deployments = []) :
    (claimRun runnerID now ttl leaseToken fenceToken audit s).2.deployments = [] := by
  have hSwept : (expireLeasesLocked now s).deployments = [] :=
    ((writes_expireLeasesLocked now).deployments rfl).trans h
  unfold claimRun
  split
  · exact h
  unfold claimQueued
  simp only
  split
  · exact hSwept
  split
  · exact hSwept
  split
  · split
    · unfold leaseRun
      simp only
      rw [writes_appendTargetedAudit]
      simp only [hSwept]
      rfl
    · exact hSwept
  · split
    · split <;> exact hSwept
    · exact hSwept

structure Completed (status : LeaseStatus) (key : String) (completedAt : Time) (runStatus : RunStatus)
    (finishedAt : Option Time) (state : Option WorkflowState) (s t : MemoryStore) (l : RunLease) : Prop where
  live : l.status = .active
  leases : Replaces l { l with status := status, completedAt := some completedAt, completionKey := key }
    s.leases t.leases
  runs : t.runs = updateFirst (fun run => run.id == l.runID) (completedRun runStatus finishedAt state) s.runs
  deployments : t.deployments = s.deployments

theorem completeLeaseRequest_cases {leaseID : String} {status : LeaseStatus} {attempt : Int} {fence key : String}
    {completedAt : Time} {runStatus : RunStatus} {finishedAt : Option Time} {state : Option WorkflowState}
    {logs : List RunLog} {audit : AuditEvent} {l : RunLease}
    (hFind : s.leases.find? (leaseHeldAs leaseID runnerID attempt fence) = some l) (hKey : l.completionKey = "")
    {outcome : Outcome RunLease}
    (h : completeLeaseRequest leaseID runnerID status attempt fence key completedAt runStatus finishedAt state logs
      audit s = outcome) :
    (outcome.1.isOk = false ∧ outcome.2 = s) ∨
      (outcome.1.isOk = true ∧ Completed status key completedAt runStatus finishedAt state s outcome.2 l) := by
  subst h
  unfold completeLeaseRequest
  rw [hFind]
  simp only
  split
  · exact .inl ⟨rfl, rfl⟩
  split
  · exact .inl ⟨rfl, rfl⟩
  rw [if_neg (by simp [hKey])]
  split
  · exact .inl ⟨rfl, rfl⟩
  rename_i hLive
  rw [Bool.not_eq_true', Bool.not_eq_false, leaseLive_iff] at hLive
  refine .inr ⟨rfl, hLive.1, ?_, ?_, ?_⟩
  · rw [MemoryStore.pushAudit, writes_createRunLogs]
    exact replaces_updateFirst _ _ _ _ hFind
  · rw [MemoryStore.pushAudit, writes_createRunLogs]
  · rw [MemoryStore.pushAudit, writes_createRunLogs]

end

end NeroCD.Store
