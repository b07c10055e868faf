import NeroCD.Store.DeploymentEffects
import NeroCD.Store.Frames

-- What the operations do to a run. Every operation keeps the runs in their places, changes them by a few
-- kinds of moves, and may put a new one in front.

namespace NeroCD.Store

open NeroCD.Domain NeroCD.Records

def Underway (t : MemoryStore) (runID : String) : Prop :=
  ∃ d ∈ t.deployments, d.taskRunID = some runID ∧ beforeApply d.status = false

def Operation.Releases : Operation → Prop
  | .approveRun _ _ _ _ | .confirmDeployment _ _ _ _ => True
  | _ => False

def Operation.Claims : Operation → Prop
  | .claimRun _ _ _ _ _ _ => True
  | _ => False

def Operation.SweepsAt (now : Time) : Operation → Prop
  | .claimRun _ time _ _ _ _ | .expireLeases time => time = now
  | _ => False

def Operation.Finishes : Operation → Prop
  | .failPreAssignmentDeployment _ _ _ _ | .transitionDeploymentAttempt _ _ _ | .cancelDeploymentRequest _ _ _
  | .failDeploymentAndCreateRollback _ _ _ _ => True
  | _ => False

inductive RunMove (s : MemoryStore) (op : Operation) (r : TaskRun) : TaskRun → Prop
  | setState (state : WorkflowState) (hOp : op = .updateRunWorkflowState r.id state) :
      RunMove s op r { r with workflowState := state }
  | setStatus (status : RunStatus) (finishedAt : Option Time) (now : Time)
      (hOp : op = .updateRunStatus r.id status finishedAt now) :
      RunMove s op r { r with status := status, finishedAt := finishedAt }
  | release (hOp : op.Releases) (hWaiting : r.status = .waitingApproval) : RunMove s op r { r with status := .queued }
  | reject (actorID : String) (now : Time) (audit : Option AuditEvent) (hOp : op = .rejectRun r.id actorID now audit)
      (hFree : ¬ s.authority.Backed r.id) (hOk : (perform op s).1.isOk = true) :
      RunMove s op r { r with status := .canceled, finishedAt := some now }
  | claim (runnerID : String) (hOp : op.Claims) (hQueued : r.status = .queued) :
      RunMove s op r { r with status := .running, runnerID := some runnerID }
  | expire (l : RunLease) (now : Time) (hOp : op.SweepsAt now) (hl : l ∈ s.leases) (hActive : l.status = .active)
      (hLate : l.expiresAt ≤ now) (hRun : l.runID = r.id) (hRunning : r.status = .running) :
      RunMove s op r (releasedRun now r)
  | complete (l : RunLease) (leaseID runnerID : String) (status : LeaseStatus) (attempt : Int)
      (fence key : String) (completedAt : Time) (runStatus : RunStatus) (finishedAt : Option Time)
      (state : Option WorkflowState) (logs : List RunLog) (audit : AuditEvent)
      (hOp : op = .completeLeaseRequest leaseID runnerID status attempt fence key completedAt runStatus finishedAt
        state logs audit)
      (hl : l ∈ s.leases) (hActive : l.status = .active) (hRun : l.runID = r.id)
      (hFree : ¬ s.authority.Backed r.id) : RunMove s op r (completedRun runStatus finishedAt state r)
  | cancel (now : Time) (log : RunLog) (audit : AuditEvent) (hOp : op = .cancelRunRequest r.id now log audit)
      (hOpen : isTerminalRunStatus r.status = false) (hFree : ¬ s.authority.Backed r.id) :
      RunMove s op r (canceledRun now r)
  | cancelBacked (now : Time) (hOp : op.Finishes) (d : Deployment) (hd : d ∈ s.deployments)
      (hBacks : d.taskRunID = some r.id)
      (hBefore : beforeApply d.status = true) (hUnderway : Underway (perform op s).2 r.id) :
      RunMove s op r (canceledRun now r)
  | fail (now : Time) (hOp : op.Finishes) (hStatus : r.status = .queued ∨ r.status = .waitingApproval)
      (hUnderway : Underway (perform op s).2 r.id) : RunMove s op r (failedRun now r)
  | finish (status : RunStatus) (now : Time) (hOp : op.Finishes) (hRunning : r.status = .running)
      (hUnderway : Underway (perform op s).2 r.id) : RunMove s op r (endedRun status now r)

abbrev RunMoves (s : MemoryStore) (op : Operation) : TaskRun → TaskRun → Prop :=
  Relation.ReflTransGen (RunMove s op)

def Operation.Adds (run : TaskRun) : Operation → Prop
  | .createRun new | .createRunRequest new _ _ _ =>
    run = new ∧ containsHostingExecution new.runSpec new.workflow = false
  | .createDeploymentRequest v new _ => canonicalComposeDeploymentRun v new = .ok run
  | .failDeploymentAndCreateRollback _ _ _ _ => run.status = .queued ∧ isHostingExecution run.runSpec = false
  | _ => False

structure Moved (s : MemoryStore) (op : Operation) (runs : List TaskRun) : Prop where
  moved : ∃ added kept, runs = added ++ kept ∧ (∀ run ∈ added, op.Adds run) ∧
    List.Forall₂ (RunMoves s op) s.runs kept

section

variable {s : MemoryStore} {op : Operation} {runs : List TaskRun}

theorem Moved.kept (h : List.Forall₂ (RunMoves s op) s.runs runs) : Moved s op runs :=
  ⟨[], runs, rfl, by simp, h⟩

theorem Moved.same (s : MemoryStore) (op : Operation) : Moved s op s.runs :=
  .kept (List.forall₂_same.mpr fun _ _ => .refl)

theorem Moved.of_eq (h : runs = s.runs) : Moved s op runs := h ▸ .same s op

theorem Moved.add {run : TaskRun} (h : List.Forall₂ (RunMoves s op) s.runs runs) (hAdds : op.Adds run) :
    Moved s op (run :: runs) :=
  ⟨[run], runs, rfl, by simpa using hAdds, h⟩

theorem Moved.one {r r' : TaskRun} (h : Replaces r r' s.runs runs) (hMove : RunMove s op r r') : Moved s op runs :=
  .kept (h.forall₂ _ (fun _ => .refl) (.single hMove))

theorem moves_next {runs' : List TaskRun} {r r' : TaskRun} (h : List.Forall₂ (RunMoves s op) s.runs runs)
    (hr : Replaces r r' runs runs') (hMove : RunMove s op r r') : List.Forall₂ (RunMoves s op) s.runs runs' := by
  have hStep := hr.forall₂ (RunMoves s op) (fun _ => .refl) (.single hMove)
  exact forall₂_trans (fun _ _ _ => Relation.ReflTransGen.trans) h hStep

end

section

variable {s : MemoryStore}

theorem runs_appendTargetedAudit (s : MemoryStore) (audit : Option AuditEvent) (targetID : String)
    (facts : List (String × Value)) : (s.appendTargetedAudit audit targetID facts).runs = s.runs := by
  rw [writes_appendTargetedAudit]

theorem runs_createRunLogs (logs : List RunLog) (s : MemoryStore) :
    (logs.foldl (fun s log => createRunLogLocked log s) s).runs = s.runs := by
  rw [writes_createRunLogs]

theorem createRun_moves (run : TaskRun) : Moved s (.createRun run) (createRun run s).2.runs := by
  unfold createRun
  split
  · exact .same s _
  rename_i hGeneric
  rw [Bool.not_eq_true] at hGeneric
  exact .add (List.forall₂_same.mpr fun _ _ => .refl) ⟨rfl, hGeneric⟩

theorem createRunRequest_moves (run : TaskRun) (log : RunLog) (approval : Option Approval) (audit : AuditEvent) :
    Moved s (.createRunRequest run log approval audit) (createRunRequest run log approval audit s).2.runs := by
  unfold createRunRequest
  split
  · exact .same s _
  rename_i hGeneric
  rw [Bool.not_eq_true] at hGeneric
  exact .add (List.forall₂_same.mpr fun _ _ => .refl) ⟨rfl, hGeneric⟩

theorem updateRunStatus_moves (id : String) (status : RunStatus) (finishedAt : Option Time) (now : Time) :
    Moved s (.updateRunStatus id status finishedAt now) (updateRunStatus id status finishedAt now s).2.runs := by
  unfold updateRunStatus
  split
  · exact .same s _
  split
  · exact .same s _
  rename_i r hr
  have hID : r.id = id := by simpa using List.find?_some hr
  exact .one (replaces_updateFirst _ _ _ _ hr) (.setStatus status finishedAt now (by rw [hID]))

theorem updateRunWorkflowState_moves (id : String) (state : WorkflowState) :
    Moved s (.updateRunWorkflowState id state) (updateRunWorkflowState id state s).2.runs := by
  unfold updateRunWorkflowState
  split
  · exact .same s _
  split
  · exact .same s _
  rename_i r hr
  have hID : r.id = id := by simpa using List.find?_some hr
  exact .one (replaces_updateFirst _ _ _ _ hr) (.setState state (by rw [hID]))

theorem approveRun_moves (runID actorID : String) (approvedAt : Time) (audit : Option AuditEvent) :
    Moved s (.approveRun runID actorID approvedAt audit) (approveRun runID actorID approvedAt audit s).2.runs := by
  unfold approveRun
  split
  · exact .same s _
  split
  · exact .same s _
  split
  · exact .same s _
  split
  · exact .same s _
  rename_i r hr
  simp only [runs_appendTargetedAudit]
  exact .one (replaces_updateFirst _ _ _ _ hr) (.release trivial ((waitingRun_iff runID r).mp (List.find?_some hr)).2)

theorem rejectRun_moves (runID actorID : String) (rejectedAt : Time) (audit : Option AuditEvent) :
    Moved s (.rejectRun runID actorID rejectedAt audit) (rejectRun runID actorID rejectedAt audit s).2.runs := by
  generalize hOut : rejectRun runID actorID rejectedAt audit s = out
  have hPerform : (perform (.rejectRun runID actorID rejectedAt audit) s).1.isOk = out.1.isOk := by
    rw [← hOut]
    exact isOk_answer _ _
  unfold rejectRun at hOut
  split at hOut
  · exact .of_eq (by rw [← hOut])
  split at hOut
  · exact .of_eq (by rw [← hOut])
  rename_i hFree
  rw [Bool.or_eq_true, not_or, Bool.not_eq_true] at hFree
  split at hOut
  · exact .of_eq (by rw [← hOut])
  subst hOut
  simp only [runs_appendTargetedAudit]
  refine .kept (forall₂_updateFirst _ _ _ _ (fun _ => .refl) ?_)
  intro r hr
  have hID : r.id = runID := by simpa using hr
  exact .single (.reject actorID rejectedAt audit (by rw [hID]) (hID ▸ not_backed_of_eq_false hFree.1) hPerform)

theorem expireLease_moves {op : Operation} (now : Time) (hOp : op.SweepsAt now) (t : MemoryStore) (i : Nat)
    (hLeases : ∀ l ∈ t.leases, l.status = .active → l ∈ s.leases)
    (hRuns : List.Forall₂ (RunMoves s op) s.runs t.runs) :
    (∀ l ∈ (expireLease now t i).leases, l.status = .active → l ∈ s.leases) ∧
      List.Forall₂ (RunMoves s op) s.runs (expireLease now t i).runs := by
  unfold expireLease
  split
  · exact ⟨hLeases, hRuns⟩
  rename_i l hl
  split
  · exact ⟨hLeases, hRuns⟩
  rename_i hGuard
  simp only [Bool.or_eq_true, not_or, bne_iff_ne, ne_eq, not_not, decide_eq_true_eq] at hGuard
  split
  · exact ⟨hLeases, hRuns⟩
  rename_i r hr
  obtain ⟨hID, hRunning⟩ := (runningRun_iff l.runID r).mp (List.find?_some hr)
  have hMem : l ∈ s.leases := hLeases l (List.mem_of_getElem? hl) hGuard.1
  refine ⟨?_, moves_next hRuns (replaces_updateFirst _ _ _ _ hr)
    (.expire l now hOp hMem hGuard.1 (Int.not_lt.mp hGuard.2) hID.symm hRunning)⟩
  intro m hm hActive
  cases (replaces_set _ i l _ hl).mem_or m hm with
  | inl hEq =>
    rw [hEq] at hActive
    cases hActive
  | inr hOld => exact hLeases m hOld hActive

theorem expireLeasesLocked_moves (op : Operation) (now : Time) (hOp : op.SweepsAt now) :
    List.Forall₂ (RunMoves s op) s.runs (expireLeasesLocked now s).runs := by
  have hFold (indexes : List Nat) (t : MemoryStore) (hLeases : ∀ l ∈ t.leases, l.status = .active → l ∈ s.leases)
      (hRuns : List.Forall₂ (RunMoves s op) s.runs t.runs) :
      List.Forall₂ (RunMoves s op) s.runs (indexes.foldl (expireLease now) t).runs := by
    induction indexes generalizing t with
    | nil => exact hRuns
    | cons i _ ih =>
      obtain ⟨hLeases', hRuns'⟩ := expireLease_moves now hOp t i hLeases hRuns
      exact ih _ hLeases' hRuns'
  exact hFold _ s (fun l hl _ => hl) (List.forall₂_same.mpr fun _ _ => .refl)

theorem claimQueued_moves {op : Operation} (hOp : op.Claims) (t : MemoryStore) (runnerID : String) (now ttl : Time)
    (leaseToken fenceToken : Option String) (audit : Option AuditEvent)
    (hRuns : List.Forall₂ (RunMoves s op) s.runs t.runs) :
    List.Forall₂ (RunMoves s op) s.runs (claimQueued runnerID now ttl leaseToken fenceToken audit t).2.runs := by
  unfold claimQueued
  simp only
  split
  · exact hRuns
  split
  · exact hRuns
  split
  · rename_i runner _ _ _ r i hFound
    obtain ⟨hIdx, hQueued⟩ := mem_claimCandidates _ _ _ _ (List.mem_of_find?_eq_some hFound)
    split
    · unfold leaseRun
      simp only [runs_appendTargetedAudit]
      exact moves_next hRuns (replaces_set _ i r _ hIdx) (.claim runner.id hOp hQueued)
    · exact hRuns
  · split
    · split <;> exact hRuns
    · exact hRuns

theorem claimRun_moves (runnerID : String) (now ttl : Time) (leaseToken fenceToken : Option String)
    (audit : Option AuditEvent) :
    Moved s (.claimRun runnerID now ttl leaseToken fenceToken audit)
      (claimRun runnerID now ttl leaseToken fenceToken audit s).2.runs := by
  unfold claimRun
  split
  · exact .same s _
  · exact .kept (claimQueued_moves (by exact trivial) _ runnerID now ttl leaseToken fenceToken audit
      (expireLeasesLocked_moves _ now rfl))

theorem completeLeaseRequest_moves (leaseID runnerID : String) (status : LeaseStatus) (attempt : Int)
    (fence completionKey : String) (completedAt : Time) (runStatus : RunStatus) (finishedAt : Option Time)
    (workflowState : Option WorkflowState) (logs : List RunLog) (audit : AuditEvent) :
    Moved s (.completeLeaseRequest leaseID runnerID status attempt fence completionKey completedAt runStatus
        finishedAt workflowState logs audit)
      (completeLeaseRequest leaseID runnerID status attempt fence completionKey completedAt runStatus finishedAt
        workflowState logs audit s).2.runs := by
  unfold completeLeaseRequest
  split
  · exact .same s _
  rename_i l hl
  split
  · exact .same s _
  split
  · exact .same s _
  rename_i hFree
  rw [Bool.not_eq_true] at hFree
  split
  · split <;> exact .same s _
  split
  · exact .same s _
  rename_i hLive
  rw [Bool.not_eq_true', Bool.not_eq_false, leaseLive_iff] at hLive
  simp only [MemoryStore.pushAudit, runs_createRunLogs]
  refine .kept (forall₂_updateFirst _ _ _ _ (fun _ => .refl) ?_)
  intro r hr
  have hID : r.id = l.runID := by simpa using hr
  exact .single (.complete l leaseID runnerID status attempt fence completionKey completedAt runStatus finishedAt
    workflowState logs audit rfl (List.mem_of_find?_eq_some hl) hLive.1 hID.symm
    (hID ▸ not_backed_of_eq_false hFree))

theorem cancelRunRequest_moves (runID : String) (canceledAt : Time) (log : RunLog) (audit : AuditEvent) :
    Moved s (.cancelRunRequest runID canceledAt log audit) (cancelRunRequest runID canceledAt log audit s).2.runs := by
  unfold cancelRunRequest
  simp only
  split
  · exact .same s _
  rename_i hFree
  rw [Bool.or_eq_true, not_or, Bool.not_eq_true, Bool.not_eq_true] at hFree
  split
  · exact .same s _
  rename_i r hr
  have hOpen : r.id = runID ∧ isTerminalRunStatus r.status = false := by simpa using List.find?_some hr
  exact .one (replaces_updateFirst _ _ _ _ hr)
    (.cancel canceledAt log audit (by rw [hOpen.1]) hOpen.2 (hOpen.1 ▸ not_backed_of_eq_false hFree.2))

theorem createDeploymentRequest_moves (v : Deployment) (run : TaskRun) (audit : AuditEvent) :
    Moved s (.createDeploymentRequest v run audit) (createDeploymentRequest v run audit s).2.runs := by
  unfold createDeploymentRequest
  split
  · exact .same s _
  rename_i run' hCanonical
  iterate 6
    split
    · exact .same s _
  exact .add (List.forall₂_same.mpr fun _ _ => .refl) hCanonical

theorem confirmDeployment_moves (id confirmedBy : String) (audit : AuditEvent) (now : Time) :
    Moved s (.confirmDeployment id confirmedBy audit now) (confirmDeployment id confirmedBy audit now s).2.runs := by
  unfold confirmDeployment
  split
  · exact .same s _
  split
  · exact .same s _
  rename_i runID _
  split
  · exact .same s _
  refine .kept (forall₂_updateAll _ _ _ _ (fun _ => .refl) ?_)
  intro r hr
  exact .single (.release trivial ((waitingRun_iff runID r).mp hr).2)

theorem underway_of_replaces {t : MemoryStore} {d d' : Deployment} {l : List Deployment} {runID : String}
    (h : Replaces d d' l t.deployments) (hBacks : d'.taskRunID = some runID) (hPast : beforeApply d'.status = false) :
    Underway t runID :=
  ⟨d', h.mem_new, hBacks, hPast⟩

theorem failPreAssignmentDeployment_moves (id failureCode : String) (audit : AuditEvent) (now : Time) :
    Moved s (.failPreAssignmentDeployment id failureCode audit now)
      (failPreAssignmentDeployment id failureCode audit now s).2.runs := by
  generalize hOut : failPreAssignmentDeployment id failureCode audit now s = out
  have hPerform : (perform (.failPreAssignmentDeployment id failureCode audit now) s).2 = out.2 := by
    rw [← hOut]
    rfl
  unfold failPreAssignmentDeployment at hOut
  split at hOut
  · exact .of_eq (by rw [← hOut])
  rename_i d hd
  split at hOut
  · split at hOut <;> exact .of_eq (by rw [← hOut])
  split at hOut
  · exact .of_eq (by rw [← hOut])
  rename_i runID hRunID
  split at hOut
  · exact .of_eq (by rw [← hOut])
  split at hOut
  · exact .of_eq (by rw [← hOut])
  rename_i r hr
  obtain ⟨hID, hRun⟩ := (unassignedRun_iff runID r).mp (List.find?_some hr)
  subst hOut
  refine .one (replaces_updateFirst _ _ _ _ hr) (.fail now trivial hRun ?_)
  rw [hPerform]
  exact underway_of_replaces (replaces_updateFirst _ _ _ _ hd) (by rw [hID]; exact hRunID) rfl

theorem past_of_terminalOutcome {status : DeploymentStatus} {outcome : AttemptStatus × LeaseStatus × RunStatus}
    (h : deploymentTerminalOutcome status = some outcome) : beforeApply status = false := by
  cases status <;> first | rfl | cases h

theorem recordTransition_deployment (request : DeploymentTransitionRequest) (d : Deployment) (now : Time)
    (hd : s.deployments.find? (deploymentIs request.deploymentID) = some d) :
    transitioned request now d ∈ (recordTransition request d now s).deployments := by
  have hKept (p : Deployment → Bool) (target : DeploymentStatus) :
      ∃ e, (updateFirst p (settledRoot target now) s.deployments).find? (deploymentIs request.deploymentID) = some e := by
    have hSome : (updateFirst p (settledRoot target now) s.deployments).any (deploymentIs request.deploymentID) =
        true := by
      obtain ⟨e, he, hStep⟩ := exists_of_forall₂_left (forall₂_updateFirst p (settledRoot target now) s.deployments
        (fun d e => e.id = d.id) (fun _ => rfl) (fun _ _ => rfl)) d (List.mem_of_find?_eq_some hd)
      rw [List.any_eq_true]
      exact ⟨e, he, by rw [deploymentIs_iff, hStep, (deploymentIs_iff _ _).mp (List.find?_some hd)]⟩
    rwa [List.any_eq_true, ← List.find?_isSome, Option.isSome_iff_exists] at hSome
  unfold recordTransition
  simp only
  split
  · split
    · obtain ⟨e, he⟩ := hKept _ _
      exact (replaces_updateFirst _ _ _ _ he).mem_new
    · exact (replaces_updateFirst _ _ _ _ hd).mem_new
  · exact (replaces_updateFirst _ _ _ _ hd).mem_new

theorem transitionDeploymentAttempt_moves (request : DeploymentTransitionRequest) (audit : AuditEvent) (now : Time) :
    Moved s (.transitionDeploymentAttempt request audit now)
      (transitionDeploymentAttempt request audit now s).2.runs := by
  generalize hOut : transitionDeploymentAttempt request audit now s = out
  have hPerform : (perform (.transitionDeploymentAttempt request audit now) s).2 = out.2 := by
    rw [← hOut]
    rfl
  unfold transitionDeploymentAttempt at hOut
  simp only at hOut
  split at hOut
  · exact .of_eq (by rw [← hOut])
  split at hOut
  · exact .of_eq (by rw [← hOut])
  split at hOut
  · split at hOut
    · exact .of_eq (by rw [← hOut])
    · split at hOut <;> exact .of_eq (by rw [← hOut])
  split at hOut
  · exact .of_eq (by rw [← hOut])
  split at hOut
  · exact .of_eq (by rw [← hOut])
  rename_i d hd
  split at hOut
  · exact .of_eq (by rw [← hOut])
  rename_i hRefused
  rw [Bool.not_eq_true] at hRefused
  obtain ⟨hBacks, -, -, -⟩ := transitionRefused_false request s.revisions d hRefused
  split at hOut
  · exact .of_eq (by rw [← hOut]; rfl)
  · rename_i attemptStatus leaseStatus runStatus hOutcome
    split at hOut
    · exact .of_eq (by rw [← hOut])
    split at hOut
    · exact .of_eq (by rw [← hOut])
    rename_i r hr
    obtain ⟨hID, -, hRunning⟩ := (heldRun_iff request.runID request.runnerID r).mp (List.find?_some hr)
    subst hOut
    refine .one (replaces_updateFirst _ _ _ _ hr) (.finish runStatus now trivial hRunning ?_)
    rw [hPerform]
    exact ⟨transitioned request now d, recordTransition_deployment request d now hd, hID ▸ hBacks,
      past_of_terminalOutcome hOutcome⟩

theorem cancelDeploymentRequest_moves (req : DeploymentCancelRequest) (audit : AuditEvent) (now : Time) :
    Moved s (.cancelDeploymentRequest req audit now) (cancelDeploymentRequest req audit now s).2.runs := by
  generalize hOut : cancelDeploymentRequest req audit now s = out
  have hPerform : (perform (.cancelDeploymentRequest req audit now) s).2 = out.2 := by
    rw [← hOut]
    rfl
  unfold cancelDeploymentRequest at hOut
  split at hOut
  · split at hOut
    · exact .of_eq (by rw [← hOut])
    · split at hOut <;> exact .of_eq (by rw [← hOut])
  split at hOut
  · exact .of_eq (by rw [← hOut])
  split at hOut
  · exact .of_eq (by rw [← hOut])
  rename_i d hd
  split at hOut
  · exact .of_eq (by rw [← hOut])
  simp only at hOut
  split at hOut
  · rename_i hBefore
    cases hBacks : d.taskRunID with
    | none =>
      apply Moved.of_eq
      rw [← hOut]
      unfold cancelExecution
      rw [hBacks]
      rfl
    | some runID =>
      rw [cancelExecution_of_backs d runID now hBacks] at hOut
      subst hOut
      refine .kept (forall₂_updateAll _ _ _ _ (fun _ => .refl) ?_)
      intro r hr
      have hID : r.id = runID := by simpa using hr
      have hRun : d.taskRunID = some r.id := by rw [hBacks, hID]
      refine .single (.cancelBacked now trivial d (List.mem_of_find?_eq_some hd) hRun hBefore ?_)
      rw [hPerform]
      exact underway_of_replaces (replaces_updateFirst _ _ _ _ hd) hRun rfl
  split at hOut
  · exact .of_eq (by rw [← hOut]; rfl)
  · exact .of_eq (by rw [← hOut])

theorem settleSource_moves {op : Operation} (hOp : op.Finishes) (req : DeploymentFailureRollbackRequest)
    (target : DeploymentStatus)
    (t : FailureTarget) (now : Time) (h : t.Found req s) (hPast : beforeApply target = false)
    (hPerform : ∀ e ∈ (settleSource req target t now s).deployments, e ∈ (perform op s).2.deployments) :
    List.Forall₂ (RunMoves s op) s.runs (settleSource req target t now s).runs := by
  obtain ⟨hID, -, hRunning⟩ := (heldRun_iff req.runID req.runnerID t.run).mp (List.find?_some h.run)
  obtain ⟨-, hBacks⟩ := (sourceIs_iff req t.source).mp (List.find?_some h.source)
  refine (replaces_updateFirst _ _ _ _ h.run).forall₂ _ (fun _ => .refl) (.single (.finish .failed now hOp hRunning ?_))
  exact ⟨failedSource req target now t.source, hPerform _ (replaces_updateFirst _ _ _ _ h.source).mem_new,
    hID ▸ hBacks, hPast⟩

theorem compose_generic : NeroCD.GoStrings.trimSpace runTypeComposeDeploy ∉ hostingRunTypes := by
  decide

theorem rollbackRun_generic (req : DeploymentFailureRollbackRequest) (source : Deployment) (run : TaskRun)
    (previous : String) (now : Time) : isHostingExecution (rollbackRun req source run previous now).runSpec = false := by
  unfold isHostingExecution rollbackRun
  simp [compose_generic]

theorem failDeploymentAndCreateRollback_moves (req : DeploymentFailureRollbackRequest)
    (failedAudit rollbackAudit : AuditEvent) (now : Time) :
    Moved s (.failDeploymentAndCreateRollback req failedAudit rollbackAudit now)
      (failDeploymentAndCreateRollback req failedAudit rollbackAudit now s).2.runs := by
  generalize hOut : failDeploymentAndCreateRollback req failedAudit rollbackAudit now s = out
  have hPerform : (perform (.failDeploymentAndCreateRollback req failedAudit rollbackAudit now) s).2 = out.2 := by
    rw [← hOut]
    rfl
  have hManual (t : FailureTarget) (h : t.Found req s) (hOut : manualFallback req t failedAudit now s = out) :
      Moved s (.failDeploymentAndCreateRollback req failedAudit rollbackAudit now) out.2.runs := by
    subst hOut
    refine .kept (settleSource_moves (by exact trivial) req .manualIntervention t now h rfl ?_)
    rw [hPerform]
    exact fun _ he => he
  unfold failDeploymentAndCreateRollback at hOut
  split at hOut
  · exact .of_eq (by rw [← hOut])
  split at hOut
  · exact .of_eq (by rw [← hOut])
  split at hOut
  · exact .of_eq (by rw [← hOut])
  split at hOut
  · exact .of_eq (by rw [← hOut])
  rename_i t ht
  have hFound := failureTarget_found req now t ht
  split at hOut
  · exact hManual t hFound hOut
  split at hOut
  · exact hManual t hFound hOut
  split at hOut
  · exact .of_eq (by rw [← hOut])
  unfold queueRollback at hOut
  simp only at hOut
  split at hOut
  · subst hOut
    refine .kept (settleSource_moves (by exact trivial) req .rollingBack t now hFound rfl ?_)
    rw [hPerform]
    exact fun _ he => he
  · subst hOut
    refine .add (settleSource_moves (by exact trivial) req .rollingBack t now hFound rfl ?_)
      ⟨rfl, rollbackRun_generic req t.source t.run _ now⟩
    rw [hPerform]
    exact fun _ he => List.mem_append_left _ he

theorem perform_moves (op : Operation) : Moved s op (perform op s).2.runs := by
  cases op with
  | createRun run => exact createRun_moves run
  | createRunRequest => exact createRunRequest_moves ..
  | updateRunStatus => exact updateRunStatus_moves ..
  | updateRunWorkflowState => exact updateRunWorkflowState_moves ..
  | approveRun => exact approveRun_moves ..
  | rejectRun => exact rejectRun_moves ..
  | claimRun => exact claimRun_moves ..
  | expireLeases now => exact .kept (expireLeasesLocked_moves _ now rfl)
  | completeLeaseRequest => exact completeLeaseRequest_moves ..
  | cancelRunRequest => exact cancelRunRequest_moves ..
  | createDeploymentRequest => exact createDeploymentRequest_moves ..
  | confirmDeployment => exact confirmDeployment_moves ..
  | failPreAssignmentDeployment => exact failPreAssignmentDeployment_moves ..
  | transitionDeploymentAttempt => exact transitionDeploymentAttempt_moves ..
  | cancelDeploymentRequest => exact cancelDeploymentRequest_moves ..
  | failDeploymentAndCreateRollback => exact failDeploymentAndCreateRollback_moves ..
  | createApproval | createRunLog | createArtifact | createRunLogForLease | createRunLogsForLease
  | createArtifactForLease | registerRunner | updateRunnerToken | heartbeatRunner | renewLease
  | authorizeSecretAccess | createService | createEnvironment | createRevision
  | resolveRevisionProvenance => exact .of_eq ((perform_writes _).runs rfl)

end

end NeroCD.Store
