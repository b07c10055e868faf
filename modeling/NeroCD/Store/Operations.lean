import NeroCD.Store.Deployments

-- The operations of the store as one type, and the states that sequences of them reach.

namespace NeroCD.Store

open NeroCD.Domain NeroCD.Records

-- A secret access comes with `strings.ToLower`.
inductive Operation
  | createRun (run : TaskRun)
  | createRunRequest (run : TaskRun) (log : RunLog) (approval : Option Approval) (audit : AuditEvent)
  | updateRunStatus (id : String) (status : RunStatus) (finishedAt : Option Time) (now : Time)
  | updateRunWorkflowState (id : String) (workflowState : WorkflowState)
  | createApproval (approval : Approval)
  | approveRun (runID actorID : String) (approvedAt : Time) (audit : Option AuditEvent)
  | rejectRun (runID actorID : String) (rejectedAt : Time) (audit : Option AuditEvent)
  | createRunLog (log : RunLog)
  | createArtifact (artifact : ArtifactRecord)
  | createRunLogForLease (log : RunLog) (runnerID leaseID : String) (attempt : Int) (fence : String)
      (now : Time)
  | createRunLogsForLease (logs : List RunLog) (runID runnerID leaseID : String) (attempt : Int)
      (fence : String) (now : Time)
  | createArtifactForLease (artifact : ArtifactRecord) (runnerID : String) (attempt : Int) (fence : String)
      (now : Time)
  | registerRunner (runner : Runner) (audit : Option AuditEvent)
  | updateRunnerToken (runnerID tokenHash : String) (status : RunnerStatus) (updatedAt : Time)
      (audit : Option AuditEvent)
  | heartbeatRunner (id : String) (heartbeatAt : Time)
  | claimRun (runnerID : String) (now ttl : Time) (leaseToken fenceToken : Option String)
      (audit : Option AuditEvent)
  | renewLease (runnerID leaseID fence : String) (attempt : Int) (now ttl : Time)
  | expireLeases (now : Time)
  | completeLeaseRequest (leaseID runnerID : String) (status : LeaseStatus) (attempt : Int)
      (fence completionKey : String) (completedAt : Time) (runStatus : RunStatus) (finishedAt : Option Time)
      (workflowState : Option WorkflowState) (logs : List RunLog) (audit : AuditEvent)
  | cancelRunRequest (runID : String) (canceledAt : Time) (log : RunLog) (audit : AuditEvent)
  | authorizeSecretAccess (toLower : String → String) (request : SecretAccessRequest)
  | createService (v : Service) (audit : Option AuditEvent)
  | createEnvironment (v : Environment) (audit : Option AuditEvent)
  | createRevision (v : Revision) (audit : Option AuditEvent) (now : Time)
  | resolveRevisionProvenance (req : ProvenanceRequest) (audit : AuditEvent) (now : Time)
  | createDeploymentRequest (v : Deployment) (run : TaskRun) (a : AuditEvent)
  | confirmDeployment (id confirmedBy : String) (audit : AuditEvent) (now : Time)
  | failPreAssignmentDeployment (id failureCode : String) (audit : AuditEvent) (now : Time)
  | transitionDeploymentAttempt (request : DeploymentTransitionRequest) (audit : AuditEvent) (now : Time)
  | cancelDeploymentRequest (req : DeploymentCancelRequest) (audit : AuditEvent) (now : Time)
  | failDeploymentAndCreateRollback (req : DeploymentFailureRollbackRequest)
      (failedAudit rollbackAudit : AuditEvent) (now : Time)

inductive Answer
  | done
  | run (run : TaskRun)
  | approval (approval : Approval)
  | log (log : RunLog)
  | logs (logs : List RunLog)
  | runner (runner : Runner)
  | claim (claim : ClaimedRun)
  | lease (lease : RunLease)
  | grant (grant : SecretAccessGrant)
  | service (service : Service)
  | environment (environment : Environment)
  | revision (revision : Revision)
  | deployment (deployment : Deployment)
  | failure (result : DeploymentFailureRollbackResult)

def Outcome.answer {α : Type} (wrap : α → Answer) (o : Outcome α) : Outcome Answer := (o.1.map wrap, o.2)

theorem isOk_answer {α : Type} (wrap : α → Answer) (o : Outcome α) : (o.answer wrap).1.isOk = o.1.isOk := by
  cases o with
  | mk result s => cases result <;> rfl

def perform : Operation → MemoryStore → Outcome Answer
  | .createRun run, s => Outcome.answer .run (createRun run s)
  | .createRunRequest run log approval audit, s =>
    Outcome.answer .run (createRunRequest run log approval audit s)
  | .updateRunStatus id status finishedAt now, s =>
    Outcome.answer .run (updateRunStatus id status finishedAt now s)
  | .updateRunWorkflowState id workflowState, s =>
    Outcome.answer .run (updateRunWorkflowState id workflowState s)
  | .createApproval approval, s => Outcome.answer .approval (createApproval approval s)
  | .approveRun runID actorID approvedAt audit, s =>
    Outcome.answer .approval (approveRun runID actorID approvedAt audit s)
  | .rejectRun runID actorID rejectedAt audit, s =>
    Outcome.answer .approval (rejectRun runID actorID rejectedAt audit s)
  | .createRunLog log, s => Outcome.answer (fun _ => .done) (createRunLog log s)
  | .createArtifact artifact, s => Outcome.answer (fun _ => .done) (createArtifact artifact s)
  | .createRunLogForLease log runnerID leaseID attempt fence now, s =>
    Outcome.answer .log (createRunLogForLease log runnerID leaseID attempt fence now s)
  | .createRunLogsForLease logs runID runnerID leaseID attempt fence now, s =>
    Outcome.answer .logs (createRunLogsForLease logs runID runnerID leaseID attempt fence now s)
  | .createArtifactForLease artifact runnerID attempt fence now, s =>
    Outcome.answer (fun _ => .done) (createArtifactForLease artifact runnerID attempt fence now s)
  | .registerRunner runner audit, s => Outcome.answer .runner (registerRunner runner audit s)
  | .updateRunnerToken runnerID tokenHash status updatedAt audit, s =>
    Outcome.answer .runner (updateRunnerToken runnerID tokenHash status updatedAt audit s)
  | .heartbeatRunner id heartbeatAt, s => Outcome.answer .runner (heartbeatRunner id heartbeatAt s)
  | .claimRun runnerID now ttl leaseToken fenceToken audit, s =>
    Outcome.answer .claim (claimRun runnerID now ttl leaseToken fenceToken audit s)
  | .renewLease runnerID leaseID fence attempt now ttl, s =>
    Outcome.answer .lease (renewLease runnerID leaseID fence attempt now ttl s)
  | .expireLeases now, s => Outcome.answer (fun _ => .done) (expireLeases now s)
  | .completeLeaseRequest leaseID runnerID status attempt fence completionKey completedAt runStatus
      finishedAt workflowState logs audit, s =>
    Outcome.answer .lease (completeLeaseRequest leaseID runnerID status attempt fence completionKey
      completedAt runStatus finishedAt workflowState logs audit s)
  | .cancelRunRequest runID canceledAt log audit, s =>
    Outcome.answer .run (cancelRunRequest runID canceledAt log audit s)
  | .authorizeSecretAccess toLower request, s => Outcome.answer .grant (authorizeSecretAccess toLower request s)
  | .createService v audit, s => Outcome.answer .service (createService v audit s)
  | .createEnvironment v audit, s => Outcome.answer .environment (createEnvironment v audit s)
  | .createRevision v audit now, s => Outcome.answer .revision (createRevision v audit now s)
  | .resolveRevisionProvenance req audit now, s =>
    Outcome.answer .revision (resolveRevisionProvenance req audit now s)
  | .createDeploymentRequest v run a, s => Outcome.answer .deployment (createDeploymentRequest v run a s)
  | .confirmDeployment id confirmedBy audit now, s =>
    Outcome.answer .deployment (confirmDeployment id confirmedBy audit now s)
  | .failPreAssignmentDeployment id failureCode audit now, s =>
    Outcome.answer .deployment (failPreAssignmentDeployment id failureCode audit now s)
  | .transitionDeploymentAttempt request audit now, s =>
    Outcome.answer .deployment (transitionDeploymentAttempt request audit now s)
  | .cancelDeploymentRequest req audit now, s =>
    Outcome.answer .deployment (cancelDeploymentRequest req audit now s)
  | .failDeploymentAndCreateRollback req failedAudit rollbackAudit now, s =>
    Outcome.answer .failure (failDeploymentAndCreateRollback req failedAudit rollbackAudit now s)

-- The IDs made up for runs and leases are new, also that of a rollback's run, unless the rollback is there already.
def Operation.Fresh (s : MemoryStore) : Operation → Prop
  | .createRun run => ∀ r ∈ s.runs, r.id ≠ run.id
  | .createRunRequest run _ _ _ => ∀ r ∈ s.runs, r.id ≠ run.id
  | .claimRun _ _ _ leaseToken fenceToken _ =>
    ∀ l ∈ s.leases, leaseToken ≠ some l.id ∧ fenceToken ≠ some l.fence
  | .failDeploymentAndCreateRollback req _ _ _ =>
    (∀ d ∈ s.deployments, d.idempotencyKey ≠ rollbackKey req.deploymentID req.requestID) →
      ∀ r ∈ s.runs, r.id ≠ (rollbackObjectIDs req.deploymentID req.requestID).2
  | _ => True

-- The states reached by admitted operations, with those that succeeded on the way, the last one first.
inductive Reaches (admitted : MemoryStore → Operation → Prop) : List Operation → MemoryStore → Prop
  | start : Reaches admitted [] newMemoryStore
  | step (past : List Operation) (s : MemoryStore) (op : Operation) (hReached : Reaches admitted past s)
      (hAdmitted : admitted s op) :
      Reaches admitted (if (perform op s).1.isOk then op :: past else past) (perform op s).2

theorem Reaches.accepted {admitted : MemoryStore → Operation → Prop} {past : List Operation} {s : MemoryStore}
    (hReached : Reaches admitted past s) (op : Operation) (hAdmitted : admitted s op)
    (hOk : (perform op s).1.isOk = true) : Reaches admitted (op :: past) (perform op s).2 := by
  have hStep := Reaches.step past s op hReached hAdmitted
  rwa [if_pos hOk] at hStep

theorem Reaches.invariant {admitted : MemoryStore → Operation → Prop} {past : List Operation}
    {s : MemoryStore} (hReached : Reaches admitted past s) (I : MemoryStore → Prop) (hStart : I newMemoryStore)
    (hStep : ∀ s op, I s → admitted s op → I (perform op s).2) : I s := by
  induction hReached with
  | start => exact hStart
  | step _ s op _ hAdmitted ih => exact hStep s op ih hAdmitted

end NeroCD.Store
