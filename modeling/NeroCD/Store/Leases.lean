import NeroCD.Store.Runs

-- Operations on runners and leases.

namespace NeroCD.Store

open NeroCD.Domain NeroCD.GoStrings NeroCD.Records

def registerRunner (runner : Runner) (audit : Option AuditEvent) (s : MemoryStore) : Outcome Runner :=
  if s.runners.any (fun r => r.id == runner.id) then (.error .conflict, s)
  else (.ok runner, ({ s with runners := s.runners ++ [runner] } : MemoryStore).pushOptionalAudit audit)

def updateRunnerToken (runnerID tokenHash : String) (status : RunnerStatus) (updatedAt : Time)
    (audit : Option AuditEvent) (s : MemoryStore) : Outcome Runner :=
  match s.runners.find? (fun r => r.id == runnerID) with
  | none => (.error .notFound, s)
  | some r =>
    let r := { r with tokenHash := tokenHash, status := status, lastHeartbeatAt := updatedAt }
    (.ok r, ({ s with
      runners := updateFirst (fun r => r.id == runnerID) (fun _ => r) s.runners }
        : MemoryStore).pushOptionalAudit audit)

def heartbeatRunner (id : String) (heartbeatAt : Time) (s : MemoryStore) : Outcome Runner :=
  match s.runners.find? (fun runner => runner.id == id) with
  | none => (.error .notFound, s)
  | some runner =>
    let runner := { runner with status := .active, lastHeartbeatAt := heartbeatAt }
    (.ok runner, { s with runners := updateFirst (fun r => r.id == id) (fun _ => runner) s.runners })

def runningRun (runID : String) (run : TaskRun) : Bool := run.id == runID && run.status == .running

-- A run whose lease expired. A hosting build is not requeued.
def releasedRun (now : Time) (run : TaskRun) : TaskRun :=
  if run.runSpec.type == hostingBuildTaskType || run.runSpec.hostingBuildID != "" then
    { run with status := .failed, runnerID := none, finishedAt := some now }
  else { run with status := .queued, runnerID := none, finishedAt := none }

def activeAttemptOf (leaseID : String) (attempt : DeploymentAttempt) : Bool :=
  attempt.leaseID == leaseID && attempt.status == .active

def failedAttempt (now : Time) (attempt : DeploymentAttempt) : DeploymentAttempt :=
  { attempt with status := .failed, finishedAt := some now }

-- One iteration of `expireLeasesLocked`, for the lease at index `i`.
def expireLease (now : Time) (s : MemoryStore) (i : Nat) : MemoryStore :=
  match s.leases[i]? with
  | none => s
  | some lease =>
    if lease.status != .active || decide (now < lease.expiresAt) then s
    else
      match s.runs.find? (runningRun lease.runID) with
      | none => s
      | some run =>
        { s with
          leases := s.leases.set i { lease with status := .expired, completedAt := some now }
          deploymentAttempts :=
            updateAll (activeAttemptOf lease.id) (failedAttempt now) s.deploymentAttempts
          runs := updateFirst (runningRun lease.runID) (fun _ => releasedRun now run) s.runs
          claimOrderByRun := s.claimOrderByRun.insert run.id now }

def expireLeasesLocked (now : Time) (s : MemoryStore) : MemoryStore :=
  (List.range s.leases.length).foldl (expireLease now) s

def expireLeases (now : Time) (s : MemoryStore) : Outcome Unit := (.ok (), expireLeasesLocked now s)

def claimDefinitionAllowed (s : MemoryStore) (run : TaskRun) : Bool :=
  if run.runSpec.type != runTypeComposeDeploy then
    (validateGenericRunDefinition run.runSpec run.workflow).isOk
  else if !(validateComposeDeploymentTask run).isOk then false
  else
    (s.deployments.findSome? (fun deployment =>
      if run.runSpec.inputs.lookup "deployment_id" != some (.text deployment.id) ||
          deployment.taskRunID != some run.id || !deployment.fenceRequired ||
          isTerminalDeploymentStatus deployment.status ||
          deployment.status == .waitingConfirmation then none
      else
        s.environments.findSome? (fun environment =>
          if environment.id != deployment.environmentID then none
          else
            (s.services.find? (fun service => service.id == environment.serviceID)).map
              (fun service => service.projectID == run.projectID)))).getD false

def claimCandidateLimit : Nat := 256

def markStale (runnerID : String) (staleBefore : Time) (runners : List Runner) : List Runner :=
  updateFirst (fun candidate => candidate.id == runnerID)
    (fun candidate =>
      if candidate.status == .active && decide (candidate.lastHeartbeatAt < staleBefore) then
        { candidate with status := .stale }
      else candidate) runners

-- The claim order of the queued runs, with the start of a run as its order by default.
def fillClaimOrder (runs : List TaskRun) (order : GoMap Time) : GoMap Time :=
  runs.foldl (fun order run =>
    if run.status == .queued && (order.lookup run.id).isNone then order.insert run.id run.startedAt
    else order) order

def claimCursorOf (order : GoMap Time) (run : TaskRun) : ClaimCursor :=
  { claimOrderAt := (order.lookup run.id).getD 0, runID := run.id }

-- `candidate` comes after `cursor` in claim order.
def afterCursor (cursor : Option ClaimCursor) (candidate : ClaimCursor) : Bool :=
  match cursor with
  | none => true
  | some cursor =>
    !(decide (candidate.claimOrderAt < cursor.claimOrderAt) ||
      (candidate.claimOrderAt == cursor.claimOrderAt && decide (candidate.runID ≤ cursor.runID)))

def claimBefore (order : GoMap Time) (left right : TaskRun × Nat) : Prop :=
  let l := claimCursorOf order left.1
  let r := claimCursorOf order right.1
  l.claimOrderAt < r.claimOrderAt ∨ (l.claimOrderAt = r.claimOrderAt ∧ l.runID ≤ r.runID)

instance (order : GoMap Time) : DecidableRel (claimBefore order) :=
  fun _ _ => inferInstanceAs (Decidable (_ ∨ _))

def claimCandidates (order : GoMap Time) (cursor : Option ClaimCursor) (runs : List TaskRun) :
    List (TaskRun × Nat) :=
  ((runs.zipIdx.filter (fun candidate =>
    candidate.1.status == .queued && afterCursor cursor (claimCursorOf order candidate.1))).insertionSort
      (claimBefore order)).take claimCandidateLimit

def claimEligible (s : MemoryStore) (runner : Runner) (run : TaskRun) : Bool :=
  claimDefinitionAllowed s run && covers runner.tags run.runnerTags &&
    runner.capabilities.contains (claimRunType run)

-- The writes of a claim. A deployment that runs under the lease gets an attempt.
def leaseRun (runner : Runner) (run : TaskRun) (i : Nat) (leaseID fence : String) (now ttl : Time)
    (audit : Option AuditEvent) (s : MemoryStore) : ClaimedRun × MemoryStore :=
  let run := { run with status := .running, runnerID := some runner.id }
  let attempt := max 1 ((s.nextAttemptByRun.lookup run.id).getD 0)
  let lease : RunLease :=
    { id := leaseID, runID := run.id, runnerID := runner.id, status := .active, expiresAt := now + ttl,
      createdAt := now, attempt := attempt, fence := fence }
  let runsHere (deployment : Deployment) : Bool := deployment.taskRunID == some run.id
  ({ lease := lease, run := run, primitivePlan := primitivePlanForRun run },
    ({ s with
      nextAttemptByRun := s.nextAttemptByRun.insert run.id (attempt + 1)
      claimCursors := s.claimCursors.insert runner.id (claimCursorOf s.claimOrderByRun run)
      runs := s.runs.set i run
      leases := s.leases ++ [lease]
      deploymentAttempts := s.deploymentAttempts ++ (s.deployments.filter runsHere).map (fun deployment =>
        { deploymentID := deployment.id, runID := run.id, leaseID := lease.id, runnerID := runner.id,
          attempt := attempt, fence := fence, status := .active, createdAt := now })
      deployments := updateAll (fun deployment => runsHere deployment && deployment.status == .queued)
        (fun deployment => { deployment with status := .assigned, updatedAt := now }) s.deployments }
      : MemoryStore).appendTargetedAudit audit run.id
        [("runner_id", .text runner.id), ("lease_id", .text leaseID), ("attempt", .other (toString attempt)),
         ("fence", .text fence)])

-- The part of `ClaimRun` after the sweep of expired leases. `leaseToken` and `fenceToken` are the
-- answers of the token generator.
def claimQueued (runnerID : String) (now ttl : Time) (leaseToken fenceToken : Option String)
    (audit : Option AuditEvent) (s : MemoryStore) : Outcome ClaimedRun :=
  let s := { s with runners := markStale runnerID (now - 2 * ttl) s.runners }
  match s.runners.find? (fun candidate => candidate.id == runnerID) with
  | none => (.error .notFound, s)
  | some runner =>
    if runner.status != .active || decide (runner.lastHeartbeatAt < now - 2 * ttl) then (.error .notFound, s)
    else
      let s := { s with claimOrderByRun := fillClaimOrder s.runs s.claimOrderByRun }
      let examined := claimCandidates s.claimOrderByRun (s.claimCursors.lookup runner.id) s.runs
      match examined.find? (fun candidate => claimEligible s runner candidate.1) with
      | some (run, i) =>
        match leaseToken, fenceToken with
        | some leaseID, some fence =>
          let (claimed, s) := leaseRun runner run i leaseID fence now ttl audit s
          (.ok claimed, s)
        | _, _ => (.error .randomSource, s)
      | none =>
        match examined.getLast? with
        | some (last, _) =>
          if examined.length == claimCandidateLimit then
            (.error .notFound, { s with
              claimCursors := s.claimCursors.insert runner.id (claimCursorOf s.claimOrderByRun last) })
          else (.error .notFound, { s with claimCursors := s.claimCursors.erase runner.id })
        | none => (.error .notFound, { s with claimCursors := s.claimCursors.erase runner.id })

def claimRun (runnerID : String) (now ttl : Time) (leaseToken fenceToken : Option String)
    (audit : Option AuditEvent) (s : MemoryStore) : Outcome ClaimedRun :=
  if s.auditTaken audit then (.error .conflict, s)
  else claimQueued runnerID now ttl leaseToken fenceToken audit (expireLeasesLocked now s)

def renewLease (runnerID leaseID fence : String) (attempt : Int) (now ttl : Time) (s : MemoryStore) :
    Outcome RunLease :=
  let named (lease : RunLease) : Bool := leaseHeldAs leaseID runnerID attempt fence lease && leaseLive now lease
  match s.leases.find? named with
  | none => (.error .notFound, s)
  | some lease =>
    let lease := { lease with expiresAt := now + ttl }
    (.ok lease, { s with leases := updateFirst named (fun _ => lease) s.leases })

-- The first run with the ID of the lease takes the outcome. Its runner stays recorded.
def completedRun (runStatus : RunStatus) (finishedAt : Option Time) (workflowState : Option WorkflowState)
    (run : TaskRun) : TaskRun :=
  { run with
    status := runStatus
    finishedAt := finishedAt
    workflowState := workflowState.getD run.workflowState }

def completeLeaseRequest (leaseID runnerID : String) (status : LeaseStatus) (attempt : Int)
    (fence completionKey : String) (completedAt : Time) (runStatus : RunStatus) (finishedAt : Option Time)
    (workflowState : Option WorkflowState) (logs : List RunLog) (audit : AuditEvent) (s : MemoryStore) :
    Outcome RunLease :=
  match s.leases.find? (leaseHeldAs leaseID runnerID attempt fence) with
  | none => (.error .notFound, s)
  | some lease =>
    if s.hostingRunLocked lease.runID then (.error .conflict, s)
    else if s.deploymentBackedRunLocked lease.runID then (.error .conflict, s)
    else if lease.completionKey != "" then
      if lease.completionKey == completionKey && lease.status == status then (.ok lease, s)
      else (.error .conflict, s)
    else if !leaseLive completedAt lease then (.error .notFound, s)
    else
      let lease := { lease with
        status := status, completedAt := some completedAt, completionKey := completionKey }
      let s : MemoryStore := { s with
        leases := updateFirst (leaseHeldAs leaseID runnerID attempt fence) (fun _ => lease) s.leases
        runs := updateFirst (fun run => run.id == lease.runID)
          (completedRun runStatus finishedAt workflowState) s.runs
        claimOrderByRun :=
          if runStatus == .queued then s.claimOrderByRun.insert lease.runID completedAt
          else s.claimOrderByRun }
      (.ok lease, (logs.foldl (fun s log => createRunLogLocked log s) s).pushAudit audit)

def activeLeaseOf (runID : String) (lease : RunLease) : Bool :=
  lease.runID == runID && lease.status == .active

def canceledLease (now : Time) (lease : RunLease) : RunLease :=
  { lease with status := .canceled, completedAt := some now }

def canceledRun (now : Time) (run : TaskRun) : TaskRun :=
  { run with status := .canceled, runnerID := none, finishedAt := some now }

def cancelRunRequest (runID : String) (canceledAt : Time) (log : RunLog) (audit : AuditEvent)
    (s : MemoryStore) : Outcome TaskRun :=
  let unfinished (run : TaskRun) : Bool := run.id == runID && !isTerminalRunStatus run.status
  if s.hostingRunLocked runID || s.deploymentBackedRunLocked runID then (.error .conflict, s)
  else
    match s.runs.find? unfinished with
    | none => (.error .notFound, s)
    | some run =>
      let run := canceledRun canceledAt run
      let s : MemoryStore := { s with
        leases := updateAll (activeLeaseOf runID) (canceledLease canceledAt) s.leases
        runs := updateFirst unfinished (fun _ => run) s.runs }
      (.ok run, (createRunLogLocked log s).pushAudit audit)

def secretAccessAuditAction : String := "secret.access"

def runSpecForSecretAccess (run : TaskRun) : Option RunSpec :=
  let currentStepID := trimSpace run.workflowState.currentStepID
  if run.workflow.steps.length == 0 then some run.runSpec
  else if currentStepID == "" then none
  else
    (run.workflow.steps.find? (fun step => trimSpace step.id == currentStepID)).map
      (fun step => step.runSpec)

def runAuthorizesSecretAccess (toLower : String → String) (run : TaskRun) (request : SecretAccessRequest) : Bool :=
  match runSpecForSecretAccess run with
  | none => false
  | some runSpec =>
    let named := runSpec.secrets.filter (fun binding => trimSpace binding.name == request.binding)
    named.all (fun binding =>
      toLower (trimSpace binding.provider) == request.provider && trimSpace binding.version == request.version) &&
        named.length == 1

def secretAccessAudit (request : SecretAccessRequest) (createdAt : Time) : AuditEvent :=
  { id := request.accessID
    actorID := request.runnerID
    action := secretAccessAuditAction
    targetID := request.runID
    createdAt := createdAt
    metadata := auditMetadata none
      [("lease_id", .text request.leaseID), ("attempt", .other (toString request.attempt)),
       ("binding", .text request.binding), ("provider", .text request.provider),
       ("version", .text request.version)] }

def secretAccessAuditsEqual (existing expected : AuditEvent) : Bool :=
  existing.id == expected.id && existing.actorID == expected.actorID &&
    existing.action == expected.action && existing.targetID == expected.targetID &&
    decide (existing.metadata = expected.metadata)

def secretAccessGrant (request : SecretAccessRequest) (authorizedAt : Time) : SecretAccessGrant :=
  { accessID := request.accessID, runID := request.runID, leaseID := request.leaseID,
    attempt := request.attempt, binding := request.binding, provider := request.provider,
    version := request.version, authorizedAt := authorizedAt }

def authorizeSecretAccess (toLower : String → String) (request : SecretAccessRequest) (s : MemoryStore) :
    Outcome SecretAccessGrant :=
  if !s.leases.any (fun lease =>
      leaseNamed request.leaseID request.runID request.runnerID request.attempt request.fence lease &&
        leaseLive request.requestedAt lease) then
    (.error .notFound, s)
  else
    let expected := secretAccessAudit request request.requestedAt
    let replay := s.auditEvents.find? (fun existing => existing.id == request.accessID)
    let authorized := match s.runs.find? (fun run => run.id == request.runID) with
      | some run => runAuthorizesSecretAccess toLower run request
      | none => false
    match replay with
    | some existing =>
      if !secretAccessAuditsEqual existing expected then (.error .conflict, s)
      else if !authorized then (.error .notFound, s)
      else (.ok (secretAccessGrant request existing.createdAt), s)
    | none =>
      if !authorized then (.error .notFound, s)
      else (.ok (secretAccessGrant request expected.createdAt), s.appendAudit expected)

end NeroCD.Store
