import NeroCD.Store.Leases

-- Operations on services, environments, revisions and deployments.

namespace NeroCD.Store

open NeroCD.Domain NeroCD.GoStrings NeroCD.Records

def createService (v : Service) (audit : Option AuditEvent) (s : MemoryStore) : Outcome Service :=
  if s.services.any (fun x => x.id == v.id || (x.projectID == v.projectID && x.name == v.name)) then
    (.error .conflict, s)
  else (.ok v, ({ s with services := s.services ++ [v] } : MemoryStore).pushOptionalAudit audit)

def createEnvironment (v : Environment) (audit : Option AuditEvent) (s : MemoryStore) : Outcome Environment :=
  if s.environments.any (fun x => x.id == v.id || (x.serviceID == v.serviceID && x.name == v.name)) then
    (.error .conflict, s)
  else (.ok v, ({ s with environments := s.environments ++ [v] } : MemoryStore).pushOptionalAudit audit)

def sameContent (v x : Revision) : Bool :=
  v.contentIdentity != "" && x.serviceID == v.serviceID && x.contentIdentity == v.contentIdentity

-- A revision created without an audit event may bring its evidence along.
def importedRevision (v : Revision) (now : Time) : Revision :=
  if v.gitCommit != "" && v.composeHash != "" then
    { v with provenanceResolved := true, provenanceState := .legacyUnverified, resolvedAt := some now }
  else if v.provenanceState == .unset then { v with provenanceState := .pending }
  else v

def createRevision (v : Revision) (audit : Option AuditEvent) (now : Time) (s : MemoryStore) :
    Outcome Revision :=
  match s.revisions.find? (fun x => x.id == v.id || sameContent v x) with
  | some x => if sameContent v x then (.ok x, s) else (.error .conflict, s)
  | none =>
    let v := if audit.isNone then importedRevision v now else v
    (.ok v, ({ s with revisions := s.revisions ++ [v] } : MemoryStore).pushOptionalAudit audit)

def provenanceStatus (status : DeploymentStatus) : Bool :=
  status == .assigned || status == .preparing || status == .applying || status == .verifying

def provenanceKey (deploymentID resolutionID : String) : String := deploymentID ++ nul ++ resolutionID

def provenanceContentConflict (existingCommit existingHash commit hash : String) (imagesEqual : Bool) :
    StoreError :=
  if existingCommit != commit then .provenanceConflict .commitMismatch
  else if existingHash != hash then .provenanceConflict .composeHashMismatch
  else if !imagesEqual then .provenanceConflict .imageMismatch
  else .conflict

def resolvedRevision (commit hash : String) (digests : List String) (now : Time) (r : Revision) : Revision :=
  { r with
    gitCommit := commit
    composeHash := hash
    imageDigests := digests
    contentIdentity := commit ++ ":" ++ hash
    provenanceResolved := true
    provenanceState := .resolved
    resolvedAt := some now }

def attestedRevision (commit hash : String) (digests : List String) (now : Time) (r : Revision) :
    Except StoreError Revision :=
  if r.provenanceResolved then
    if r.gitCommit != commit || r.composeHash != hash || r.imageDigests != digests then
      .error (provenanceContentConflict r.gitCommit r.composeHash commit hash (r.imageDigests == digests))
    else .ok r
  else if r.provenanceState != .pending then .error .conflict
  else .ok (resolvedRevision commit hash digests now r)

def provenanceRevision (deploymentID runID commit hash : String) (digests : List String) (now : Time)
    (s : MemoryStore) : Except StoreError Revision :=
  (s.deployments.findSome? (fun d =>
    if d.id != deploymentID || d.taskRunID != some runID then none
    else if !provenanceStatus d.status then some (.error .notFound)
    else
      (s.revisions.find? (fun r => r.id == d.desiredRevisionID)).map
        (attestedRevision commit hash digests now))).getD (.error .notFound)

structure ProvenanceRequest where
  deploymentID : String
  runID : String
  leaseID : String
  runnerID : String
  attempt : Int
  fence : String
  resolutionID : String
  commit : String
  hash : String
  digests : List String
  deriving DecidableEq

def sameProvenance (replay : ProvenanceReplay) (req : ProvenanceRequest) : Bool :=
  replay.runID == req.runID && replay.leaseID == req.leaseID && replay.runnerID == req.runnerID &&
    replay.attempt == req.attempt && replay.fence == req.fence && replay.commit == req.commit &&
    replay.hash == req.hash && replay.digests == req.digests

def provenanceReplay (req : ProvenanceRequest) (r : Revision) : ProvenanceReplay :=
  { deploymentID := req.deploymentID, resolutionID := req.resolutionID, runID := req.runID,
    leaseID := req.leaseID, runnerID := req.runnerID, attempt := req.attempt, fence := req.fence,
    commit := req.commit, hash := req.hash, digests := req.digests, revision := r }

def resolveRevisionProvenance (req : ProvenanceRequest) (audit : AuditEvent) (now : Time) (s : MemoryStore) :
    Outcome Revision :=
  match s.provenanceReplays.lookup (provenanceKey req.deploymentID req.resolutionID) with
  | some replay =>
    if sameProvenance replay req then (.ok replay.revision, s)
    else (.error (.provenanceConflict .replayKey), s)
  | none =>
    if !s.deploymentAttempts.any
        (attemptNamed req.deploymentID req.runID req.leaseID req.runnerID req.attempt req.fence) then
      (.error .notFound, s)
    else if !s.leases.any (fun l =>
        leaseNamed req.leaseID req.runID req.runnerID req.attempt req.fence l && leaseLive now l) then
      (.error .notFound, s)
    else
      match provenanceRevision req.deploymentID req.runID req.commit req.hash req.digests now s with
      | .error e => (.error e, s)
      | .ok r =>
        let s := if audit.id == "" then s else s.appendAudit { audit with createdAt := now }
        (.ok r, { s with
          revisions := updateFirst (fun x => x.id == r.id) (fun _ => r) s.revisions
          provenanceReplays := s.provenanceReplays.insert
            (provenanceKey req.deploymentID req.resolutionID) (provenanceReplay req r) })

def canonicalComposeDeploymentRun (deployment : Deployment) (run : TaskRun) : Except StoreError TaskRun :=
  let inputs := run.runSpec.inputs
  let given := inputs.lookup "deployment_id"
  if given.isSome && given != some (.text deployment.id) then .error .conflict
  else
    let run := { run with
      runSpec := { run.runSpec with inputs := inputs.insert "deployment_id" (.text deployment.id) } }
    if !(validateComposeDeploymentTask run).isOk then .error .conflict else .ok run

-- An earlier request with the key answers, an unfinished deployment blocks the environment, whichever comes first.
def priorDeployment (v : Deployment) (deployments : List Deployment) : Option (Except StoreError Deployment) :=
  deployments.findSome? (fun existing =>
    if existing.environmentID == v.environmentID && existing.idempotencyKey == v.idempotencyKey then
      some (if existing.desiredRevisionID == v.desiredRevisionID then .ok existing else .error .conflict)
    else if existing.environmentID == v.environmentID && !isTerminalDeploymentStatus existing.status then
      some (.error .conflict)
    else none)

def createDeploymentRequest (v : Deployment) (run : TaskRun) (a : AuditEvent) (s : MemoryStore) :
    Outcome Deployment :=
  match canonicalComposeDeploymentRun v run with
  | .error e => (.error e, s)
  | .ok run =>
    if v.rollbackOfID.isSome then (.error .conflict, s)
    else
      match s.environments.find? (fun candidate => candidate.id == v.environmentID) with
      | none => (.error .notFound, s)
      | some environment =>
        if environment.id == "" then (.error .notFound, s)
        else if !s.revisions.any (fun revision =>
            revision.id == v.desiredRevisionID && revision.serviceID == environment.serviceID) then
          (.error .notFound, s)
        else
          match priorDeployment v s.deployments with
          | some answer => (answer, s)
          | none =>
            if s.runs.any (fun existing => existing.id == run.id) then (.error .conflict, s)
            else
              let v := { v with
                fenceRequired := true
                taskRunID := some run.id
                previousHealthyRevisionID := environment.currentHealthyRevisionID }
              (.ok v, ({ s with
                runs := run :: s.runs
                claimOrderByRun := s.claimOrderByRun.insert run.id run.startedAt
                deployments := s.deployments ++ [v] } : MemoryStore).pushAudit a)

def deploymentIs (id : String) (deployment : Deployment) : Bool := deployment.id == id

def confirmDeployment (id confirmedBy : String) (audit : AuditEvent) (now : Time) (s : MemoryStore) :
    Outcome Deployment :=
  match s.deployments.find? (deploymentIs id) with
  | none => (.error .notFound, s)
  | some deployment =>
    match deployment.taskRunID with
    | none => (.error .conflict, s)
    | some runID =>
      if deployment.status != .waitingConfirmation then (.error .conflict, s)
      else
        let deployment := { deployment with
          status := .assigned, confirmedBy := some confirmedBy, updatedAt := now }
        (.ok deployment, ({ s with
          deployments := updateFirst (deploymentIs id) (fun _ => deployment) s.deployments
          runs := updateAll (waitingRun runID) (fun run => { run with status := .queued }) s.runs
          claimOrderByRun :=
            if s.runs.any (waitingRun runID) then s.claimOrderByRun.insert runID now
            else s.claimOrderByRun } : MemoryStore).pushAudit audit)

def unassignedRun (runID : String) (run : TaskRun) : Bool :=
  run.id == runID && (run.status == .queued || run.status == .waitingApproval)

def failedRun (now : Time) (run : TaskRun) : TaskRun :=
  { run with status := .failed, runnerID := none, finishedAt := some now }

-- The role of the deployment is not looked at.
def failPreAssignmentDeployment (id failureCode : String) (audit : AuditEvent) (now : Time)
    (s : MemoryStore) : Outcome Deployment :=
  match s.deployments.find? (deploymentIs id) with
  | none => (.error .notFound, s)
  | some deployment =>
    if deployment.status == .failed then
      if deployment.failureCode == failureCode then (.ok deployment, s) else (.error .conflict, s)
    else
      match deployment.taskRunID with
      | none => (.error .conflict, s)
      | some runID =>
        if deployment.status != .queued && deployment.status != .waitingConfirmation then
          (.error .conflict, s)
        else
          match s.runs.find? (unassignedRun runID) with
          | none => (.error .conflict, s)
          | some run =>
            let deployment := { deployment with
              status := .failed, failureCode := failureCode, updatedAt := now, finishedAt := some now }
            (.ok deployment, ({ s with
              runs := updateFirst (unassignedRun runID) (fun _ => failedRun now run) s.runs
              deployments := updateFirst (deploymentIs id) (fun _ => deployment) s.deployments }
                : MemoryStore).pushAudit { audit with createdAt := now })

-- All fields are compared but the transition key, which the caller looks the record up by.
def sameDeploymentTransition (left right : DeploymentTransitionRequest) : Bool :=
  decide ({ left with transitionKey := right.transitionKey } = right)

def transitionRecordKey (deploymentID transitionKey : String) : String :=
  deploymentID ++ nul ++ transitionKey

def deploymentTerminalOutcome : DeploymentStatus → Option (AttemptStatus × LeaseStatus × RunStatus)
  | .succeeded | .rolledBack => some (.succeeded, .succeeded, .succeeded)
  | .failed | .rollbackFailed | .manualIntervention => some (.failed, .failed, .failed)
  | .canceled => some (.canceled, .canceled, .canceled)
  | _ => none

def heldRun (runID runnerID : String) (run : TaskRun) : Bool :=
  run.id == runID && run.runnerID == some runnerID && run.status == .running

def endedRun (status : RunStatus) (now : Time) (run : TaskRun) : TaskRun :=
  { run with status := status, runnerID := none, finishedAt := some now }

def endedLease (status : LeaseStatus) (now : Time) (lease : RunLease) : RunLease :=
  { lease with status := status, completedAt := some now }

def endedAttempt (status : AttemptStatus) (now : Time) (a : DeploymentAttempt) : DeploymentAttempt :=
  { a with status := status, finishedAt := some now }

-- Whether the new status certifies the desired revision of the deployment as healthy.
def certifiesHealth (target : DeploymentStatus) (isRollbackChild : Bool) : Bool :=
  target == .succeeded || (target == .rolledBack && isRollbackChild)

def transitionRefused (request : DeploymentTransitionRequest) (revisions : List Revision)
    (deployment : Deployment) : Bool :=
  let resolved := match revisions.find? (fun revision => revision.id == deployment.desiredRevisionID) with
    | some revision => revision.provenanceResolved
    | none => false
  deployment.taskRunID != some request.runID || deployment.status != request.expectedStatus ||
    !deploymentRoleTransitionAllowed deployment.rollbackOfID.isSome deployment.status request.targetStatus ||
    (request.targetStatus == .applying && !resolved) ||
    (certifiesHealth request.targetStatus deployment.rollbackOfID.isSome && request.healthPassed != some true)

def transitioned (request : DeploymentTransitionRequest) (now : Time) (deployment : Deployment) : Deployment :=
  { deployment with
    status := request.targetStatus
    healthPassed := request.healthPassed
    failureCode := request.failureCode
    updatedAt := now
    finishedAt := if (deploymentTerminalOutcome request.targetStatus).isSome then some now
      else deployment.finishedAt }

def rollingBackRoot (id : String) (deployment : Deployment) : Bool :=
  deployment.id == id && deployment.status == .rollingBack

def settledRoot (target : DeploymentStatus) (now : Time) (root : Deployment) : Deployment :=
  { root with status := target, updatedAt := now, finishedAt := some now }

def recordTransition (request : DeploymentTransitionRequest) (deployment : Deployment) (now : Time)
    (s : MemoryStore) : MemoryStore :=
  let environments :=
    if certifiesHealth request.targetStatus deployment.rollbackOfID.isSome then
      updateAll (fun e => e.id == deployment.environmentID)
        (fun e => { e with currentHealthyRevisionID := some deployment.desiredRevisionID }) s.environments
    else s.environments
  let deployments :=
    match deployment.rollbackOfID with
    | some rootID =>
      if request.targetStatus == .rolledBack || request.targetStatus == .rollbackFailed then
        updateFirst (rollingBackRoot rootID) (settledRoot request.targetStatus now) s.deployments
      else s.deployments
    | none => s.deployments
  { s with
    environments := environments
    deployments := updateFirst (deploymentIs request.deploymentID)
      (fun _ => transitioned request now deployment) deployments
    deploymentTransitions := s.deploymentTransitions.insert
      (transitionRecordKey request.deploymentID request.transitionKey) request }

def transitionDeploymentAttempt (request : DeploymentTransitionRequest) (audit : AuditEvent) (now : Time)
    (s : MemoryStore) : Outcome Deployment :=
  let leaseIs := leaseNamed request.leaseID request.runID request.runnerID request.attempt request.fence
  let attemptIs := attemptNamed request.deploymentID request.runID request.leaseID request.runnerID
    request.attempt request.fence
  match s.leases.find? leaseIs with
  | none => (.error .notFound, s)
  | some lease =>
    match s.deploymentAttempts.find? attemptIs with
    | none => (.error .notFound, s)
    | some attempt =>
      match s.deploymentTransitions.lookup
          (transitionRecordKey request.deploymentID request.transitionKey) with
      | some replay =>
        if !sameDeploymentTransition replay request then (.error .conflict, s)
        else
          match s.deployments.find? (deploymentIs request.deploymentID) with
          | some deployment => (.ok deployment, s)
          | none => (.error .notFound, s)
      | none =>
        if !leaseLive now lease then (.error .notFound, s)
        else
          match s.deployments.find? (deploymentIs request.deploymentID) with
          | none => (.error .notFound, s)
          | some deployment =>
            if transitionRefused request s.revisions deployment then (.error .conflict, s)
            else
              match deploymentTerminalOutcome request.targetStatus with
              | none =>
                (.ok (transitioned request now deployment),
                  (recordTransition request deployment now s).pushAudit audit)
              | some (attemptStatus, leaseStatus, runStatus) =>
                if attempt.status != .active then (.error .conflict, s)
                else
                  match s.runs.find? (heldRun request.runID request.runnerID) with
                  | none => (.error .conflict, s)
                  | some run =>
                    let s : MemoryStore := { s with
                      leases := updateFirst leaseIs (fun _ => endedLease leaseStatus now lease) s.leases
                      runs := updateFirst (heldRun request.runID request.runnerID)
                        (fun _ => endedRun runStatus now run) s.runs
                      deploymentAttempts := updateFirst attemptIs
                        (fun _ => endedAttempt attemptStatus now attempt) s.deploymentAttempts }
                    (.ok (transitioned request now deployment),
                      (recordTransition request deployment now s).pushAudit audit)

def cancelRecordKey (deploymentID requestID : String) : String := deploymentID ++ nul ++ requestID

def beforeApply (status : DeploymentStatus) : Bool :=
  status == .queued || status == .waitingConfirmation || status == .assigned || status == .preparing

def cancelExecution (d : Deployment) (now : Time) (s : MemoryStore) : MemoryStore :=
  match d.taskRunID with
  | none => s
  | some runID =>
    { s with
      runs := updateAll (fun run => run.id == runID) (canceledRun now) s.runs
      leases := updateAll (activeLeaseOf runID) (canceledLease now) s.leases
      deploymentAttempts := updateAll (fun a => a.deploymentID == d.id && a.status == .active)
        (endedAttempt .canceled now) s.deploymentAttempts }

def cancelDeploymentRequest (req : DeploymentCancelRequest) (audit : AuditEvent) (now : Time)
    (s : MemoryStore) : Outcome Deployment :=
  match s.deploymentCancels.lookup (cancelRecordKey req.deploymentID req.requestID) with
  | some prior =>
    if prior.actorID != req.actorID then (.error .conflict, s)
    else
      match s.deployments.find? (deploymentIs req.deploymentID) with
      | some d => (.ok d, s)
      | none => (.error .notFound, s)
  | none =>
    if ∃ priorKey ∈ s.deploymentCancels.keys, priorKey.startsWith (req.deploymentID ++ nul) then
      (.error .conflict, s)
    else
      match s.deployments.find? (deploymentIs req.deploymentID) with
      | none => (.error .notFound, s)
      | some d =>
        if d.rollbackOfID.isSome || isTerminalDeploymentStatus d.status then (.error .conflict, s)
        else
          let record (d : Deployment) (s : MemoryStore) : Outcome Deployment :=
            (.ok d, ({ s with
              deployments := updateFirst (deploymentIs req.deploymentID) (fun _ => d) s.deployments
              deploymentCancels := s.deploymentCancels.insert
                (cancelRecordKey req.deploymentID req.requestID) req } : MemoryStore).pushAudit
                  { audit with createdAt := now })
          if beforeApply d.status then
            record { d with status := .canceled, updatedAt := now, finishedAt := some now }
              (cancelExecution d now s)
          else if d.status == .applying || d.status == .verifying then
            record { d with status := .cancelRequested, updatedAt := now } s
          else (.error .conflict, s)

def failureStatus (status : DeploymentStatus) : Bool :=
  status == .applying || status == .verifying || status == .cancelRequested

def failureTransitionKey (requestID : String) : String := "failure:" ++ requestID

def failureTransition (req : DeploymentFailureRollbackRequest) (target : DeploymentStatus) :
    DeploymentTransitionRequest :=
  { deploymentID := req.deploymentID, runID := req.runID, leaseID := req.leaseID, runnerID := req.runnerID,
    attempt := req.attempt, fence := req.fence, transitionKey := failureTransitionKey req.requestID,
    expectedStatus := req.expectedStatus, targetStatus := target, failureCode := req.failureCode,
    metadata := req.metadata }

def rollbackKey (deploymentID requestID : String) : String := "rollback:" ++ deploymentID ++ ":" ++ requestID

def failureRequestRefused (req : DeploymentFailureRollbackRequest)
    (cancels : GoMap DeploymentCancelRequest) : Bool :=
  !failureStatus req.expectedStatus || req.requestID == "" ||
    (req.expectedStatus == .cancelRequested &&
      (req.cancellationRequestID == "" ||
        match cancels.lookup (cancelRecordKey req.deploymentID req.cancellationRequestID) with
        | none => true
        | some receipt =>
          receipt.requestID != req.cancellationRequestID || req.requestID != req.cancellationRequestID))

-- Its attempt has failed, and its transition is recorded with the same body.
def replayFailure (req : DeploymentFailureRollbackRequest) (target : DeploymentStatus) (source : Deployment)
    (rollback : Option Deployment) (s : MemoryStore) : Except StoreError DeploymentFailureRollbackResult :=
  if source.taskRunID != some req.runID then .error .conflict
  else
    match s.deploymentAttempts.find?
        (attemptNamed req.deploymentID req.runID req.leaseID req.runnerID req.attempt req.fence) with
    | none => .error .notFound
    | some attempt =>
      match s.deploymentTransitions.lookup
          (transitionRecordKey source.id (failureTransitionKey req.requestID)) with
      | some stored =>
        if attempt.status == .failed && sameDeploymentTransition stored (failureTransition req target) then
          .ok { failed := source, rollback := rollback }
        else .error .conflict
      | none => .error .conflict

def replayRollback (req : DeploymentFailureRollbackRequest) (existing : Deployment) (s : MemoryStore) :
    Except StoreError DeploymentFailureRollbackResult :=
  let (rollbackDeploymentID, rollbackRunID) := rollbackObjectIDs req.deploymentID req.requestID
  if existing.id != rollbackDeploymentID || existing.rollbackOfID != some req.deploymentID ||
      existing.taskRunID != some rollbackRunID then .error .conflict
  else
    match s.deployments.find? (deploymentIs req.deploymentID) with
    | none => .error .notFound
    | some source => replayFailure req .rollingBack source (some existing) s

def rollbackUnsafe (source : Deployment) (env : Environment) : Bool :=
  source.previousHealthyRevisionID.isNone || !env.rollbackSafe || env.currentHealthyRevisionID.isNone ||
    env.currentHealthyRevisionID != source.previousHealthyRevisionID

structure FailureTarget where
  lease : RunLease
  attempt : DeploymentAttempt
  source : Deployment
  run : TaskRun
  env : Environment

def sourceIs (req : DeploymentFailureRollbackRequest) (d : Deployment) : Bool :=
  d.id == req.deploymentID && d.taskRunID == some req.runID

def failingAttempt (req : DeploymentFailureRollbackRequest) (a : DeploymentAttempt) : Bool :=
  attemptNamed req.deploymentID req.runID req.leaseID req.runnerID req.attempt req.fence a &&
    a.status == .active

def failingLease (req : DeploymentFailureRollbackRequest) : RunLease → Bool :=
  leaseNamed req.leaseID req.runID req.runnerID req.attempt req.fence

-- The cancellation checks that the source repeats here have been made on the same state before.
def failureTarget (req : DeploymentFailureRollbackRequest) (now : Time) (s : MemoryStore) :
    Except StoreError FailureTarget :=
  match s.leases.find? (failingLease req) with
  | none => .error .notFound
  | some lease =>
    if !leaseLive now lease then .error .notFound
    else
      match s.deploymentAttempts.find? (failingAttempt req), s.deployments.find? (sourceIs req),
          s.runs.find? (heldRun req.runID req.runnerID) with
      | some attempt, some source, some run =>
        if source.status != req.expectedStatus || !failureStatus source.status then .error .conflict
        else
          match s.environments.find? (fun e => e.id == source.environmentID) with
          | none => .error .notFound
          | some env =>
            if env.id == "" then .error .notFound
            else .ok { lease := lease, attempt := attempt, source := source, run := run, env := env }
      | _, _, _ => .error .notFound

def failedSource (req : DeploymentFailureRollbackRequest) (target : DeploymentStatus) (now : Time)
    (source : Deployment) : Deployment :=
  { source with
    status := target
    failureCode := req.failureCode
    updatedAt := now
    finishedAt := if target == .manualIntervention then some now else none }

def settleSource (req : DeploymentFailureRollbackRequest) (target : DeploymentStatus) (t : FailureTarget)
    (now : Time) (s : MemoryStore) : MemoryStore :=
  { s with
    deployments := updateFirst (sourceIs req) (fun _ => failedSource req target now t.source) s.deployments
    leases := updateFirst (failingLease req) (fun _ => endedLease .failed now t.lease) s.leases
    runs := updateFirst (heldRun req.runID req.runnerID) (fun _ => endedRun .failed now t.run) s.runs
    deploymentAttempts := updateFirst (failingAttempt req) (fun _ => endedAttempt .failed now t.attempt)
      s.deploymentAttempts
    deploymentTransitions := s.deploymentTransitions.insert
      (transitionRecordKey t.source.id (failureTransitionKey req.requestID)) (failureTransition req target) }

def rollbackDeployment (req : DeploymentFailureRollbackRequest) (source : Deployment) (previous : String)
    (now : Time) : Deployment :=
  let (rollbackDeploymentID, rollbackRunID) := rollbackObjectIDs req.deploymentID req.requestID
  { id := rollbackDeploymentID
    environmentID := source.environmentID
    desiredRevisionID := previous
    previousHealthyRevisionID := some previous
    idempotencyKey := rollbackKey source.id req.requestID
    status := .queued
    requestedBy := req.runnerID
    createdAt := now
    updatedAt := now
    rollbackOfID := some source.id
    fenceRequired := true
    taskRunID := some rollbackRunID }

def rollbackRun (req : DeploymentFailureRollbackRequest) (source : Deployment) (run : TaskRun)
    (previous : String) (now : Time) : TaskRun :=
  let (rollbackDeploymentID, rollbackRunID) := rollbackObjectIDs req.deploymentID req.requestID
  { id := rollbackRunID
    projectID := ""
    runSpec :=
      { type := runTypeComposeDeploy
        inputs := ((((∅ : Document).insert "deployment_id" (.text rollbackDeploymentID)).insert
          "rollback_of_id" (.text source.id)).insert "desired_revision_id" (.text previous))
        secrets := run.runSpec.secrets }
    status := .queued
    requestedBy := req.runnerID
    startedAt := now }

-- Nothing is rolled back: the environment waits for an operator.
def manualFallback (req : DeploymentFailureRollbackRequest) (t : FailureTarget) (failedAudit : AuditEvent)
    (now : Time) (s : MemoryStore) : Outcome DeploymentFailureRollbackResult :=
  (.ok { failed := failedSource req .manualIntervention now t.source },
    (settleSource req .manualIntervention t now s).pushAudit { failedAudit with createdAt := now })

def microsecond : Time := 1000

-- The project is looked up only after the source has been settled, and a missing one is an error.
def queueRollback (req : DeploymentFailureRollbackRequest) (t : FailureTarget) (previous : String)
    (failedAudit rollbackAudit : AuditEvent) (now : Time) (s : MemoryStore) :
    Outcome DeploymentFailureRollbackResult :=
  let s := settleSource req .rollingBack t now s
  let rollback := rollbackDeployment req t.source previous now
  let projectID := ((s.services.find? (fun service => service.id == t.env.serviceID)).map
    (fun service => service.projectID)).getD ""
  let run := { rollbackRun req t.source t.run previous now with projectID := projectID }
  if rollback.id == "" || run.id == "" || run.projectID == "" then (.error .conflict, s)
  else
    (.ok { failed := failedSource req .rollingBack now t.source, rollback := some rollback },
      { s with
        runs := run :: s.runs
        claimOrderByRun := s.claimOrderByRun.insert run.id now
        deployments := s.deployments ++ [rollback]
        auditEvents := { rollbackAudit with createdAt := now + microsecond } ::
          { failedAudit with createdAt := now } :: s.auditEvents })

def otherOpen (source d : Deployment) : Bool :=
  d.environmentID == source.environmentID && !isTerminalDeploymentStatus d.status && d.id != source.id

def failDeploymentAndCreateRollback (req : DeploymentFailureRollbackRequest)
    (failedAudit rollbackAudit : AuditEvent) (now : Time) (s : MemoryStore) :
    Outcome DeploymentFailureRollbackResult :=
  if failureRequestRefused req s.deploymentCancels then (.error .conflict, s)
  else
    match s.deployments.find? (fun source =>
        source.id == req.deploymentID && source.status == .manualIntervention) with
    | some source => (replayFailure req .manualIntervention source none s, s)
    | none =>
      match s.deployments.find? (fun existing =>
          existing.idempotencyKey == rollbackKey req.deploymentID req.requestID) with
      | some existing => (replayRollback req existing s, s)
      | none =>
        match failureTarget req now s with
        | .error e => (.error e, s)
        | .ok t =>
          match t.source.previousHealthyRevisionID with
          | none => manualFallback req t failedAudit now s
          | some previous =>
            if rollbackUnsafe t.source t.env then manualFallback req t failedAudit now s
            else if s.deployments.any (otherOpen t.source) then (.error .conflict, s)
            else queueRollback req t previous failedAudit rollbackAudit now s

end NeroCD.Store
