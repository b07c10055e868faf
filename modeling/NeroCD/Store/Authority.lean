import NeroCD.Store.Operations

-- The part of the store that decides who may do what. Its operations change it in the few ways that `Effect` lists;
-- what every effect keeps, every operation keeps.

namespace NeroCD.Store

open NeroCD.Domain NeroCD.Records

structure Authority where
  runs : List TaskRun
  leases : List RunLease
  nextAttemptByRun : GoMap Int
  approvals : List Approval
  services : List Service
  environments : List Environment
  deployments : List Deployment
  deploymentAttempts : List DeploymentAttempt
  deploymentTransitions : GoMap DeploymentTransitionRequest
  deploymentCancels : GoMap DeploymentCancelRequest

def MemoryStore.authority (s : MemoryStore) : Authority where
  runs := s.runs
  leases := s.leases
  nextAttemptByRun := s.nextAttemptByRun
  approvals := s.approvals
  services := s.services
  environments := s.environments
  deployments := s.deployments
  deploymentAttempts := s.deploymentAttempts
  deploymentTransitions := s.deploymentTransitions
  deploymentCancels := s.deploymentCancels

def Authority.Backed (a : Authority) (runID : String) : Prop :=
  some runID ∈ a.deployments.map (fun d => d.taskRunID)

-- What callers are known to keep to.
structure Discipline where
  runs : Prop
  deployments : Prop
  transitions : DeploymentTransitionRequest → Prop := fun _ => True
  completions : RunLease → Prop := fun _ => True

structure SameTask (r r' : TaskRun) : Prop where
  id : r'.id = r.id
  runSpec : r'.runSpec = r.runSpec

def ComposeTask (deploymentID : String) (run : TaskRun) : Prop :=
  run.runSpec.type = runTypeComposeDeploy ∧
    run.runSpec.inputs.lookup "deployment_id" = some (.text deploymentID)

def Authority.Linked (a : Authority) (d : Deployment) : Prop :=
  ∃ e ∈ a.environments, e.id = d.environmentID ∧ ∃ v ∈ a.services, v.id = e.serviceID

def attemptUnder (lease : RunLease) (now : Time) (d : Deployment) : DeploymentAttempt where
  deploymentID := d.id
  runID := lease.runID
  leaseID := lease.id
  runnerID := lease.runnerID
  attempt := lease.attempt
  fence := lease.fence
  status := .active
  createdAt := now

structure Held (deploymentID runID leaseID runnerID : String) (attempt : Int) (fence : String)
    (l : RunLease) (t : DeploymentAttempt) (r : TaskRun) : Prop where
  lease : leaseNamed leaseID runID runnerID attempt fence l = true
  active : l.status = .active
  attempt : attemptNamed deploymentID runID leaseID runnerID attempt fence t = true
  attemptActive : t.status = .active
  run : heldRun runID runnerID r = true

inductive Effect (D : Discipline) (a : Authority) : Authority → Prop
  | addRun (run : TaskRun) (approvals : List Approval) (hFresh : ∀ r ∈ a.runs, r.id ≠ run.id)
      (hNew : D.runs → (run.status = .queued ∧ approvals = a.approvals) ∨
        (run.status = .waitingApproval ∧ ∃ p, p.runID = run.id ∧ approvals = p :: a.approvals)) :
      Effect D a { a with runs := run :: a.runs, approvals := approvals }
  | addApproval (approvals : List Approval) (hFree : ¬ D.runs) : Effect D a { a with approvals := approvals }
  -- a pending approval is approved or rejected, with the run it is about
  | decide (p p' : Approval) (approvals : List Approval) (r r' : TaskRun) (runs : List TaskRun)
      (hp : Replaces p p' a.approvals approvals) (hPending : p.status = .pending)
      (hDecided : p'.status ≠ .pending) (hr : Replaces r r' a.runs runs) (hTask : SameTask r r')
      (hAbout : p.runID = r.id) (hFree : ¬ a.Backed r.id)
      (hStatus : (r.status = .waitingApproval ∧ r'.status = .queued) ∨ r'.status = .canceled) :
      Effect D a { a with approvals := approvals, runs := runs }
  | decideAbsent (p p' : Approval) (approvals : List Approval) (hp : Replaces p p' a.approvals approvals)
      (hDecided : p'.status ≠ .pending) : Effect D a { a with approvals := approvals }
  | editRun (r r' : TaskRun) (runs : List TaskRun) (hr : Replaces r r' a.runs runs) (hTask : SameTask r r')
      (hSafe : (r'.status = r.status ∧ r'.runnerID = r.runnerID) ∨ (¬ D.runs ∧ ¬ a.Backed r.id)) :
      Effect D a { a with runs := runs }
  -- a queued run is leased; the deployments it executes get an attempt
  | claim (r r' : TaskRun) (runs : List TaskRun) (lease : RunLease) (now : Time)
      (hr : Replaces r r' a.runs runs) (hTask : SameTask r r') (hQueued : r.status = .queued)
      (hRunning : r'.status = .running) (hHolder : r'.runnerID = some lease.runnerID)
      (hRun : lease.runID = r.id) (hActive : lease.status = .active) (hKey : lease.completionKey = "")
      (hAttempt : lease.attempt = max 1 ((a.nextAttemptByRun.lookup r.id).getD 0))
      (hFresh : ∀ l ∈ a.leases, l.id ≠ lease.id)
      (hAllowed : r.runSpec.type = runTypeComposeDeploy → ∃ d ∈ a.deployments,
        r.runSpec.inputs.lookup "deployment_id" = some (.text d.id) ∧ d.taskRunID = some r.id ∧ a.Linked d) :
      Effect D a { a with
        runs := runs
        leases := a.leases ++ [lease]
        nextAttemptByRun := a.nextAttemptByRun.insert r.id (lease.attempt + 1)
        deploymentAttempts := a.deploymentAttempts ++
          (a.deployments.filter (fun d => d.taskRunID == some r.id)).map (attemptUnder lease now)
        deployments := updateAll (fun d => d.taskRunID == some r.id && d.status == .queued)
          (fun d => { d with status := .assigned, updatedAt := now }) a.deployments }
  | renew (l : RunLease) (expiresAt : Time) (leases : List RunLease) (hActive : l.status = .active)
      (hl : Replaces l { l with expiresAt := expiresAt } a.leases leases) :
      Effect D a { a with leases := leases }
  | expire (l : RunLease) (leases : List RunLease) (r r' : TaskRun) (runs : List TaskRun) (now : Time)
      (hl : Replaces l (endedLease .expired now l) a.leases leases) (hActive : l.status = .active)
      (hr : Replaces r r' a.runs runs) (hTask : SameTask r r') (hRun : l.runID = r.id)
      (hRunning : r.status = .running) (hStatus : r'.status = .queued ∨ r'.status = .failed) :
      Effect D a { a with
        leases := leases
        runs := runs
        deploymentAttempts := updateAll (activeAttemptOf l.id) (failedAttempt now) a.deploymentAttempts }
  | complete (l l' : RunLease) (leases : List RunLease) (r r' : TaskRun) (runs : List TaskRun)
      (hl : Replaces l l' a.leases leases) (hActive : l.status = .active) (hCompletes : D.completions l')
      (hSame : l'.id = l.id ∧ l'.runID = l.runID ∧ l'.runnerID = l.runnerID ∧ l'.attempt = l.attempt ∧
        l'.fence = l.fence)
      (hr : Replaces r r' a.runs runs) (hTask : SameTask r r') (hRun : l.runID = r.id)
      (hFree : ¬ a.Backed r.id)
      (hClosed : D.runs → l'.status ≠ .active ∧ r'.status ≠ .running) :
      Effect D a { a with leases := leases, runs := runs }
  | cancelRun (r : TaskRun) (runs : List TaskRun) (now : Time) (hr : Replaces r (canceledRun now r) a.runs runs)
      (hFree : ¬ a.Backed r.id) :
      Effect D a { a with
        leases := updateAll (activeLeaseOf r.id) (canceledLease now) a.leases
        runs := runs }
  | addService (v : Service) (hProject : D.deployments → v.projectID ≠ "") :
      Effect D a { a with services := a.services ++ [v] }
  | addEnvironment (v : Environment) (hFresh : ∀ e ∈ a.environments, e.id ≠ v.id) :
      Effect D a { a with environments := a.environments ++ [v] }
  -- a root deployment and its run, in an environment where every deployment is finished
  | addDeployment (run : TaskRun) (d : Deployment) (hRunFresh : ∀ r ∈ a.runs, r.id ≠ run.id)
      (hFresh : D.deployments → ∀ e ∈ a.deployments, e.id ≠ d.id) (hBacks : d.taskRunID = some run.id)
      (hRun : run.status = .queued ∨ run.status = .waitingApproval) (hTask : ComposeTask d.id run)
      (hRoot : d.rollbackOfID = none)
      (hFree : ∀ e ∈ a.deployments, e.environmentID = d.environmentID →
        isTerminalDeploymentStatus e.status = true)
      (hStatus : D.deployments → d.status = .queued ∨ d.status = .waitingConfirmation) :
      Effect D a { a with runs := run :: a.runs, deployments := a.deployments ++ [d] }
  | confirm (d d' : Deployment) (deployments : List Deployment) (r r' : TaskRun) (runs : List TaskRun)
      (hd : Replaces d d' a.deployments deployments) (hWaiting : d.status = .waitingConfirmation)
      (hBacks : d.taskRunID = some r.id) (confirmedBy : String) (now : Time)
      (hd' : d' = { d with status := .assigned, confirmedBy := some confirmedBy, updatedAt := now })
      (hr : Replaces r r' a.runs runs)
      (hr' : r' = r ∨ (r.status = .waitingApproval ∧ r' = { r with status := .queued })) :
      Effect D a { a with deployments := deployments, runs := runs }
  | failUnassigned (d d' : Deployment) (deployments : List Deployment) (r : TaskRun) (runs : List TaskRun)
      (now : Time) (failureCode : String) (hd : Replaces d d' a.deployments deployments)
      (hStatus : d.status = .queued ∨ d.status = .waitingConfirmation) (hBacks : d.taskRunID = some r.id)
      (hd' : d' = { d with
        status := .failed, failureCode := failureCode, updatedAt := now, finishedAt := some now })
      (hr : Replaces r (failedRun now r) a.runs runs)
      (hRun : r.status = .queued ∨ r.status = .waitingApproval) :
      Effect D a { a with deployments := deployments, runs := runs }
  -- an accepted transition to a status that is not final
  | advance (request : DeploymentTransitionRequest) (d : Deployment) (deployments : List Deployment)
      (now : Time) (hd : Replaces d (transitioned request now d) a.deployments deployments)
      (hID : d.id = request.deploymentID) (hBacks : d.taskRunID = some request.runID)
      (hStatus : d.status = request.expectedStatus)
      (hAllowed : deploymentRoleTransitionAllowed d.rollbackOfID.isSome d.status request.targetStatus = true)
      (hOpen : deploymentTerminalOutcome request.targetStatus = none) (hRecords : D.transitions request)
      (hNew : a.deploymentTransitions.lookup
        (transitionRecordKey request.deploymentID request.transitionKey) = none) :
      Effect D a { a with
        deployments := deployments
        deploymentTransitions := a.deploymentTransitions.insert
          (transitionRecordKey request.deploymentID request.transitionKey) request }
  -- an accepted transition to a final status, with the root that a rollback child settles
  | finish (request : DeploymentTransitionRequest) (d : Deployment) (middle deployments : List Deployment)
      (l : RunLease) (leases : List RunLease) (r : TaskRun) (runs : List TaskRun)
      (t : DeploymentAttempt) (attempts : List DeploymentAttempt) (now : Time)
      (attemptStatus : AttemptStatus) (leaseStatus : LeaseStatus) (runStatus : RunStatus)
      (hMiddle : middle = match d.rollbackOfID with
        | some rootID =>
          if request.targetStatus == .rolledBack || request.targetStatus == .rollbackFailed then
            updateFirst (rollingBackRoot rootID) (settledRoot request.targetStatus now) a.deployments
          else a.deployments
        | none => a.deployments)
      (hFound : a.deployments.find? (deploymentIs request.deploymentID) = some d)
      (hDeployments : deployments = updateFirst (deploymentIs request.deploymentID)
        (fun _ => transitioned request now d) middle)
      (hID : d.id = request.deploymentID) (hBacks : d.taskRunID = some request.runID)
      (hStatus : d.status = request.expectedStatus)
      (hAllowed : deploymentRoleTransitionAllowed d.rollbackOfID.isSome d.status request.targetStatus = true)
      (hHealth : certifiesHealth request.targetStatus d.rollbackOfID.isSome = true →
        request.healthPassed = some true)
      (hOutcome : deploymentTerminalOutcome request.targetStatus = some (attemptStatus, leaseStatus, runStatus))
      (hRecords : D.transitions request)
      (hNew : a.deploymentTransitions.lookup
        (transitionRecordKey request.deploymentID request.transitionKey) = none)
      (hHeld : Held request.deploymentID request.runID request.leaseID request.runnerID request.attempt
        request.fence l t r)
      (hl : Replaces l (endedLease leaseStatus now l) a.leases leases)
      (hr : Replaces r (endedRun runStatus now r) a.runs runs)
      (ht : Replaces t (endedAttempt attemptStatus now t) a.deploymentAttempts attempts)
      (hFirst : a.deploymentAttempts.find? (attemptNamed request.deploymentID request.runID request.leaseID
        request.runnerID request.attempt request.fence) = some t) :
      Effect D a { a with
        leases := leases
        runs := runs
        deploymentAttempts := attempts
        environments :=
          if certifiesHealth request.targetStatus d.rollbackOfID.isSome then
            updateAll (fun e => e.id == d.environmentID)
              (fun e => { e with currentHealthyRevisionID := some d.desiredRevisionID }) a.environments
          else a.environments
        deployments := deployments
        deploymentTransitions := a.deploymentTransitions.insert
          (transitionRecordKey request.deploymentID request.transitionKey) request }
  | cancelNow (req : DeploymentCancelRequest) (d : Deployment) (deployments : List Deployment) (r : TaskRun)
      (runs : List TaskRun) (now : Time)
      (hd : Replaces d { d with status := .canceled, updatedAt := now, finishedAt := some now }
        a.deployments deployments)
      (hID : d.id = req.deploymentID) (hRoot : d.rollbackOfID = none) (hStatus : beforeApply d.status = true)
      (hBacks : d.taskRunID = some r.id) (hr : Replaces r (canceledRun now r) a.runs runs)
      (hNew : a.deploymentCancels.lookup (cancelRecordKey req.deploymentID req.requestID) = none) :
      Effect D a { a with
        deployments := deployments
        runs := runs
        leases := updateAll (activeLeaseOf r.id) (canceledLease now) a.leases
        deploymentAttempts := updateAll (fun t => t.deploymentID == d.id && t.status == .active)
          (endedAttempt .canceled now) a.deploymentAttempts
        deploymentCancels := a.deploymentCancels.insert
          (cancelRecordKey req.deploymentID req.requestID) req }
  | cancelLater (req : DeploymentCancelRequest) (d : Deployment) (deployments : List Deployment) (now : Time)
      (hd : Replaces d { d with status := .cancelRequested, updatedAt := now } a.deployments deployments)
      (hID : d.id = req.deploymentID) (hRoot : d.rollbackOfID = none)
      (hStatus : d.status = .applying ∨ d.status = .verifying)
      (hNew : a.deploymentCancels.lookup (cancelRecordKey req.deploymentID req.requestID) = none) :
      Effect D a { a with
        deployments := deployments
        deploymentCancels := a.deploymentCancels.insert
          (cancelRecordKey req.deploymentID req.requestID) req }
  -- a failed deployment is left to an operator; or the failure stops after the source has been
  -- settled, because the service has no project
  | failSource (req : DeploymentFailureRollbackRequest) (target : DeploymentStatus) (d : Deployment)
      (deployments : List Deployment) (l : RunLease) (leases : List RunLease) (r : TaskRun)
      (runs : List TaskRun) (t : DeploymentAttempt) (attempts : List DeploymentAttempt) (e : Environment)
      (now : Time) (hd : Replaces d (failedSource req target now d) a.deployments deployments)
      (hID : d.id = req.deploymentID) (hBacks : d.taskRunID = some req.runID)
      (hStatus : failureStatus d.status = true) (he : e ∈ a.environments) (hEnv : e.id = d.environmentID)
      (hHeld : Held req.deploymentID req.runID req.leaseID req.runnerID req.attempt req.fence l t r)
      (hl : Replaces l (endedLease .failed now l) a.leases leases)
      (hr : Replaces r (endedRun .failed now r) a.runs runs)
      (ht : Replaces t (endedAttempt .failed now t) a.deploymentAttempts attempts)
      (hCause : (target = .manualIntervention ∧ rollbackUnsafe d e = true) ∨
        (target = .rollingBack ∧ rollbackUnsafe d e = false ∧
          ∀ v, a.services.find? (fun service => service.id == e.serviceID) = some v → v.projectID = ""))
      (hRecords : target = .manualIntervention → D.transitions (failureTransition req target)) :
      Effect D a { a with
        deployments := deployments
        leases := leases
        runs := runs
        deploymentAttempts := attempts
        deploymentTransitions := a.deploymentTransitions.insert
          (transitionRecordKey d.id (failureTransitionKey req.requestID)) (failureTransition req target) }
  -- a failed deployment starts to roll back, with a rollback child and its run
  | rollBack (req : DeploymentFailureRollbackRequest) (previous : String) (d : Deployment)
      (deployments : List Deployment) (l : RunLease) (leases : List RunLease) (r : TaskRun)
      (runs : List TaskRun) (t : DeploymentAttempt) (attempts : List DeploymentAttempt) (e : Environment)
      (run : TaskRun) (now : Time) (hd : Replaces d (failedSource req .rollingBack now d) a.deployments deployments)
      (hID : d.id = req.deploymentID) (hBacks : d.taskRunID = some req.runID)
      (hStatus : failureStatus d.status = true) (he : e ∈ a.environments) (hEnv : e.id = d.environmentID)
      (hHeld : Held req.deploymentID req.runID req.leaseID req.runnerID req.attempt req.fence l t r)
      (hl : Replaces l (endedLease .failed now l) a.leases leases)
      (hr : Replaces r (endedRun .failed now r) a.runs runs)
      (ht : Replaces t (endedAttempt .failed now t) a.deploymentAttempts attempts)
      (hSafe : rollbackUnsafe d e = false) (hPrevious : d.previousHealthyRevisionID = some previous)
      (hAlone : ∀ o ∈ a.deployments, otherOpen d o = false)
      (hKeyFresh : ∀ o ∈ a.deployments, o.idempotencyKey ≠ rollbackKey req.deploymentID req.requestID)
      (hIDFresh : D.deployments →
        ∀ o ∈ a.deployments, o.id ≠ (rollbackObjectIDs req.deploymentID req.requestID).1)
      (hRunFresh : ∀ o ∈ a.runs, o.id ≠ (rollbackObjectIDs req.deploymentID req.requestID).2)
      (hRunID : run.id = (rollbackObjectIDs req.deploymentID req.requestID).2)
      (hRun : run.status = .queued)
      (hTask : ComposeTask (rollbackObjectIDs req.deploymentID req.requestID).1 run)
      (hRecords : D.transitions (failureTransition req .rollingBack)) :
      Effect D a { a with
        deployments := deployments ++ [rollbackDeployment req d previous now]
        leases := leases
        runs := run :: runs
        deploymentAttempts := attempts
        deploymentTransitions := a.deploymentTransitions.insert
          (transitionRecordKey d.id (failureTransitionKey req.requestID)) (failureTransition req .rollingBack) }

def Effects (D : Discipline) : Authority → Authority → Prop := Relation.ReflTransGen (Effect D)

theorem Effects.keeps {D : Discipline} {a a' : Authority} (h : Effects D a a') (I : Authority → Prop)
    (hStep : ∀ b b', Effect D b b' → I b → I b') (ha : I a) : I a' := by
  induction h with
  | refl => exact ha
  | tail _ hEffect ih => exact hStep _ _ hEffect ih

end NeroCD.Store
