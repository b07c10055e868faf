import NeroCD.Domain
import NeroCD.Records

-- The in-memory store. An operation is a function of the state to its answer and the state it leaves; the mutex makes
-- it one step. `now` is an argument where the source reads the clock.

namespace NeroCD.Store

open NeroCD.Domain NeroCD.GoStrings NeroCD.Records

-- A map with string keys.
abbrev GoMap (α : Type) := Finmap (fun _ : String => α)

inductive ProvenanceConflictClass
  | commitMismatch
  | composeHashMismatch
  | imageMismatch
  | replayKey
  deriving DecidableEq

-- `randomSource` is the failure of the generator of lease tokens. A provenance conflict is also an
-- `ErrConflict`.
inductive StoreError
  | notFound
  | conflict
  | provenanceConflict (reason : ProvenanceConflictClass)
  | randomSource
  deriving DecidableEq

structure ClaimCursor where
  claimOrderAt : Time
  runID : String
  deriving DecidableEq

structure ProvenanceReplay where
  deploymentID : String
  resolutionID : String
  runID : String
  leaseID : String
  runnerID : String
  fence : String
  attempt : Int
  commit : String
  hash : String
  digests : List String
  revision : Revision
  deriving DecidableEq

structure MemoryStore where
  runs : List TaskRun := []
  runners : List Runner := []
  leases : List RunLease := []
  claimCursors : GoMap ClaimCursor := ∅
  claimOrderByRun : GoMap Time := ∅
  nextAttemptByRun : GoMap Int := ∅
  logs : List RunLog := []
  artifacts : List ArtifactRecord := []
  approvals : List Approval := []
  auditEvents : List AuditEvent := []
  services : List Service := []
  environments : List Environment := []
  revisions : List Revision := []
  deployments : List Deployment := []
  deploymentAttempts : List DeploymentAttempt := []
  deploymentTransitions : GoMap DeploymentTransitionRequest := ∅
  deploymentCancels : GoMap DeploymentCancelRequest := ∅
  provenanceReplays : GoMap ProvenanceReplay := ∅

def newMemoryStore : MemoryStore := {}

abbrev Outcome (α : Type) := Except StoreError α × MemoryStore

-- `auditMetadata`: the caller's metadata, overwritten by the facts of the store.
def auditMetadata (metadata : Option Document) (authoritative : List (String × Value)) : Option Document :=
  some (authoritative.foldl (fun result e => result.insert e.1 e.2) (metadata.getD ∅))

namespace MemoryStore

def auditIDAvailableLocked (s : MemoryStore) (id : String) : Bool :=
  id == "" || !s.auditEvents.any (fun event => event.id == id)

-- `audit != nil && !s.auditIDAvailableLocked(audit.ID)`.
def auditTaken (s : MemoryStore) (audit : Option AuditEvent) : Bool :=
  match audit with
  | none => false
  | some audit => !s.auditIDAvailableLocked audit.id

def hostingRunLocked (s : MemoryStore) (id : String) : Bool :=
  s.runs.any (fun run => run.id == id && containsHostingExecution run.runSpec run.workflow)

def internalHostingRunLocked (s : MemoryStore) (id : String) : Bool :=
  match s.runs.find? (fun run => run.id == id) with
  | some run => containsHostingExecution run.runSpec run.workflow
  | none => false

def buildLogRunLocked (s : MemoryStore) (id : String) : Bool :=
  match s.runs.find? (fun run => run.id == id) with
  | some run => containsHostingBuildExecution run.runSpec run.workflow
  | none => false

def deploymentBackedRunLocked (s : MemoryStore) (runID : String) : Bool :=
  s.deployments.any (fun deployment => deployment.taskRunID == some runID)

def pushAudit (s : MemoryStore) (audit : AuditEvent) : MemoryStore :=
  { s with auditEvents := audit :: s.auditEvents }

def appendAudit (s : MemoryStore) (audit : AuditEvent) : MemoryStore :=
  { s with auditEvents := s.auditEvents ++ [audit] }

-- `if audit != nil { push }`.
def pushOptionalAudit (s : MemoryStore) (audit : Option AuditEvent) : MemoryStore :=
  match audit with
  | none => s
  | some audit => s.pushAudit audit

-- `if audit != nil && audit.ID != ""`, with the target and the facts the store adds.
def appendTargetedAudit (s : MemoryStore) (audit : Option AuditEvent) (targetID : String)
    (facts : List (String × Value)) : MemoryStore :=
  match audit with
  | none => s
  | some audit =>
    if audit.id == "" then s
    else s.appendAudit { audit with targetID := targetID, metadata := auditMetadata audit.metadata facts }

end MemoryStore

def leaseNamed (leaseID runID runnerID : String) (attempt : Int) (fence : String) (lease : RunLease) : Bool :=
  lease.id == leaseID && lease.runID == runID && lease.runnerID == runnerID &&
    lease.attempt == attempt && lease.fence == fence

def leaseHeldAs (leaseID runnerID : String) (attempt : Int) (fence : String) (lease : RunLease) : Bool :=
  lease.id == leaseID && lease.runnerID == runnerID && lease.attempt == attempt && lease.fence == fence

-- `lease.Status == LeaseActive && lease.ExpiresAt.After(now)`.
def leaseLive (now : Time) (lease : RunLease) : Bool :=
  lease.status == .active && decide (now < lease.expiresAt)

def attemptNamed (deploymentID runID leaseID runnerID : String) (attempt : Int) (fence : String)
    (a : DeploymentAttempt) : Bool :=
  a.deploymentID == deploymentID && a.runID == runID && a.leaseID == leaseID &&
    a.runnerID == runnerID && a.attempt == attempt && a.fence == fence

def covers (values required : List String) : Bool := required.all (fun item => values.contains item)

-- The status map that the workflow functions build; a later state overwrites an earlier one.
def statusByID (steps : List WorkflowStepState) (id : String) : Option WorkflowStepStatus :=
  (steps.reverse.find? (fun step => step.id == id)).map (fun step => step.status)

def stepReady (state : WorkflowState) (step : WorkflowStep) : Bool :=
  (statusByID state.steps step.id).getD .pending == .pending &&
    step.dependsOn.all (fun dependency => statusByID state.steps dependency == some .succeeded)

def claimRunType (run : TaskRun) : String :=
  match run.workflow.steps.find? (stepReady run.workflowState) with
  | some step => step.runSpec.type
  | none => run.runSpec.type

def primitivePlanForRun (run : TaskRun) : RunnerPrimitivePlan :=
  if run.runSpec.type == runTypeComposeDeploy then { runID := run.id }
  else
    { runID := run.id
      process := run.runSpec.process
      artifacts := run.runSpec.artifacts
      secrets := run.runSpec.secrets
      checkout := run.runSpec.repository.map (fun repository =>
        { repository := repository
          destPath := if repository.path == "" then "workspace" else repository.path }) }

end NeroCD.Store
