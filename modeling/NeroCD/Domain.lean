import Mathlib.Data.Finmap
import NeroCD.GoStrings
import NeroCD.Digests

-- The records and rules of package domain that the run and deployment store works with.

namespace NeroCD.Domain

open NeroCD.GoStrings

-- `time.Time` and `time.Duration`, in nanoseconds.
abbrev Time := Int

-- A value of type `any`: a string, or the JSON text of something else.
inductive Value
  | text (value : String)
  | other (json : String)
  deriving DecidableEq

-- `map[string]any`. Equality is `reflect.DeepEqual` of two maps that are not nil.
abbrev Document := Finmap (fun _ : String => Value)

inductive DeploymentStatus
  | queued
  | waitingConfirmation
  | assigned
  | preparing
  | applying
  | verifying
  | succeeded
  | failed
  | canceled
  | cancelRequested
  | rollingBack
  | rolledBack
  | rollbackFailed
  | manualIntervention
  deriving DecidableEq

inductive RunStatus
  | queued
  | running
  | succeeded
  | failed
  | canceled
  | waitingApproval
  deriving DecidableEq

inductive LeaseStatus
  | active
  | expired
  | succeeded
  | failed
  | canceled
  deriving DecidableEq

inductive AttemptStatus
  | active
  | succeeded
  | failed
  | canceled
  deriving DecidableEq

inductive RunnerStatus
  | active
  | stale
  | revoked
  deriving DecidableEq

inductive ApprovalStatus
  | pending
  | approved
  | rejected
  deriving DecidableEq

inductive WorkflowStepStatus
  | pending
  | running
  | succeeded
  | failed
  | canceled
  deriving DecidableEq

inductive LogStream
  | system
  | stdout
  | stderr
  deriving DecidableEq

inductive ProvenanceState
  | unset
  | pending
  | resolved
  | legacyUnverified
  deriving DecidableEq

def isTerminalDeploymentStatus : DeploymentStatus → Bool
  | .succeeded | .failed | .canceled | .rolledBack | .rollbackFailed | .manualIntervention => true
  | _ => false

def isTerminalRunStatus : RunStatus → Bool
  | .succeeded | .failed | .canceled => true
  | _ => false

-- The table of `rootDeploymentTransitionAllowed`.
def rootDeploymentTransitions : DeploymentStatus → List DeploymentStatus
  | .queued => [.waitingConfirmation, .assigned, .failed, .canceled]
  | .waitingConfirmation => [.failed, .canceled]
  | .assigned => [.preparing, .failed, .canceled]
  | .preparing => [.applying, .failed, .canceled]
  | .applying => [.verifying, .cancelRequested]
  | .verifying => [.succeeded, .cancelRequested]
  | .cancelRequested => [.manualIntervention]
  | _ => []

def rootDeploymentTransitionAllowed (status target : DeploymentStatus) : Bool :=
  (rootDeploymentTransitions status).contains target

-- The table of `rollbackChildTransitionAllowed`.
def rollbackChildTransitions : DeploymentStatus → List DeploymentStatus
  | .queued => [.assigned]
  | .assigned => [.preparing]
  | .preparing => [.applying]
  | .applying => [.verifying]
  | .verifying => [.rolledBack, .rollbackFailed]
  | _ => []

def rollbackChildTransitionAllowed (status target : DeploymentStatus) : Bool :=
  (rollbackChildTransitions status).contains target

def deploymentRoleTransitionAllowed (isRollbackChild : Bool) (status target : DeploymentStatus) : Bool :=
  if isRollbackChild then rollbackChildTransitionAllowed status target
  else rootDeploymentTransitionAllowed status target

structure RepositoryRef where
  id : String
  url : String
  provider : String
  ref : String
  path : String
  deriving DecidableEq

structure ProcessSpec where
  command : List String
  workingDir : String
  environment : List (String × String)
  timeoutSeconds : Int
  deriving DecidableEq

structure ArtifactSpec where
  name : String
  path : String
  required : Bool
  retention : String
  deriving DecidableEq

structure SecretBinding where
  name : String
  provider : String
  reference : String
  target : String
  required : Bool
  version : String
  fingerprint : String
  redactEncodings : List String
  classification : String
  deriving DecidableEq

structure WorkflowStepOf (σ : Type) where
  id : String
  name : String
  runSpec : σ
  dependsOn : List String := []
  requiresAck : Bool := false

structure WorkflowOf (σ : Type) where
  steps : List (WorkflowStepOf σ) := []

-- A nested workflow is a pointer in the source; here it is a value, so no workflow contains itself.
structure RunSpec where
  hostingBuildID : String := ""
  proxyMode : String := ""
  proxyOperationID : String := ""
  hostingMode : String := ""
  hostingOperationID : String := ""
  type : String := ""
  inputs : Document := ∅
  repository : Option RepositoryRef := none
  process : Option ProcessSpec := none
  artifacts : List ArtifactSpec := []
  secrets : List SecretBinding := []
  workflow : Option (WorkflowOf RunSpec) := none

abbrev WorkflowStep := WorkflowStepOf RunSpec

abbrev Workflow := WorkflowOf RunSpec

structure WorkflowStepState where
  id : String
  name : String
  status : WorkflowStepStatus
  startedAt : Option Time := none
  finishedAt : Option Time := none
  deriving DecidableEq

structure WorkflowState where
  currentStepID : String := ""
  steps : List WorkflowStepState := []
  deriving DecidableEq

structure TaskRun where
  id : String
  projectID : String
  templateID : Option String := none
  runSpec : RunSpec
  workflow : Workflow := {}
  workflowState : WorkflowState := {}
  runnerTags : List String := []
  status : RunStatus
  runnerID : Option String := none
  requestedBy : String
  startedAt : Time
  finishedAt : Option Time := none

structure Runner where
  id : String
  name : String
  tags : List String
  capabilities : List String
  tokenHash : String
  status : RunnerStatus
  registeredAt : Time
  lastHeartbeatAt : Time
  deriving DecidableEq

structure RunLease where
  id : String
  runID : String
  runnerID : String
  status : LeaseStatus
  expiresAt : Time
  createdAt : Time
  completedAt : Option Time := none
  attempt : Int
  fence : String
  completionKey : String := ""
  deriving DecidableEq

structure RunLog where
  id : String
  runID : String
  sequence : Int
  stream : LogStream
  message : String
  createdAt : Time
  eventKey : String := ""
  leaseID : String := ""
  attempt : Int := 0
  requestedSequence : Int := 0
  component : String := ""
  sourceTimestamp : Option Time := none
  deriving DecidableEq

structure ArtifactRecord where
  id : String
  runID : String
  leaseID : String
  name : String
  path : String
  found : Bool
  required : Bool
  size : Int
  kind : String
  createdAt : Time
  deriving DecidableEq

structure CheckoutPlan where
  repository : RepositoryRef
  destPath : String
  deriving DecidableEq

structure RunnerPrimitivePlan where
  runID : String
  checkout : Option CheckoutPlan := none
  process : Option ProcessSpec := none
  artifacts : List ArtifactSpec := []
  secrets : List SecretBinding := []
  deriving DecidableEq

structure ClaimedRun where
  lease : RunLease
  run : TaskRun
  primitivePlan : RunnerPrimitivePlan

structure Approval where
  id : String
  runID : String
  status : ApprovalStatus
  requestedBy : String
  approvedBy : Option String := none
  createdAt : Time
  approvedAt : Option Time := none
  deriving DecidableEq

structure AuditEvent where
  id : String
  actorID : String
  action : String
  targetID : String
  metadata : Option Document := none
  createdAt : Time

structure Service where
  id : String
  projectID : String
  name : String
  repositoryID : String
  composePath : String
  profiles : List String
  ownerID : String
  createdAt : Time
  deriving DecidableEq

-- Without its health policy and the fields that only a plan copies.
structure Environment where
  id : String
  serviceID : String
  name : String
  rollbackSafe : Bool
  currentHealthyRevisionID : Option String := none
  createdAt : Time
  deriving DecidableEq

structure Revision where
  id : String
  serviceID : String
  requestedRef : String
  gitCommit : String := ""
  composeHash : String := ""
  imageDigests : List String := []
  contentIdentity : String := ""
  createdBy : String
  createdAt : Time
  provenanceResolved : Bool := false
  provenanceState : ProvenanceState := .unset
  resolvedAt : Option Time := none
  deriving DecidableEq

structure Deployment where
  id : String
  environmentID : String
  desiredRevisionID : String
  previousHealthyRevisionID : Option String := none
  taskRunID : Option String := none
  idempotencyKey : String
  status : DeploymentStatus
  requestedBy : String
  confirmedBy : Option String := none
  createdAt : Time
  updatedAt : Time
  finishedAt : Option Time := none
  healthPassed : Option Bool := none
  rollbackOfID : Option String := none
  failureCode : String := ""
  fenceRequired : Bool := false
  deriving DecidableEq

structure DeploymentAttempt where
  deploymentID : String
  runID : String
  leaseID : String
  runnerID : String
  attempt : Int
  fence : String
  status : AttemptStatus
  createdAt : Time
  finishedAt : Option Time := none
  deriving DecidableEq

structure DeploymentTransitionRequest where
  deploymentID : String
  runID : String
  leaseID : String
  runnerID : String
  attempt : Int
  fence : String
  transitionKey : String
  expectedStatus : DeploymentStatus
  targetStatus : DeploymentStatus
  healthPassed : Option Bool := none
  failureCode : String
  metadata : Option Document := none
  deriving DecidableEq

structure DeploymentFailureRollbackRequest where
  deploymentID : String
  runID : String
  leaseID : String
  runnerID : String
  attempt : Int
  fence : String
  requestID : String
  expectedStatus : DeploymentStatus
  cancellationRequestID : String := ""
  failureCode : String
  metadata : Option Document := none
  deriving DecidableEq

-- A rollback deployment that the source leaves as a zero value is absent here.
structure DeploymentFailureRollbackResult where
  failed : Deployment
  rollback : Option Deployment := none
  deriving DecidableEq

structure DeploymentCancelRequest where
  deploymentID : String
  requestID : String
  actorID : String
  deriving DecidableEq

structure SecretAccessRequest where
  accessID : String
  runnerID : String
  runID : String
  leaseID : String
  attempt : Int
  fence : String
  binding : String
  provider : String
  version : String
  requestedAt : Time
  deriving DecidableEq

structure SecretAccessGrant where
  accessID : String
  runID : String
  leaseID : String
  attempt : Int
  binding : String
  provider : String
  version : String
  authorizedAt : Time
  deriving DecidableEq

def nul : String := "\x00"

theorem append_cons_inj {α : Type} {separator : α} {a b c d : List α} (ha : separator ∉ a)
    (hc : separator ∉ c) (h : a ++ separator :: b = c ++ separator :: d) : a = c ∧ b = d := by
  induction a generalizing c with
  | nil =>
    cases c with
    | nil => exact ⟨rfl, (List.cons.inj h).2⟩
    | cons _ _ => exact absurd ((List.cons.inj h).1 ▸ List.mem_cons_self) hc
  | cons _ _ ih =>
    cases c with
    | nil => exact absurd ((List.cons.inj h).1 ▸ List.mem_cons_self) ha
    | cons _ _ =>
      obtain ⟨hHead, hTail⟩ := List.cons.inj h
      obtain ⟨hRest, hEnd⟩ := ih (fun hx => ha (List.mem_cons_of_mem _ hx))
        (fun hx => hc (List.mem_cons_of_mem _ hx)) hTail
      exact ⟨by rw [hHead, hRest], hEnd⟩

theorem append_nul_inj {a b c d : String} (ha : '\x00' ∉ a.toList) (hc : '\x00' ∉ c.toList)
    (h : a ++ nul ++ b = c ++ nul ++ d) : a = c ∧ b = d := by
  have hChars := congrArg String.toList h
  rw [String.toList_append, String.toList_append, String.toList_append, String.toList_append,
    List.append_assoc, List.append_assoc] at hChars
  obtain ⟨hFirst, hSecond⟩ := append_cons_inj ha hc hChars
  exact ⟨String.toList_injective hFirst, String.toList_injective hSecond⟩

def rollbackObjectIDs (deploymentID requestID : String) : String × String :=
  let sum := Sha256.sum256 (deploymentID ++ nul ++ requestID).toUTF8.toList
  let value := Sha256.hex (sum.take 16)
  ("dep_rollback_" ++ value, "run_rollback_" ++ value)

def runTypeComposeDeploy : String := "compose-deploy"
def hostingBuildTaskType : String := "hosting_build_v1"

-- The run types that `isHostingExecution` compares the trimmed type with.
def hostingRunTypes : List String :=
  ["database_import_stage", "database_import", "database_backup_retention",
   "database_backup_transfer", "database_backup", "database_network_capture", "storage_archive",
   hostingBuildTaskType, "local_build_deploy_v1", "image_deploy", "database_deploy", "proxy_apply"]

def isHostingExecution (spec : RunSpec) : Bool :=
  hostingRunTypes.contains (trimSpace spec.type) || spec.hostingBuildID != "" ||
    spec.hostingOperationID != "" || spec.hostingMode != "" || spec.proxyOperationID != "" ||
    spec.proxyMode != ""

-- The source walks the workflows with a stack; only whether there is such a spec matters.
mutual

def RunSpec.any (p : RunSpec → Bool) : RunSpec → Bool
  | .mk hb pm po hm ho ty is re pr ar se w =>
    p (.mk hb pm po hm ho ty is re pr ar se w) || anyNested p w

def anyNested (p : RunSpec → Bool) : Option (WorkflowOf RunSpec) → Bool
  | none => false
  | some w => anyWorkflow p w

def anyWorkflow (p : RunSpec → Bool) : WorkflowOf RunSpec → Bool
  | .mk steps => anySteps p steps

def anySteps (p : RunSpec → Bool) : List (WorkflowStepOf RunSpec) → Bool
  | [] => false
  | step :: rest => anyStep p step || anySteps p rest

def anyStep (p : RunSpec → Bool) : WorkflowStepOf RunSpec → Bool
  | .mk _ _ spec _ _ => spec.any p

end

def containsHostingExecution (spec : RunSpec) (workflow : Workflow) : Bool :=
  spec.any isHostingExecution || anyWorkflow isHostingExecution workflow

def isHostingBuild (spec : RunSpec) : Bool :=
  trimSpace spec.type == hostingBuildTaskType || spec.hostingBuildID != ""

def containsHostingBuildExecution (spec : RunSpec) (workflow : Workflow) : Bool :=
  spec.any isHostingBuild || anyWorkflow isHostingBuild workflow

def maxWorkflowSteps : Nat := 1024
def maxWorkflowDepth : Nat := 16

-- `internal` of `validateGenericRunDefinition`.
def isInternal (spec : RunSpec) : Bool :=
  isHostingExecution spec || trimSpace spec.type == runTypeComposeDeploy

-- The steps of one workflow: the first refusal, or the nested workflows, the last one first.
def genericSteps (depth : Nat) (pending : List (Workflow × Nat)) :
    List WorkflowStep → Except String (List (Workflow × Nat))
  | [] => .ok pending
  | step :: rest =>
    if step.requiresAck then
      .error "step requires_ack is unsupported; use run or template requires_ack"
    else if isInternal step.runSpec then .error "deployment execution tasks are internal-only"
    else
      match step.runSpec.workflow with
      | none => genericSteps depth pending rest
      | some w => genericSteps depth ((w, depth + 1) :: pending) rest

-- A workflow is pushed for a step that was counted, so the fuel of `validateGenericRunDefinition` never runs out.
def genericFrames : Nat → List (Workflow × Nat) → Nat → Except String Unit
  | 0, _, _ => .error "workflow step count exceeds limit"
  | _ + 1, [], _ => .ok ()
  | fuel + 1, (w, depth) :: pending, total =>
    if depth > maxWorkflowDepth then .error "workflow nesting exceeds limit"
    else if w.steps.length > maxWorkflowSteps - total then .error "workflow step count exceeds limit"
    else
      match genericSteps depth pending w.steps with
      | .error e => .error e
      | .ok pending => genericFrames fuel pending (total + w.steps.length)

def validateGenericRunDefinition (spec : RunSpec) (workflow : Workflow) : Except String Unit :=
  if isInternal spec then .error "deployment execution tasks are internal-only"
  else
    genericFrames (maxWorkflowSteps + 3)
      ((spec.workflow.toList.map (fun w => (w, 1))) ++ [(workflow, 1)]) 0

def composeInputs : List String :=
  ["deployment_id", "environment_id", "desired_revision_id", "rollback_of_id"]

def validComposeInput : Value → Bool
  | .text text => text.utf8ByteSize ≤ 128 && trimSpace text == text
  | .other _ => false

-- When both of the last two errors are due, the order of a map decides which one the source returns.
def validateComposeDeploymentTask (run : TaskRun) : Except String Unit :=
  let spec := run.runSpec
  match spec.inputs.lookup "deployment_id" with
  | some (.text id) =>
    if spec.type != runTypeComposeDeploy || id == "" || id.utf8ByteSize > 128 || trimSpace id != id ||
        spec.process.isSome || spec.repository.isSome || spec.workflow.isSome ||
        spec.artifacts.length != 0 || run.workflow.steps.length != 0 || isHostingExecution spec then
      .error "invalid internal compose deployment task"
    else if ∃ key ∈ spec.inputs.keys, !composeInputs.contains key then
      .error "generic inputs are not permitted on compose deployment tasks"
    else if ∃ key ∈ spec.inputs.keys, (spec.inputs.lookup key).map validComposeInput ≠ some true then
      .error "invalid compose deployment input"
    else .ok ()
  | _ => .error "invalid internal compose deployment task"

end NeroCD.Domain
