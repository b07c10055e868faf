import NeroCD.Store.Operations
import NeroCD.Workflows.Steps

-- The calls of the service on runs. The step states of a run that the store returns are those of the stored run: what
-- the service writes there it writes into the store.

namespace NeroCD.Workflows

open NeroCD.Checks NeroCD.Domain NeroCD.GoStrings NeroCD.Records NeroCD.Store

inductive ServiceError
  | invalidInput (message : String)
  | forbidden
  | store (e : StoreError)
  | plan (message : String)
  | randomSource
  deriving DecidableEq

abbrev Result (α : Type) : Type := Except ServiceError α × MemoryStore

-- A write into the step states of the run with the given ID, as the store returned it.
def writeSteps (runID : String) (steps : List WorkflowStepState) (s : MemoryStore) : MemoryStore :=
  { s with
    runs := updateFirst (fun run => run.id == runID)
      (fun run => { run with workflowState := { run.workflowState with steps := steps } }) s.runs }

structure RunRequest where
  projectID : String
  runSpec : RunSpec
  workflow : Workflow := {}
  runnerTags : List String := []
  requiresAck : Bool := false
  -- the user, and what the clock and the token generator answer
  principalID : String
  now : Time
  runID : String
  logID : String
  approvalID : String
  auditID : String

def requestedDefinition (registry : Registry) (input : RunRequest) : Except String (RunSpec × Workflow) := do
  validateGenericRunDefinition input.runSpec input.workflow
  refuse (trimSpace input.projectID == "") "project_id is required"
  let runSpec ← wrap "invalid run spec: " (normalizeRunSpecNode registry "" input.runSpec)
  registry.validateRunSpecPlans runSpec
  let workflow ← wrap "invalid workflow: " (normalizeWorkflowNodes registry input.workflow)
  wrap "invalid workflow: " (registry.validateWorkflowPlans workflow)
  return (runSpec, workflow)

def requestedRun (input : RunRequest) (runSpec : RunSpec) (workflow : Workflow) : TaskRun where
  id := input.runID
  projectID := trimSpace input.projectID
  runSpec := runSpec
  workflow := workflow
  workflowState := initialWorkflowState workflow
  runnerTags := (input.runnerTags.map trimSpace).filter (· != "")
  status := if input.requiresAck then .waitingApproval else .queued
  requestedBy := input.principalID
  startedAt := input.now

def requestLog (input : RunRequest) : RunLog where
  id := input.logID
  runID := input.runID
  sequence := 1
  stream := .system
  message := "Ad-hoc run requested"
  createdAt := input.now

def requestApproval (input : RunRequest) : Option Approval :=
  if input.requiresAck then
    some
      { id := input.approvalID, runID := input.runID, status := .pending, requestedBy := input.principalID,
        createdAt := input.now }
  else none

def requestAudit (input : RunRequest) (run : TaskRun) : AuditEvent where
  id := input.auditID
  actorID := input.principalID
  action := "run.request"
  targetID := input.runID
  metadata := auditMetadata none
    [("run_type", .text run.runSpec.type),
     ("status", .text (if input.requiresAck then "waiting_approval" else "queued"))]
  createdAt := input.now

-- `RequestRunWithSpec` without a template, for a user with the role it asks for.
def requestRunWithSpec (registry : Registry) (input : RunRequest) (s : MemoryStore) : Result TaskRun :=
  match requestedDefinition registry input with
  | .error e => (.error (.invalidInput e), s)
  | .ok (runSpec, workflow) =>
    let run := requestedRun input runSpec workflow
    let (result, s) := createRunRequest run (requestLog input) (requestApproval input) (requestAudit input run) s
    (result.mapError .store, s)

def typedClaimTypes : List String :=
  [runTypeComposeDeploy, "database_import_stage", "database_import", "storage_backup_retention",
   "database_backup_retention", "storage_backup_transfer", "database_backup_transfer", "database_backup",
   "storage_archive", hostingBuildTaskType, "proxy_apply", "image_deploy", "local_build_deploy_v1",
   "database_deploy"]

theorem requestedDefinition_ok {registry : Registry} {input : RunRequest} {runSpec : RunSpec} {workflow : Workflow}
    (h : requestedDefinition registry input = .ok (runSpec, workflow)) :
    runSpec.type ∉ typedClaimTypes ∧ Normalized workflow.steps := by
  simp only [requestedDefinition, bind_eq_ok, exists_unit, wrap_eq_ok, pure_eq_ok, Prod.mk.injEq] at h
  obtain ⟨hGeneric, -, runSpec, hSpec, -, workflow, hWorkflow, -, rfl, rfl⟩ := h
  obtain ⟨hType, hAdapter⟩ := normalizeRunSpecNode_type hSpec
  refine ⟨?_, normalizeWorkflowNodes_ok hWorkflow⟩
  unfold validateGenericRunDefinition at hGeneric
  split at hGeneric
  · cases hGeneric
  rename_i hInternal
  simp only [isInternal, isHostingExecution, ← hType, Bool.or_eq_true, not_or, List.contains_eq_mem,
    decide_eq_true_eq, beq_iff_eq] at hInternal
  -- the adapters that are left have no protocol of their own
  have hAll : ∀ type ∈ adapterTypes, type ∉ hostingRunTypes → type ≠ runTypeComposeDeploy →
      type ∉ typedClaimTypes := by decide
  exact hAll _ hAdapter hInternal.1.1.1.1.1.1 hInternal.2

structure ClaimRequest where
  runnerID : String
  ttl : Time
  -- what the clock and the token generator answer
  now : Time
  startedAt : Time
  claimedAt : Time
  leaseToken : Option String
  fenceToken : Option String
  auditID : Option String
  stepLogID : String
  claimLogID : String

def ClaimRequest.audit (input : ClaimRequest) (id : String) : AuditEvent where
  id := id
  actorID := input.runnerID
  action := "runner.claim"
  targetID := ""
  metadata := some ∅
  createdAt := input.now

structure Handout where
  claim : ClaimedRun
  executable : TaskRun

def stepLog (input : ClaimRequest) (run : TaskRun) (step : WorkflowStep) : RunLog where
  id := input.stepLogID
  runID := run.id
  sequence := 2
  stream := .system
  message := "Workflow step started: " ++ step.id
  createdAt := input.startedAt

-- `shared` says that the step states of the run are those of the stored run.
def markWorkflowStepRunning (input : ClaimRequest) (shared : Bool) (run : TaskRun) (s : MemoryStore) :
    Result TaskRun :=
  match nextWorkflowStepIndex run with
  | none => (.ok run, s)
  | some index =>
    match run.workflow.steps[index]? with
    | none => (.ok run, s)
    | some step =>
      let state := startedState run index step input.startedAt
      let s := if shared then writeSteps run.id state.steps s else s
      match updateRunWorkflowState run.id state s with
      | (.error e, s) => (.error (.store e), s)
      | (.ok updated, s) => (.ok updated, (createRunLog (stepLog input run step) s).2)

def claimLog (input : ClaimRequest) (claim : ClaimedRun) : RunLog where
  id := input.claimLogID
  runID := claim.run.id
  sequence := 2
  stream := .system
  message := "Run leased to runner " ++ claim.lease.runnerID
  createdAt := input.claimedAt

-- The part of `ClaimRun` after the store's claim, for a run of no typed execution.
def startClaim (registry : Registry) (input : ClaimRequest) (claim : ClaimedRun) (s : MemoryStore) :
    Result Handout :=
  if !(validateGenericRunDefinition claim.run.runSpec claim.run.workflow).isOk then (.error (.store .conflict), s)
  else
    let ensured := ensureWorkflowState claim.run
    let shared := claim.run.workflowState.steps.length == claim.run.workflow.steps.length
    match markWorkflowStepRunning input shared ensured s with
    | (.error e, s) => (.error e, s)
    | (.ok run, s) =>
      let executable := executableRunForWorkflowStep run
      match registry.buildPlan executable with
      | .error e => (.error (.plan e), s)
      | .ok plan =>
        let claim := { claim with run := run, primitivePlan := plan }
        (.ok { claim := claim, executable := executable }, (createRunLog (claimLog input claim) s).2)

-- `typed` answers for the runs of typed executions; it reads the store only.
def claimRun (registry : Registry) (typed : ClaimedRun → Except ServiceError ClaimedRun) (input : ClaimRequest)
    (s : MemoryStore) : Result Handout :=
  match input.auditID with
  | none => (.error .randomSource, s)
  | some auditID =>
    match Store.claimRun input.runnerID input.now input.ttl input.leaseToken input.fenceToken
        (some (input.audit auditID)) s with
    | (.error e, s) => (.error (.store e), s)
    | (.ok claim, s) =>
      if typedClaimTypes.contains claim.run.runSpec.type then
        ((typed claim).map (fun claim => { claim := claim, executable := claim.run }), s)
      else startClaim registry input claim s

structure CompleteRequest where
  leaseID : String
  runnerID : String
  status : String
  attempt : Int
  fence : String
  completionKey : Option String
  -- what the clock and the token generator answer
  now : Time
  logID : Option String
  nextLogID : Option String
  auditID : Option String

def completionOf (status : String) : Option Completion :=
  if status == "succeeded" then some .succeeded
  else if status == "failed" then some .failed
  else if status == "canceled" then some .canceled
  else none

def runByID (runID : String) (s : MemoryStore) : Except ServiceError TaskRun :=
  if trimSpace runID == "" then .error (.invalidInput "run_id is required")
  else
    match s.runs.find? (fun run => run.id == trimSpace runID) with
    | some run => .ok run
    | none => .error (.store .notFound)

structure CompletionTarget where
  status : Completion
  key : String
  lease : RunLease
  run : TaskRun

-- The checks of `CompleteLease` up to the replay. Downloads of backups, which other stores complete here,
-- are refused with the other hosting executions.
def completionTarget (input : CompleteRequest) (s : MemoryStore) : Except ServiceError CompletionTarget :=
  match completionOf (trimSpace input.status) with
  | none => .error (.invalidInput "lease completion status is invalid")
  | some status =>
    let key := trimSpace (input.completionKey.getD "")
    if key == "" then .error (.invalidInput "completion_key is required")
    else
      match s.leases.find? (leaseHeldAs (trimSpace input.leaseID) input.runnerID input.attempt input.fence) with
      | none => .error .forbidden
      | some lease =>
        if decide (input.attempt ≤ 0) || input.fence == "" then .error .forbidden
        else
          match runByID lease.runID s with
          | .error e => .error e
          | .ok run =>
            if run.runSpec.type == runTypeComposeDeploy || containsHostingExecution run.runSpec run.workflow then
              .error (.store .conflict)
            else .ok { status := status, key := key, lease := lease, run := run }

def completionLogs (input : CompleteRequest) (target : CompletionTarget) (logID nextLogID : String)
    (queueNext : Bool) : List RunLog :=
  let log (id message : String) : RunLog :=
    { id := id, runID := target.lease.runID, sequence := 3, stream := .system, message := message,
      createdAt := input.now }
  log logID ("Runner completed lease with status " ++ trimSpace input.status) ::
    (if queueNext then [log nextLogID "Workflow queued next step"] else [])

def completionAudit (input : CompleteRequest) (target : CompletionTarget) (id : String) : AuditEvent where
  id := id
  actorID := input.runnerID
  action := "runner.complete"
  targetID := target.lease.runID
  metadata := auditMetadata none
    [("lease_id", .text target.lease.id), ("status", .text (trimSpace input.status))]
  createdAt := input.now

-- The report is written into the step states before the store decides on it.
def reported (input : CompleteRequest) (target : CompletionTarget) (s : MemoryStore) : MemoryStore :=
  if hasCurrentStep target.run then
    writeSteps target.run.id (finishedSteps target.run.workflowState target.status input.now) s
  else s

def completeLease (input : CompleteRequest) (s : MemoryStore) : Result RunLease :=
  match completionTarget input s with
  | .error e => (.error e, s)
  | .ok target =>
    if target.lease.completionKey != "" then
      if target.lease.completionKey == target.key && target.lease.status == target.status.lease then
        (.ok target.lease, s)
      else (.error (.store .conflict), s)
    else
      let state := completionRunState target.run target.status input.now
      let s := reported input target s
      match input.logID, (if state.queueNext then input.nextLogID else some ""), input.auditID with
      | some logID, some nextLogID, some auditID =>
        let (result, s) := completeLeaseRequest (trimSpace input.leaseID) input.runnerID target.status.lease
          input.attempt input.fence target.key input.now state.runStatus state.finishedAt state.workflowState
          (completionLogs input target logID nextLogID state.queueNext) (completionAudit input target auditID) s
        (result.mapError .store, s)
      | _, _, _ => (.error .randomSource, s)

end NeroCD.Workflows
