import NeroCD.Store.Leases
import NeroCD.Workflows.Normalize

-- The state of a workflow run: which step is handed out next, and what a completion makes of the run.

namespace NeroCD.Workflows

open NeroCD.Domain NeroCD.GoStrings NeroCD.Store

def initialWorkflowState (workflow : Workflow) : WorkflowState :=
  { steps := workflow.steps.map (fun step => { id := step.id, name := step.name, status := .pending }) }

def ensureWorkflowState (run : TaskRun) : TaskRun :=
  if run.workflow.steps.length == 0 then run
  else if run.workflowState.steps.length == run.workflow.steps.length then run
  else { run with workflowState := initialWorkflowState run.workflow }

def nextWorkflowStepIndex (run : TaskRun) : Option Nat :=
  run.workflow.steps.findIdx? (stepReady run.workflowState)

def startedStep (startedAt : Time) (state : WorkflowStepState) : WorkflowStepState :=
  { state with status := .running, startedAt := some startedAt, finishedAt := none }

def startedState (run : TaskRun) (index : Nat) (step : WorkflowStep) (startedAt : Time) : WorkflowState where
  currentStepID := step.id
  steps := run.workflowState.steps.modify index (startedStep startedAt)

def executableRunForWorkflowStep (run : TaskRun) : TaskRun :=
  if run.workflow.steps.length == 0 || trimSpace run.workflowState.currentStepID == "" then run
  else
    match run.workflow.steps.find? (fun step => step.id == run.workflowState.currentStepID) with
    | some step => { run with runSpec := step.runSpec, workflow := {} }
    | none => run

inductive Completion
  | succeeded
  | failed
  | canceled
  deriving DecidableEq

def Completion.step : Completion → WorkflowStepStatus
  | .succeeded => .succeeded
  | .failed => .failed
  | .canceled => .canceled

def Completion.run : Completion → RunStatus
  | .succeeded => .succeeded
  | .failed => .failed
  | .canceled => .canceled

def Completion.lease : Completion → LeaseStatus
  | .succeeded => .succeeded
  | .failed => .failed
  | .canceled => .canceled

def finishedSteps (state : WorkflowState) (status : Completion) (completedAt : Time) : List WorkflowStepState :=
  Records.updateFirst (fun step => step.id == state.currentStepID)
    (fun step => { step with status := status.step, finishedAt := some completedAt }) state.steps

def hasCurrentStep (run : TaskRun) : Bool :=
  !(run.workflow.steps.length == 0 || trimSpace run.workflowState.currentStepID == "")

structure CompletionState where
  runStatus : RunStatus
  finishedAt : Option Time
  workflowState : Option WorkflowState
  queueNext : Bool

def completionRunState (run : TaskRun) (status : Completion) (completedAt : Time) : CompletionState :=
  if !hasCurrentStep run then
    { runStatus := status.run, finishedAt := some completedAt, workflowState := none, queueNext := false }
  else
    let workflowState : WorkflowState :=
      { currentStepID := "", steps := finishedSteps run.workflowState status completedAt }
    if status == .succeeded && (nextWorkflowStepIndex { run with workflowState := workflowState }).isSome then
      { runStatus := .queued, finishedAt := none, workflowState := some workflowState, queueNext := true }
    else
      { runStatus := status.run, finishedAt := some completedAt, workflowState := some workflowState,
        queueNext := false }

end NeroCD.Workflows
