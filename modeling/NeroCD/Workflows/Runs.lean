import NeroCD.Store.Claims
import NeroCD.Store.Exclusivity
import NeroCD.Workflows.Progress
import NeroCD.Workflows.Service

-- Sequences of calls of the service, with the history of what they did to the runs.

namespace NeroCD.Workflows

open NeroCD.Checks NeroCD.Domain NeroCD.GoStrings NeroCD.Records NeroCD.Store

structure System where
  registry : Registry
  typed : ClaimedRun → Except ServiceError ClaimedRun

inductive Call
  | request (input : RunRequest)
  | claim (input : ClaimRequest)
  | complete (input : CompleteRequest)
  | operate (op : Operation)

-- The operations of the store that other calls come down to: all but those of the calls above and of
-- deployments.
def Around : Operation → Prop
  | .createRun _ | .createRunRequest _ _ _ _ | .updateRunStatus _ _ _ _ | .updateRunWorkflowState _ _
  | .createApproval _ | .claimRun _ _ _ _ _ _ | .completeLeaseRequest _ _ _ _ _ _ _ _ _ _ _ _ => False
  | .createDeploymentRequest _ _ _ | .confirmDeployment _ _ _ _ | .failPreAssignmentDeployment _ _ _ _
  | .transitionDeploymentAttempt _ _ _ | .cancelDeploymentRequest _ _ _
  | .failDeploymentAndCreateRollback _ _ _ _ => False
  | _ => True

def System.step (sys : System) (call : Call) (s : MemoryStore) : MemoryStore :=
  match call with
  | .request input => (requestRunWithSpec sys.registry input s).2
  | .claim input => (claimRun sys.registry sys.typed input s).2
  | .complete input => (completeLease input s).2
  | .operate op => (perform op s).2

-- The IDs that the token generator makes up are new; run IDs have no space around them.
def Call.Admitted (s : MemoryStore) : Call → Prop
  | .request input => trimSpace input.runID = input.runID ∧ ∀ r ∈ s.runs, r.id ≠ input.runID
  | .claim input => ∀ l ∈ s.leases, input.leaseToken ≠ some l.id ∧ input.fenceToken ≠ some l.fence
  | .complete _ => True
  | .operate op => Around op

-- The started steps and accepted completions with their runs, the last one first, and the runs of expired leases.
structure History where
  started : List (String × String) := []
  completed : List (String × Completion) := []
  expired : List String := []

def entriesOf {α : Type} (runID : String) (entries : List (String × α)) : List α :=
  (entries.filter (fun entry => entry.1 == runID)).map Prod.snd

def History.startedOf (h : History) (runID : String) : List String := entriesOf runID h.started

def History.completionsOf (h : History) (runID : String) : List Completion := entriesOf runID h.completed

def nextStep (run : TaskRun) : Option (Nat × WorkflowStep) :=
  (nextWorkflowStepIndex run).bind (fun index => run.workflow.steps[index]?.map (fun step => (index, step)))

def startedRun (startedAt : Time) (run : TaskRun) : TaskRun :=
  match nextStep run with
  | none => run
  | some (index, step) => { run with workflowState := startedState run index step startedAt }

def claimStarts (input : ClaimRequest) (s : MemoryStore) : Option (String × String) :=
  match input.auditID with
  | none => none
  | some auditID =>
    match Store.claimRun input.runnerID input.now input.ttl input.leaseToken input.fenceToken
        (some (input.audit auditID)) s with
    | (.error _, _) => none
    | (.ok claim, _) => (nextStep (ensureWorkflowState claim.run)).map (fun next => (claim.run.id, next.2.id))

def completionAccepted (input : CompleteRequest) (s : MemoryStore) : Option (String × Completion) :=
  match completionTarget input s, (completeLease input s).1 with
  | .ok target, .ok _ => if target.lease.completionKey == "" then some (target.lease.runID, target.status) else none
  | _, _ => none

def overdueRuns (now : Time) (s : MemoryStore) : List String :=
  (s.leases.filter (fun l => l.status == .active && decide (l.expiresAt ≤ now))).map (fun l => l.runID)

def Call.expires (s : MemoryStore) : Call → List String
  | .claim input =>
    match input.auditID with
    | none => []
    | some auditID => if s.auditTaken (some (input.audit auditID)) then [] else overdueRuns input.now s
  | .operate (.expireLeases now) => overdueRuns now s
  | _ => []

def Call.starts (s : MemoryStore) : Call → Option (String × String)
  | .claim input => claimStarts input s
  | _ => none

def Call.completes (s : MemoryStore) : Call → Option (String × Completion)
  | .complete input => completionAccepted input s
  | _ => none

def History.after (h : History) (s : MemoryStore) (call : Call) : History where
  started := (call.starts s).toList ++ h.started
  completed := (call.completes s).toList ++ h.completed
  expired := call.expires s ++ h.expired

inductive Reached (sys : System) : History → MemoryStore → Prop
  | start : Reached sys {} newMemoryStore
  | step (h : History) (s : MemoryStore) (call : Call) (hReached : Reached sys h s) (hAdmitted : call.Admitted s) :
      Reached sys (h.after s call) (sys.step call s)

instance (op : Operation) : Decidable (Around op) := by
  cases op <;> first | exact isTrue trivial | exact isFalse id

instance (s : MemoryStore) (call : Call) : Decidable (call.Admitted s) := by
  cases call <;> unfold Call.Admitted <;> infer_instance

def System.follow (sys : System) : List Call → History × MemoryStore → Option (History × MemoryStore)
  | [], state => some state
  | call :: rest, state =>
    if call.Admitted state.2 then sys.follow rest (state.1.after state.2 call, sys.step call state.2) else none

theorem Reached.follow {sys : System} {calls : List Call} {state state' : History × MemoryStore}
    (hReached : Reached sys state.1 state.2) (hFollow : sys.follow calls state = some state') :
    Reached sys state'.1 state'.2 := by
  induction calls generalizing state with
  | nil =>
    cases hFollow
    exact hReached
  | cons call _ ih =>
    rw [System.follow] at hFollow
    split at hFollow
    · rename_i hAdmitted
      exact ih (.step _ _ call hReached hAdmitted) hFollow
    · cases hFollow

theorem Reached.of_follow (sys : System) (calls : List Call) (holds : History × MemoryStore → Bool)
    (hFollow : (sys.follow calls ({}, newMemoryStore)).any holds = true) :
    ∃ h s, Reached sys h s ∧ holds (h, s) = true := by
  obtain ⟨state, hState, hHolds⟩ := Option.any_eq_true _ _ |>.mp hFollow
  exact ⟨state.1, state.2, Reached.start.follow hState, hHolds⟩

end NeroCD.Workflows
