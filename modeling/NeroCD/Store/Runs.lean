import NeroCD.Store

-- Operations on runs, their approvals, logs and artifacts.

namespace NeroCD.Store

open NeroCD.Domain NeroCD.GoStrings NeroCD.Records

def createRun (run : TaskRun) (s : MemoryStore) : Outcome TaskRun :=
  if containsHostingExecution run.runSpec run.workflow then (.error .conflict, s)
  else
    (.ok run, { s with
      claimOrderByRun := s.claimOrderByRun.insert run.id run.startedAt
      runs := run :: s.runs })

def createRunRequest (run : TaskRun) (log : RunLog) (approval : Option Approval) (audit : AuditEvent)
    (s : MemoryStore) : Outcome TaskRun :=
  if containsHostingExecution run.runSpec run.workflow then (.error .conflict, s)
  else
    (.ok run, ({ s with
      claimOrderByRun := s.claimOrderByRun.insert run.id run.startedAt
      runs := run :: s.runs
      logs := s.logs ++ [log]
      approvals := approval.toList ++ s.approvals } : MemoryStore).pushAudit audit)

def updateRunStatus (id : String) (status : RunStatus) (finishedAt : Option Time) (now : Time)
    (s : MemoryStore) : Outcome TaskRun :=
  if s.hostingRunLocked id || s.deploymentBackedRunLocked id then (.error .conflict, s)
  else
    match s.runs.find? (fun run => run.id == id) with
    | none => (.error .notFound, s)
    | some run =>
      let run := { run with status := status, finishedAt := finishedAt }
      (.ok run, { s with
        runs := updateFirst (fun run => run.id == id) (fun _ => run) s.runs
        claimOrderByRun :=
          if status == .queued then s.claimOrderByRun.insert id now else s.claimOrderByRun })

def updateRunWorkflowState (id : String) (workflowState : WorkflowState) (s : MemoryStore) : Outcome TaskRun :=
  if s.deploymentBackedRunLocked id then (.error .conflict, s)
  else
    match s.runs.find? (fun run => run.id == id) with
    | none => (.error .notFound, s)
    | some run =>
      let run := { run with workflowState := workflowState }
      (.ok run, { s with runs := updateFirst (fun run => run.id == id) (fun _ => run) s.runs })

def createApproval (approval : Approval) (s : MemoryStore) : Outcome Approval :=
  if s.deploymentBackedRunLocked approval.runID || s.internalHostingRunLocked approval.runID then
    (.error .conflict, s)
  else (.ok approval, { s with approvals := s.approvals ++ [approval] })

def pendingApproval (runID : String) (approval : Approval) : Bool :=
  approval.runID == runID && approval.status == .pending

def waitingRun (runID : String) (run : TaskRun) : Bool :=
  run.id == runID && run.status == .waitingApproval

def approveRun (runID actorID : String) (approvedAt : Time) (audit : Option AuditEvent) (s : MemoryStore) :
    Outcome Approval :=
  if s.auditTaken audit then (.error .conflict, s)
  else if s.deploymentBackedRunLocked runID || s.internalHostingRunLocked runID then (.error .conflict, s)
  else
    match s.approvals.find? (pendingApproval runID) with
    | none => (.error .notFound, s)
    | some approval =>
      match s.runs.find? (waitingRun runID) with
      | none => (.error .notFound, s)
      | some run =>
        let approval := { approval with
          status := .approved, approvedBy := some actorID, approvedAt := some approvedAt }
        let run := { run with status := .queued }
        (.ok approval, ({ s with
          approvals := updateFirst (pendingApproval runID) (fun _ => approval) s.approvals
          runs := updateFirst (waitingRun runID) (fun _ => run) s.runs
          claimOrderByRun := s.claimOrderByRun.insert runID approvedAt } : MemoryStore).appendTargetedAudit
            audit runID [("approval_id", .text approval.id)])

-- The run is canceled whatever its status is, and no lease is touched.
def rejectRun (runID actorID : String) (rejectedAt : Time) (audit : Option AuditEvent) (s : MemoryStore) :
    Outcome Approval :=
  if s.auditTaken audit then (.error .conflict, s)
  else if s.deploymentBackedRunLocked runID || s.internalHostingRunLocked runID then (.error .conflict, s)
  else
    match s.approvals.find? (pendingApproval runID) with
    | none => (.error .notFound, s)
    | some approval =>
      let approval := { approval with
        status := .rejected, approvedBy := some actorID, approvedAt := some rejectedAt }
      (.ok approval, ({ s with
        approvals := updateFirst (pendingApproval runID) (fun _ => approval) s.approvals
        runs := updateFirst (fun run => run.id == runID)
          (fun run => { run with status := .canceled, finishedAt := some rejectedAt }) s.runs }
          : MemoryStore).appendTargetedAudit audit runID [("approval_id", .text approval.id)])

-- The first sequence from `sequence` on that no log of the run has. One log is met at each step, so
-- as many steps as there are logs suffice.
def freeSequence (logs : List RunLog) (runID : String) : Nat → Int → Int
  | 0, sequence => sequence
  | fuel + 1, sequence =>
    if logs.any (fun existing => existing.runID == runID && existing.sequence == sequence) then
      freeSequence logs runID fuel (sequence + 1)
    else sequence

def sequenced (logs : List RunLog) (log : RunLog) : RunLog :=
  { log with sequence := freeSequence logs log.runID (logs.length + 1) log.sequence }

def createRunLogLocked (log : RunLog) (s : MemoryStore) : MemoryStore :=
  { s with logs := s.logs ++ [sequenced s.logs log] }

def createRunLog (log : RunLog) (s : MemoryStore) : Outcome Unit :=
  if s.buildLogRunLocked log.runID then (.error .conflict, s)
  else if s.deploymentBackedRunLocked log.runID then (.error .conflict, s)
  else (.ok (), createRunLogLocked log s)

def createArtifact (artifact : ArtifactRecord) (s : MemoryStore) : Outcome Unit :=
  if s.deploymentBackedRunLocked artifact.runID then (.error .conflict, s)
  else (.ok (), { s with artifacts := s.artifacts ++ [artifact] })

def storedEvent (logs : List RunLog) (runID leaseID : String) (attempt : Int) (log : RunLog) :
    Except StoreError (Option RunLog) :=
  if log.runID != runID || log.eventKey == "" || decide (log.requestedSequence ≤ 0) ||
      log.leaseID != leaseID || log.attempt != attempt then
    .error .conflict
  else
    match logs.find? (fun existing => existing.runID == runID && existing.eventKey == log.eventKey) with
    | none => .ok none
    | some existing =>
      if existing.leaseID != leaseID || existing.attempt != attempt ||
          existing.requestedSequence != log.requestedSequence || existing.stream != log.stream ||
          existing.message != log.message then
        .error .conflict
      else .ok (some existing)

-- The first loop of `CreateRunLogsForLease`: every event with what is stored for it.
def storedEvents (logs : List RunLog) (runID leaseID : String) (attempt : Int) :
    List RunLog → Except StoreError (List (RunLog × Option RunLog))
  | [] => .ok []
  | log :: rest =>
    match storedEvent logs runID leaseID attempt log with
    | .error e => .error e
    | .ok stored =>
      match storedEvents logs runID leaseID attempt rest with
      | .error e => .error e
      | .ok events => .ok ((log, stored) :: events)

-- Its last loop: the new events are stored, and each event is answered by its stored log.
def storeEvents : List (RunLog × Option RunLog) → List RunLog → List RunLog × List RunLog
  | [], logs => ([], logs)
  | (_, some existing) :: rest, logs =>
    let (results, logs) := storeEvents rest logs
    (existing :: results, logs)
  | (log, none) :: rest, logs =>
    let stored := sequenced logs log
    let (results, logs) := storeEvents rest (logs ++ [stored])
    (stored :: results, logs)

def createRunLogsForLease (logs : List RunLog) (runID runnerID leaseID : String) (attempt : Int)
    (fence : String) (now : Time) (s : MemoryStore) : Outcome (List RunLog) :=
  if s.buildLogRunLocked runID then (.error .conflict, s)
  else if !s.leases.any (leaseNamed leaseID runID runnerID attempt fence) then (.error .notFound, s)
  else
    match storedEvents s.logs runID leaseID attempt logs with
    | .error e => (.error e, s)
    | .ok events =>
      if events.any (fun event => event.2.isNone) &&
          !s.leases.any (fun lease => leaseNamed leaseID runID runnerID attempt fence lease &&
            leaseLive now lease) then
        (.error .notFound, s)
      else
        let (results, logs) := storeEvents events s.logs
        (.ok results, { s with logs := logs })

def createRunLogForLease (log : RunLog) (runnerID leaseID : String) (attempt : Int) (fence : String)
    (now : Time) (s : MemoryStore) : Outcome RunLog :=
  if log.eventKey != "" then
    match createRunLogsForLease [log] log.runID runnerID leaseID attempt fence now s with
    | (.error e, s) => (.error e, s)
    | (.ok results, s) => (.ok (results.headD log), s)
  else if s.buildLogRunLocked log.runID then (.error .conflict, s)
  else if s.leases.any (fun lease => leaseNamed leaseID log.runID runnerID attempt fence lease &&
      leaseLive now lease) then
    (.ok (sequenced s.logs log), createRunLogLocked log s)
  else (.error .notFound, s)

def createArtifactForLease (artifact : ArtifactRecord) (runnerID : String) (attempt : Int) (fence : String)
    (now : Time) (s : MemoryStore) : Outcome Unit :=
  if s.leases.any (fun lease => leaseNamed artifact.leaseID artifact.runID runnerID attempt fence lease &&
      leaseLive now lease) then
    (.ok (), { s with artifacts := s.artifacts ++ [artifact] })
  else (.error .notFound, s)

end NeroCD.Store
