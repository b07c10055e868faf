import NeroCD.Store.Receipts

-- Fencing: without a live lease a runner's request changes nothing, and is refused or answered from the
-- record of the same request.

namespace NeroCD.Store

open NeroCD.Domain NeroCD.Records

-- Renewals and completions do not name the run.
def Operation.lease : Operation → Option ((RunLease → Bool) × Time)
  | .renewLease runnerID leaseID fence attempt now _ => some (leaseHeldAs leaseID runnerID attempt fence, now)
  | .completeLeaseRequest leaseID runnerID _ attempt fence _ completedAt _ _ _ _ _ =>
    some (leaseHeldAs leaseID runnerID attempt fence, completedAt)
  | .createRunLogForLease log runnerID leaseID attempt fence now =>
    some (leaseNamed leaseID log.runID runnerID attempt fence, now)
  | .createRunLogsForLease _ runID runnerID leaseID attempt fence now =>
    some (leaseNamed leaseID runID runnerID attempt fence, now)
  | .createArtifactForLease artifact runnerID attempt fence now =>
    some (leaseNamed artifact.leaseID artifact.runID runnerID attempt fence, now)
  | .authorizeSecretAccess _ request =>
    some (leaseNamed request.leaseID request.runID request.runnerID request.attempt request.fence,
      request.requestedAt)
  | .resolveRevisionProvenance req _ now =>
    some (leaseNamed req.leaseID req.runID req.runnerID req.attempt req.fence, now)
  | .transitionDeploymentAttempt request _ now =>
    some (leaseNamed request.leaseID request.runID request.runnerID request.attempt request.fence, now)
  | .failDeploymentAndCreateRollback req _ _ now =>
    some (leaseNamed req.leaseID req.runID req.runnerID req.attempt req.fence, now)
  | _ => none

def EventStored (past : List Operation) (s : MemoryStore) (op : Operation) (runnerID fence : String)
    (event log : RunLog) : Prop :=
  log ∈ s.logs ∧ SameEvent event log ∧ op.Appends runnerID fence log ∧
    ∃ earlier ∈ past, earlier.Appends runnerID fence log

-- The answer is the record of the same request, accepted before under the same lease.  A reported failure is recorded
-- as a transition.
def AnsweredFrom (past : List Operation) (s : MemoryStore) (op : Operation) (answer : Answer) : Prop :=
  match op with
  | .completeLeaseRequest _ _ _ _ _ _ _ _ _ _ _ _ =>
    ∃ l ∈ s.leases, answer = .lease l ∧ op.Completes l ∧ ∃ earlier ∈ past, earlier.Completes l
  | .createRunLogForLease event runnerID _ _ fence _ =>
    ∃ log, answer = .log log ∧ EventStored past s op runnerID fence event log
  | .createRunLogsForLease events _ runnerID _ _ fence _ =>
    ∃ logs, answer = .logs logs ∧ List.Forall₂ (EventStored past s op runnerID fence) events logs
  | .resolveRevisionProvenance req _ _ =>
    ∃ replay, answer = .revision replay.revision ∧
      s.provenanceReplays.lookup (provenanceKey req.deploymentID req.resolutionID) = some replay ∧
      ∃ earlier audit now, .resolveRevisionProvenance earlier audit now ∈ past ∧
        provenanceKey earlier.deploymentID earlier.resolutionID =
          provenanceKey req.deploymentID req.resolutionID ∧
        { earlier with deploymentID := req.deploymentID, resolutionID := req.resolutionID } = req ∧
        ('\x00' ∉ earlier.deploymentID.toList → '\x00' ∉ req.deploymentID.toList → earlier = req)
  | .transitionDeploymentAttempt request _ _ =>
    ∃ d ∈ s.deployments, answer = .deployment d ∧ d.id = request.deploymentID ∧
      ∃ earlier ∈ past, earlier.Records request
  | .failDeploymentAndCreateRollback req _ _ _ =>
    ∃ result, answer = .failure result ∧ result.failed ∈ s.deployments ∧
      result.failed.id = req.deploymentID ∧
      (∀ rollback, result.rollback = some rollback → rollback ∈ s.deployments) ∧
      ∃ target, ∃ earlier ∈ past, earlier.Records (failureTransition req target)
  | _ => False

def Unchanged {α : Type} (s : MemoryStore) (P : α → Prop) (o : Outcome α) : Prop :=
  o.2 = s ∧ ∀ x, o.1 = .ok x → P x

namespace Unchanged

variable {α : Type} {s : MemoryStore} {P : α → Prop}

theorem error (e : StoreError) : Unchanged s P (.error e, s) := ⟨rfl, fun _ h => by cases h⟩

theorem ok {x : α} (h : P x) : Unchanged s P (.ok x, s) := by
  refine ⟨rfl, ?_⟩
  intro y hEq
  cases hEq
  exact h

theorem answer {Q : Answer → Prop} {o : Outcome α} (h : Unchanged s P o) (wrap : α → Answer)
    (hQ : ∀ x, P x → Q (wrap x)) : Unchanged s Q (o.answer wrap) := by
  refine ⟨h.1, ?_⟩
  intro y hEq
  obtain ⟨result, next⟩ := o
  cases result with
  | error e => cases hEq
  | ok x =>
    cases hEq
    exact hQ x (h.2 x rfl)

end Unchanged

section

variable {past : List Operation} {s : MemoryStore}

theorem any_live_eq_false {names : RunLease → Bool} {now : Time}
    (hDead : ∀ l ∈ s.leases, names l = true → leaseLive now l = false) :
    s.leases.any (fun l => names l && leaseLive now l) = false := by
  rw [List.any_eq_false]
  intro l hl hBoth
  rw [Bool.and_eq_true] at hBoth
  rw [hDead l hl hBoth.1] at hBoth
  exact Bool.false_ne_true hBoth.2

theorem renewLease_fenced (runnerID leaseID fence : String) (attempt : Int) (now ttl : Time)
    (hDead : ∀ l ∈ s.leases, leaseHeldAs leaseID runnerID attempt fence l = true → leaseLive now l = false) :
    renewLease runnerID leaseID fence attempt now ttl s = (.error .notFound, s) := by
  unfold renewLease
  simp only
  split
  · rfl
  · rename_i l hl
    have hAny := any_live_eq_false hDead
    rw [List.any_eq_false] at hAny
    exact absurd (List.find?_some hl) (hAny l (List.mem_of_find?_eq_some hl))

theorem createArtifactForLease_fenced (artifact : ArtifactRecord) (runnerID : String) (attempt : Int)
    (fence : String) (now : Time)
    (hDead : ∀ l ∈ s.leases, leaseNamed artifact.leaseID artifact.runID runnerID attempt fence l = true →
      leaseLive now l = false) :
    createArtifactForLease artifact runnerID attempt fence now s = (.error .notFound, s) := by
  unfold createArtifactForLease
  rw [any_live_eq_false hDead, if_neg Bool.false_ne_true]

theorem authorizeSecretAccess_fenced (toLower : String → String) (request : SecretAccessRequest)
    (hDead : ∀ l ∈ s.leases,
      leaseNamed request.leaseID request.runID request.runnerID request.attempt request.fence l = true →
        leaseLive request.requestedAt l = false) :
    authorizeSecretAccess toLower request s = (.error .notFound, s) := by
  unfold authorizeSecretAccess
  rw [any_live_eq_false hDead]
  rfl

theorem completeLeaseRequest_fenced (h : Recorded past s) (leaseID runnerID : String) (status : LeaseStatus)
    (attempt : Int) (fence completionKey : String) (completedAt : Time) (runStatus : RunStatus)
    (finishedAt : Option Time) (workflowState : Option WorkflowState) (logs : List RunLog) (audit : AuditEvent)
    (hDead : ∀ l ∈ s.leases, leaseHeldAs leaseID runnerID attempt fence l = true →
      leaseLive completedAt l = false) :
    Unchanged s (fun l => l ∈ s.leases ∧ (leaseHeldAs leaseID runnerID attempt fence l = true ∧
        l.status = status ∧ l.completionKey = completionKey) ∧ ∃ earlier ∈ past, earlier.Completes l)
      (completeLeaseRequest leaseID runnerID status attempt fence completionKey completedAt runStatus
        finishedAt workflowState logs audit s) := by
  unfold completeLeaseRequest
  split
  · exact .error _
  rename_i l hl
  have hMem := List.mem_of_find?_eq_some hl
  have hHeld := List.find?_some hl
  split
  · exact .error _
  split
  · exact .error _
  split
  · rename_i hKey
    split
    · rename_i hSame
      simp only [Bool.and_eq_true, beq_iff_eq] at hSame
      exact .ok ⟨hMem, ⟨hHeld, hSame.2, hSame.1⟩, (h.completions l hMem (bne_iff_ne.mp hKey)).1⟩
    · exact .error _
  · rw [hDead l hMem hHeld]
    exact .error _

theorem Recorded.event (h : Recorded past s) {runID runnerID leaseID fence : String} {attempt : Int}
    {event log : RunLog} (hNamed : ∃ l ∈ s.leases, leaseNamed leaseID runID runnerID attempt fence l = true)
    (hLog : log ∈ s.logs) (hSame : SameEvent event log)
    (hEvent : event.runID = runID ∧ event.leaseID = leaseID ∧ event.attempt = attempt ∧ event.eventKey ≠ "") :
    ∃ earlier ∈ past, earlier.Appends runnerID fence log := by
  obtain ⟨runner, fence', ⟨earlier, hEarlier, hAppends⟩, l, hl, hLease⟩ :=
    h.logs log hLog (hSame.eventKey ▸ hEvent.2.2.2)
  obtain ⟨l', hl', hLease'⟩ := hNamed
  rw [leaseNamed_iff] at hLease hLease'
  -- one lease has the ID, so its runner and fence are those of the request
  have hID : l.id = l'.id := by
    rw [hLease.1, hLease'.1, ← hSame.leaseID, hEvent.2.1]
  have hEq : l = l' := h.leaseIDs.eq hl hl' hID
  rw [← hEq] at hLease'
  rw [← hLease'.2.2.1, hLease.2.2.1, ← hLease'.2.2.2.2, hLease.2.2.2.2]
  exact ⟨earlier, hEarlier, hAppends⟩

theorem createRunLogsForLease_fenced (h : Recorded past s) (logs : List RunLog)
    (runID runnerID leaseID : String) (attempt : Int) (fence : String) (now : Time)
    (hDead : ∀ l ∈ s.leases, leaseNamed leaseID runID runnerID attempt fence l = true →
      leaseLive now l = false) :
    Unchanged s (fun stored => List.Forall₂ (fun event log => log ∈ s.logs ∧ SameEvent event log ∧
        (runID = log.runID ∧ leaseID = log.leaseID ∧ attempt = log.attempt) ∧
        ∃ earlier ∈ past, earlier.Appends runnerID fence log) logs stored)
      (createRunLogsForLease logs runID runnerID leaseID attempt fence now s) := by
  unfold createRunLogsForLease
  split
  · exact .error _
  split
  · exact .error _
  rename_i hNamed
  rw [Bool.not_eq_true', Bool.not_eq_false, List.any_eq_true] at hNamed
  split
  · exact .error _
  rename_i events hEvents
  obtain ⟨hMap, hEach⟩ := storedEvents_ok hEvents
  rw [any_live_eq_false hDead, Bool.not_false, Bool.and_true]
  split
  · exact .error _
  rename_i hStored
  rw [List.any_eq_true, not_exists] at hStored
  have hAll : ∀ event ∈ events, event.2.isSome = true := by
    intro event hEvent
    rw [Option.isSome_iff_ne_none]
    intro hNone
    exact hStored event ⟨hEvent, by rw [hNone]; rfl⟩
  obtain ⟨hLogs, hResults⟩ := storeEvents_stored hAll
  refine ⟨?_, ?_⟩
  · show { s with logs := (storeEvents events s.logs).2 } = s
    rw [hLogs]
  · intro stored hEq
    cases hEq
    rw [← hMap, List.forall₂_map_left_iff]
    -- event by event: the stored log answers the event of the batch
    refine ((List.forall₂_and_left _ _).mpr ⟨hEach, hResults⟩).imp ?_
    intro event log hEvent
    obtain ⟨hChecked, hSame⟩ := storedEvent_ok hEvent.1
    obtain ⟨hLog, hSame⟩ := hSame log hEvent.2
    exact ⟨hLog, hSame, ⟨hChecked.1.symm.trans hSame.runID, hChecked.2.1.symm.trans hSame.leaseID,
      hChecked.2.2.1.symm.trans hSame.attempt⟩, h.event hNamed hLog hSame hChecked⟩

theorem createRunLogForLease_fenced (h : Recorded past s) (event : RunLog) (runnerID leaseID : String)
    (attempt : Int) (fence : String) (now : Time)
    (hDead : ∀ l ∈ s.leases, leaseNamed leaseID event.runID runnerID attempt fence l = true →
      leaseLive now l = false) :
    Unchanged s (fun log => log ∈ s.logs ∧ SameEvent event log ∧
        (event.runID = log.runID ∧ leaseID = log.leaseID ∧ attempt = log.attempt) ∧
        ∃ earlier ∈ past, earlier.Appends runnerID fence log)
      (createRunLogForLease event runnerID leaseID attempt fence now s) := by
  unfold createRunLogForLease
  split
  · have hBatch := createRunLogsForLease_fenced h [event] event.runID runnerID leaseID attempt fence now hDead
    split
    · rename_i e s' hEq
      rw [hEq] at hBatch
      have hSame : s' = s := hBatch.1
      rw [hSame]
      exact .error _
    · rename_i results s' hEq
      rw [hEq] at hBatch
      have hSame : s' = s := hBatch.1
      rw [hSame]
      apply Unchanged.ok
      have hStored := hBatch.2 results rfl
      obtain ⟨log, rest, hLog, -, hResults⟩ := List.forall₂_cons_left_iff.mp hStored
      rw [hResults]
      exact hLog
  split
  · exact .error _
  · rw [any_live_eq_false hDead, if_neg Bool.false_ne_true]
    exact .error _

theorem resolveRevisionProvenance_fenced (h : Recorded past s) (req : ProvenanceRequest) (audit : AuditEvent)
    (now : Time)
    (hDead : ∀ l ∈ s.leases, leaseNamed req.leaseID req.runID req.runnerID req.attempt req.fence l = true →
      leaseLive now l = false) :
    Unchanged s (fun r => ∃ replay, r = replay.revision ∧
        s.provenanceReplays.lookup (provenanceKey req.deploymentID req.resolutionID) = some replay ∧
        ∃ earlier audit now, .resolveRevisionProvenance earlier audit now ∈ past ∧
          provenanceKey earlier.deploymentID earlier.resolutionID =
            provenanceKey req.deploymentID req.resolutionID ∧
          { earlier with deploymentID := req.deploymentID, resolutionID := req.resolutionID } = req)
      (resolveRevisionProvenance req audit now s) := by
  unfold resolveRevisionProvenance
  split
  · rename_i replay hReplay
    split
    · rename_i hSame
      obtain ⟨earlier, audit', now', hEarlier, hKey, r, hRecord⟩ := h.replays _ _ hReplay
      apply Unchanged.ok
      refine ⟨replay, rfl, hReplay, earlier, audit', now', hEarlier, hKey.symm, ?_⟩
      rw [hRecord] at hSame
      simp only [sameProvenance, provenanceReplay, Bool.and_eq_true, beq_iff_eq] at hSame
      obtain ⟨⟨⟨⟨⟨⟨⟨hRun, hLease⟩, hRunner⟩, hAttempt⟩, hFence⟩, hCommit⟩, hHash⟩, hDigests⟩ := hSame
      rw [hRun, hLease, hRunner, hAttempt, hFence, hCommit, hHash, hDigests]
    · exact .error _
  split
  · exact .error _
  · rw [any_live_eq_false hDead]
    exact .error _

theorem Recorded.transition (h : Recorded past s) {request stored : DeploymentTransitionRequest}
    (hStored : s.deploymentTransitions.lookup
      (transitionRecordKey request.deploymentID request.transitionKey) = some stored)
    (hSame : sameDeploymentTransition stored request = true) : ∃ earlier ∈ past, earlier.Records request := by
  obtain ⟨hKey, hEarlier⟩ := h.transitions _ _ hStored
  have hFields := of_decide_eq_true hSame
  have hID : stored.deploymentID = request.deploymentID := by rw [← hFields]
  rw [hID] at hKey
  have hTransition : request.transitionKey = stored.transitionKey := String.append_right_inj _ |>.mp hKey
  have hEq : stored = request := by
    rw [← hFields, hTransition]
  exact hEq ▸ hEarlier

theorem transitionDeploymentAttempt_fenced (h : Recorded past s) (request : DeploymentTransitionRequest)
    (audit : AuditEvent) (now : Time)
    (hDead : ∀ l ∈ s.leases,
      leaseNamed request.leaseID request.runID request.runnerID request.attempt request.fence l = true →
        leaseLive now l = false) :
    Unchanged s (fun d => d ∈ s.deployments ∧ d.id = request.deploymentID ∧
        ∃ earlier ∈ past, earlier.Records request)
      (transitionDeploymentAttempt request audit now s) := by
  unfold transitionDeploymentAttempt
  simp only
  split
  · exact .error _
  rename_i l hl
  split
  · exact .error _
  split
  · rename_i stored hStored
    split
    · exact .error _
    rename_i hSame
    rw [Bool.not_eq_true', Bool.not_eq_false] at hSame
    split
    · rename_i d hd
      exact .ok ⟨List.mem_of_find?_eq_some hd, (deploymentIs_iff _ _).mp (List.find?_some hd),
        h.transition hStored hSame⟩
    · exact .error _
  · rw [hDead l (List.mem_of_find?_eq_some hl) (List.find?_some hl)]
    exact .error _

theorem replayFailure_fenced (h : Recorded past s) (req : DeploymentFailureRollbackRequest)
    (target : DeploymentStatus) (source : Deployment) (rollback : Option Deployment)
    (hID : source.id = req.deploymentID) (hSource : source ∈ s.deployments)
    (hRollback : ∀ child, rollback = some child → child ∈ s.deployments) :
    Unchanged s (fun result => result.failed ∈ s.deployments ∧ result.failed.id = req.deploymentID ∧
        (∀ child, result.rollback = some child → child ∈ s.deployments) ∧
        ∃ target, ∃ earlier ∈ past, earlier.Records (failureTransition req target))
      (replayFailure req target source rollback s, s) := by
  unfold replayFailure
  split
  · exact .error _
  split
  · exact .error _
  split
  · rename_i stored hStored
    split
    · rename_i hSame
      rw [Bool.and_eq_true] at hSame
      rw [hID] at hStored
      exact .ok ⟨hSource, hID, hRollback, target, h.transition hStored hSame.2⟩
    · exact .error _
  · exact .error _

theorem failDeploymentAndCreateRollback_fenced (h : Recorded past s) (req : DeploymentFailureRollbackRequest)
    (failedAudit rollbackAudit : AuditEvent) (now : Time)
    (hDead : ∀ l ∈ s.leases, leaseNamed req.leaseID req.runID req.runnerID req.attempt req.fence l = true →
      leaseLive now l = false) :
    Unchanged s (fun result => result.failed ∈ s.deployments ∧ result.failed.id = req.deploymentID ∧
        (∀ child, result.rollback = some child → child ∈ s.deployments) ∧
        ∃ target, ∃ earlier ∈ past, earlier.Records (failureTransition req target))
      (failDeploymentAndCreateRollback req failedAudit rollbackAudit now s) := by
  unfold failDeploymentAndCreateRollback
  split
  · exact .error _
  split
  · rename_i source hSource
    have hFound := List.find?_some hSource
    simp only [Bool.and_eq_true, beq_iff_eq] at hFound
    exact replayFailure_fenced h req _ source none hFound.1 (List.mem_of_find?_eq_some hSource)
      (fun _ hEq => by cases hEq)
  split
  · rename_i existing hExisting
    unfold replayRollback
    simp only
    split
    · exact .error _
    split
    · exact .error _
    · rename_i source hSource
      apply replayFailure_fenced h req _ source (some existing) ((deploymentIs_iff _ _).mp (List.find?_some hSource))
        (List.mem_of_find?_eq_some hSource)
      intro child hEq
      cases hEq
      exact List.mem_of_find?_eq_some hExisting
  -- the live path ends at the lease
  have hTarget : ∃ e, failureTarget req now s = .error e := by
    unfold failureTarget
    split
    · exact ⟨_, rfl⟩
    · rename_i l hl
      rw [hDead l (List.mem_of_find?_eq_some hl) (List.find?_some hl)]
      exact ⟨_, rfl⟩
  obtain ⟨e, hTarget⟩ := hTarget
  rw [hTarget]
  exact .error _

end

-- A runner's request under a lease that is missing, not active, or expired changes nothing, and is
-- refused or answered from the record of the same request accepted before under that lease.
theorem fenced {past : List Operation} {s : MemoryStore} (hReached : Reaches StoreAdmitted past s)
    (op : Operation) (names : RunLease → Bool) (now : Time) (hLease : op.lease = some (names, now))
    (hDead : ∀ l ∈ s.leases, names l = true → leaseLive now l = false) :
    (perform op s).2 = s ∧ ∀ answer, (perform op s).1 = .ok answer → AnsweredFrom past s op answer := by
  have h := hReached.recorded
  show Unchanged s (AnsweredFrom past s op) (perform op s)
  cases op with
  | renewLease runnerID leaseID fence attempt now ttl =>
    cases hLease
    show Unchanged s _ (Outcome.answer .lease (renewLease runnerID leaseID fence attempt now ttl s))
    rw [renewLease_fenced runnerID leaseID fence attempt now ttl hDead]
    exact .error _
  | completeLeaseRequest leaseID runnerID status attempt fence completionKey _ runStatus finishedAt
      workflowState logs audit =>
      cases hLease
      apply (completeLeaseRequest_fenced h leaseID runnerID status attempt fence completionKey now
        runStatus finishedAt workflowState logs audit hDead).answer
      intro l hl
      exact ⟨l, hl.1, rfl, hl.2⟩
  | createRunLogForLease event runnerID leaseID attempt fence now =>
    cases hLease
    apply (createRunLogForLease_fenced h event runnerID leaseID attempt fence now hDead).answer
    intro log hLog
    exact ⟨log, rfl, hLog.1, hLog.2.1, ⟨hLog.2.2.1, ⟨rfl, rfl⟩, hLog.2.1⟩, hLog.2.2.2⟩
  | createRunLogsForLease events runID runnerID leaseID attempt fence now =>
    cases hLease
    apply (createRunLogsForLease_fenced h events runID runnerID leaseID attempt fence now hDead).answer
    intro logs hLogs
    refine ⟨logs, rfl, ?_⟩
    refine ((List.forall₂_and_left _ _).mpr ⟨fun event hEvent => hEvent, hLogs⟩).imp ?_
    intro event log hLog
    exact ⟨hLog.2.1, hLog.2.2.1, ⟨hLog.2.2.2.1, ⟨rfl, rfl⟩, event, hLog.1, hLog.2.2.1⟩, hLog.2.2.2.2⟩
  | createArtifactForLease artifact runnerID attempt fence now =>
    cases hLease
    show Unchanged s _ (Outcome.answer _ (createArtifactForLease artifact runnerID attempt fence now s))
    rw [createArtifactForLease_fenced artifact runnerID attempt fence now hDead]
    exact .error _
  | authorizeSecretAccess toLower request =>
    cases hLease
    show Unchanged s _ (Outcome.answer .grant (authorizeSecretAccess toLower request s))
    rw [authorizeSecretAccess_fenced toLower request hDead]
    exact .error _
  | resolveRevisionProvenance req audit now =>
    cases hLease
    apply (resolveRevisionProvenance_fenced h req audit now hDead).answer
    intro r hr
    obtain ⟨replay, hEq, hReplay, earlier, audit', now', hEarlier, hKey, hSame⟩ := hr
    refine ⟨replay, by rw [hEq], hReplay, earlier, audit', now', hEarlier, hKey, hSame, ?_⟩
    intro hFirst hSecond
    obtain ⟨hID, hResolution⟩ := append_nul_inj hFirst hSecond hKey
    rw [← hSame, ← hID, ← hResolution]
  | transitionDeploymentAttempt request audit now =>
    cases hLease
    apply (transitionDeploymentAttempt_fenced h request audit now hDead).answer
    intro d hd
    exact ⟨d, hd.1, rfl, hd.2⟩
  | failDeploymentAndCreateRollback req failedAudit rollbackAudit now =>
    cases hLease
    apply (failDeploymentAndCreateRollback_fenced h req failedAudit rollbackAudit now hDead).answer
    intro result hResult
    exact ⟨result, rfl, hResult⟩
  | _ => cases hLease

def sampleCompletion (completedAt : Time) : Operation :=
  .completeLeaseRequest "lease" "runner" .succeeded 1 "fence" "key" completedAt .succeeded (some completedAt)
    none [] { id := "audit", actorID := "runner", action := "complete", targetID := "lease", createdAt := 2 }

def sampleCompleted : MemoryStore := (perform (sampleCompletion 2) sampleClaimed).2

theorem sampleCompleted_reached : Reaches StoreAdmitted [sampleCompletion 2,
    .claimRun "runner" 1 10 (some "lease") (some "fence") none, .registerRunner sampleRunner none,
    .createRun sampleRun] sampleCompleted := by
  have hCreated : Reaches StoreAdmitted _ _ := Reaches.start.accepted (.createRun sampleRun)
    ⟨by simp [Operation.Fresh, newMemoryStore], trivial, trivial⟩ (by decide +kernel)
  have hRegistered := hCreated.accepted (.registerRunner sampleRunner none) ⟨trivial, trivial, trivial⟩
    (by decide +kernel)
  have hClaimed := hRegistered.accepted (.claimRun "runner" 1 10 (some "lease") (some "fence") none)
    ⟨(fun l hl => (List.not_mem_nil hl).elim), trivial, trivial⟩ (by decide +kernel)
  exact hClaimed.accepted (sampleCompletion 2) ⟨trivial, trivial, by decide, by simp⟩ (by decide +kernel)

theorem fenced_sample :
    (∀ l ∈ sampleCompleted.leases, leaseHeldAs "lease" "runner" 1 "fence" l = true → leaseLive 3 l = false) ∧
      (perform (sampleCompletion 3) sampleCompleted).1.isOk = true ∧
      (perform (sampleCompletion 3) sampleCompleted).2 = sampleCompleted ∧
      ∃ past answer, AnsweredFrom past sampleCompleted (sampleCompletion 3) answer := by
  have hDead : ∀ l ∈ sampleCompleted.leases,
      leaseHeldAs "lease" "runner" 1 "fence" l = true → leaseLive 3 l = false := by
    decide +kernel
  have hOk : (perform (sampleCompletion 3) sampleCompleted).1.isOk = true := by decide +kernel
  obtain ⟨hSame, hAnswered⟩ := fenced sampleCompleted_reached (sampleCompletion 3) _ 3 rfl hDead
  refine ⟨hDead, hOk, hSame, ?_⟩
  cases hResult : (perform (sampleCompletion 3) sampleCompleted).1 with
  | error e =>
    rw [hResult] at hOk
    cases hOk
  | ok => exact ⟨_, _, hAnswered _ hResult⟩

end NeroCD.Store
