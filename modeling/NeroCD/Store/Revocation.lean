import NeroCD.Store.Frames

-- Requests of runners over the store. A request authenticates with a token and acts later; other requests may act in
-- between.

namespace NeroCD.Store.Revocation

open NeroCD.Domain NeroCD.Records

structure RunnerEnrollment where
  id : String
  tokenHash : String
  runnerID : String
  runnerName : String
  tags : List String
  capabilities : List String
  createdBy : String
  createdAt : Time
  expiresAt : Time
  revokedAt : Option Time := none
  usedAt : Option Time := none
  consumeRequestID : Option String := none
  credentialHash : Option String := none

structure RunnerEnrollmentConsume where
  tokenHash : String
  requestID : String
  credentialHash : String

-- The store with its enrollments, and the runner of each request that is authenticated and has not
-- acted yet.
structure State where
  store : MemoryStore := {}
  enrollments : List RunnerEnrollment := []
  requests : List String := []

namespace State

def createRunnerEnrollment (enrollment : RunnerEnrollment) (audit : AuditEvent) (σ : State) : State :=
  if σ.enrollments.any (fun existing => existing.id == enrollment.id ||
      existing.tokenHash == enrollment.tokenHash || existing.runnerID == enrollment.runnerID) then σ
  else { σ with enrollments := σ.enrollments ++ [enrollment], store := σ.store.appendAudit audit }

def revokeRunnerEnrollment (enrollmentID : String) (audit : AuditEvent) (now : Time) (σ : State) : State :=
  let open_ (enrollment : RunnerEnrollment) : Bool :=
    enrollment.id == enrollmentID && enrollment.revokedAt.isNone && enrollment.usedAt.isNone
  if σ.enrollments.any open_ then
    { σ with
      enrollments := updateFirst open_ (fun enrollment => { enrollment with revokedAt := some now }) σ.enrollments
      store := σ.store.appendAudit audit }
  else σ

def enrolledRunner (enrollment : RunnerEnrollment) (consume : RunnerEnrollmentConsume) (now : Time) : Runner where
  id := enrollment.runnerID
  name := enrollment.runnerName
  tags := enrollment.tags
  capabilities := enrollment.capabilities
  tokenHash := consume.credentialHash
  status := .active
  registeredAt := now
  lastHeartbeatAt := now

def consumeRunnerEnrollment (consume : RunnerEnrollmentConsume) (audit : AuditEvent) (now : Time) (σ : State) :
    Except StoreError Runner × State :=
  match σ.enrollments.find? (fun enrollment => enrollment.tokenHash == consume.tokenHash) with
  | none => (.error .notFound, σ)
  | some enrollment =>
    if enrollment.usedAt.isSome then
      if enrollment.consumeRequestID != some consume.requestID ||
          enrollment.credentialHash != some consume.credentialHash then (.error .conflict, σ)
      else
        match σ.store.runners.find? (fun registered =>
            registered.id == enrollment.runnerID && registered.tokenHash == consume.credentialHash) with
        | some registered => (.ok registered, σ)
        | none => (.error .conflict, σ)
    else if enrollment.revokedAt.isSome || !decide (now < enrollment.expiresAt) then (.error .notFound, σ)
    else if σ.store.runners.any (fun registered => registered.id == enrollment.runnerID) then (.error .conflict, σ)
    else
      let runner := enrolledRunner enrollment consume now
      (.ok runner, { σ with
        store := ({ σ.store with runners := σ.store.runners ++ [runner] } : MemoryStore).appendAudit { audit with
          actorID := enrollment.runnerID
          targetID := enrollment.runnerID
          metadata := auditMetadata none
            [("enrollment_id", .text enrollment.id), ("runner_id", .text enrollment.runnerID)] }
        enrollments := updateFirst (fun enrollment => enrollment.tokenHash == consume.tokenHash)
          (fun enrollment => { enrollment with
            usedAt := some now
            consumeRequestID := some consume.requestID
            credentialHash := some consume.credentialHash }) σ.enrollments })

-- `GetRunnerByTokenHash`.
def runnerByTokenHash (σ : State) (tokenHash : String) : Option Runner :=
  σ.store.runners.find? (fun runner => runner.tokenHash == tokenHash && runner.status == .active)

end State

def actingRunner : Operation → Option String
  | .heartbeatRunner id _ => some id
  | .claimRun runnerID _ _ _ _ _ => some runnerID
  | .renewLease runnerID _ _ _ _ _ => some runnerID
  | .completeLeaseRequest _ runnerID _ _ _ _ _ _ _ _ _ _ => some runnerID
  | .createRunLogForLease _ runnerID _ _ _ _ => some runnerID
  | .createRunLogsForLease _ _ runnerID _ _ _ _ => some runnerID
  | .createArtifactForLease _ runnerID _ _ _ => some runnerID
  | .authorizeSecretAccess _ request => some request.runnerID
  | .resolveRevisionProvenance req _ _ => some req.runnerID
  | .transitionDeploymentAttempt request _ _ => some request.runnerID
  | .failDeploymentAndCreateRollback req _ _ _ => some req.runnerID
  | _ => none

inductive Step
  -- a runner's request reads the runner by the hash of its token
  | authenticate (tokenHash : String)
  -- an authenticated request acts on the store
  | act (request : Nat) (op : Operation)
  -- an operation that is not made in the name of a runner
  | operate (op : Operation)
  | createEnrollment (enrollment : RunnerEnrollment) (audit : AuditEvent)
  | revokeEnrollment (enrollmentID : String) (audit : AuditEvent) (now : Time)
  | consumeEnrollment (consume : RunnerEnrollmentConsume) (audit : AuditEvent) (now : Time)

def State.authorizes (σ : State) (request : Nat) (op : Operation) : Bool :=
  match actingRunner op with
  | some runnerID => σ.requests[request]? == some runnerID
  | none => false

-- A step that is not possible in a state leaves it.
def State.step (σ : State) : Step → State
  | .authenticate tokenHash =>
    match σ.runnerByTokenHash tokenHash with
    | some runner => { σ with requests := σ.requests ++ [runner.id] }
    | none => σ
  | .act request op =>
    if σ.authorizes request op then
      { σ with store := (perform op σ.store).2, requests := σ.requests.eraseIdx request }
    else σ
  | .operate op => if (actingRunner op).isNone then { σ with store := (perform op σ.store).2 } else σ
  | .createEnrollment enrollment audit => σ.createRunnerEnrollment enrollment audit
  | .revokeEnrollment enrollmentID audit now => σ.revokeRunnerEnrollment enrollmentID audit now
  | .consumeEnrollment consume audit now => (σ.consumeRunnerEnrollment consume audit now).2

def State.run (σ : State) (steps : List Step) : State := steps.foldl State.step σ

-- `RevokeRunnerToken`.
def revokeRunnerToken (runnerID : String) (now : Time) (audit : AuditEvent) : Operation :=
  .updateRunnerToken runnerID "" .revoked now (some audit)

def State.Active (σ : State) (runnerID : String) : Prop :=
  ∃ runner ∈ σ.store.runners, runner.id = runnerID ∧ runner.status = .active

def State.ClaimReturns (σ : State) (runnerID : String) : Step → Prop
  | .act request (.claimRun id now ttl leaseToken fenceToken audit) =>
    id = runnerID ∧ σ.authorizes request (.claimRun id now ttl leaseToken fenceToken audit) = true ∧
      (claimRun id now ttl leaseToken fenceToken audit σ.store).1.isOk = true
  | _ => False

def State.HeartbeatActs (σ : State) (runnerID : String) : Step → Prop
  | .act request (.heartbeatRunner id now) =>
    id = runnerID ∧ σ.authorizes request (.heartbeatRunner id now) = true
  | _ => False

-- `UpdateRunnerToken` for the runner with an active status.
def Step.Reactivates (runnerID : String) : Step → Prop
  | .operate (.updateRunnerToken id _ status _ _) => id = runnerID ∧ status = .active
  | _ => False

def State.StaysRevoked (runnerID : String) (σ : State) : List Step → Prop
  | [] => ¬ σ.Active runnerID
  | step :: rest =>
    ¬ σ.Active runnerID ∧ ¬ σ.ClaimReturns runnerID step ∧ (σ.step step).StaysRevoked runnerID rest

def State.NoHeartbeat (runnerID : String) (σ : State) : List Step → Prop
  | [] => True
  | step :: rest => ¬ σ.HeartbeatActs runnerID step ∧ (σ.step step).NoHeartbeat runnerID rest

inductive RunnersAfter (σ : State) (step : Step) : List Runner → Prop
  | same : RunnersAfter σ step σ.store.runners
  | add (runner : Runner) (hFresh : ∀ r ∈ σ.store.runners, r.id ≠ runner.id) :
      RunnersAfter σ step (σ.store.runners ++ [runner])
  | replace (r r' : Runner) (runners : List Runner) (h : Replaces r r' σ.store.runners runners) (hID : r'.id = r.id)
      (hStatus : r'.status = .active → r.status = .active ∨ step.Reactivates r.id ∨ σ.HeartbeatActs r.id step) :
      RunnersAfter σ step runners

section

variable {σ : State} {r : String}

theorem claimRun_runners (s : MemoryStore) (runnerID : String) (now ttl : Time) (leaseToken fenceToken : Option String)
    (audit : Option AuditEvent) :
    (claimRun runnerID now ttl leaseToken fenceToken audit s).2.runners = s.runners ∨
      (claimRun runnerID now ttl leaseToken fenceToken audit s).2.runners =
        markStale runnerID (now - 2 * ttl) s.runners := by
  unfold claimRun
  split
  · exact .inl rfl
  · have hSweep : (expireLeasesLocked now s).runners = s.runners := (writes_expireLeasesLocked now).runners rfl
    rw [← hSweep]
    generalize expireLeasesLocked now s = swept
    right
    unfold claimQueued
    simp only
    split
    · rfl
    split
    · rfl
    split
    · split
      · unfold leaseRun
        simp only
        rw [writes_appendTargetedAudit]
      · rfl
    · split
      · split <;> rfl
      · rfl

theorem same_of_not_written (σ : State) (step : Step) (op : Operation) (h : op.writes .runners = false) :
    RunnersAfter σ step (perform op σ.store).2.runners := by
  rw [(perform_writes op).runners h]
  exact .same

theorem heartbeat_after (request : Nat) (id : String) (now : Time)
    (h : σ.authorizes request (.heartbeatRunner id now) = true) :
    RunnersAfter σ (.act request (.heartbeatRunner id now)) (heartbeatRunner id now σ.store).2.runners := by
  unfold heartbeatRunner
  split
  · exact .same
  · rename_i runner hFind
    have hID : runner.id = id := by simpa using List.find?_some hFind
    exact .replace runner _ _ (replaces_updateFirst _ (fun _ => _) _ _ hFind) rfl
      (fun _ => .inr (.inr ⟨hID.symm, h⟩))

theorem claim_after (step : Step) (id : String) (now ttl : Time) (leaseToken fenceToken : Option String)
    (audit : Option AuditEvent) :
    RunnersAfter σ step (claimRun id now ttl leaseToken fenceToken audit σ.store).2.runners := by
  cases claimRun_runners σ.store id now ttl leaseToken fenceToken audit with
  | inl hSame =>
    rw [hSame]
    exact .same
  | inr hStale =>
    rw [hStale]
    unfold markStale
    cases hFind : σ.store.runners.find? (fun candidate => candidate.id == id) with
    | none =>
      rw [updateFirst_eq_self _ _ _ hFind]
      exact .same
    | some runner =>
      refine .replace runner _ _ (replaces_updateFirst _ _ _ _ hFind) ?_ ?_
      · split <;> rfl
      · split
        · intro hActive
          cases hActive
        · exact fun hActive => .inl hActive

theorem register_after (step : Step) (runner : Runner) (audit : Option AuditEvent) :
    RunnersAfter σ step (registerRunner runner audit σ.store).2.runners := by
  unfold registerRunner
  split
  · exact .same
  · rename_i hNone
    rw [writes_pushOptionalAudit]
    refine .add runner ?_
    intro other hOther hEq
    exact hNone (List.any_eq_true.mpr ⟨other, hOther, beq_iff_eq.mpr hEq⟩)

theorem update_after (id tokenHash : String) (status : RunnerStatus) (now : Time) (audit : Option AuditEvent) :
    RunnersAfter σ (.operate (.updateRunnerToken id tokenHash status now audit))
      (updateRunnerToken id tokenHash status now audit σ.store).2.runners := by
  unfold updateRunnerToken
  split
  · exact .same
  · rename_i runner hFind
    have hID : runner.id = id := by simpa using List.find?_some hFind
    simp only
    rw [writes_pushOptionalAudit]
    exact .replace runner _ _ (replaces_updateFirst _ (fun _ => _) _ _ hFind) rfl
      (fun hActive => .inr (.inl ⟨hID.symm, hActive⟩))

theorem consume_after (step : Step) (consume : RunnerEnrollmentConsume) (audit : AuditEvent) (now : Time) :
    RunnersAfter σ step (σ.consumeRunnerEnrollment consume audit now).2.store.runners := by
  unfold State.consumeRunnerEnrollment
  split
  · exact .same
  split
  · split
    · exact .same
    · split <;> exact .same
  split
  · exact .same
  split
  · exact .same
  · rename_i hNone
    refine .add _ ?_
    intro other hOther hEq
    exact hNone (List.any_eq_true.mpr ⟨other, hOther, beq_iff_eq.mpr hEq⟩)

theorem runners_after (σ : State) (step : Step) : RunnersAfter σ step (σ.step step).store.runners := by
  cases step with
  | authenticate _ =>
    unfold State.step
    simp only
    split <;> exact .same
  | act request op =>
    unfold State.step
    simp only
    split
    · rename_i hAuthorized
      cases op with
      | heartbeatRunner => exact heartbeat_after request _ _ hAuthorized
      | claimRun => exact claim_after ..
      | registerRunner _ _ => cases hAuthorized
      | updateRunnerToken _ _ _ _ _ => cases hAuthorized
      | _ => exact same_of_not_written σ _ _ rfl
    · exact .same
  | operate op =>
    unfold State.step
    simp only
    split
    · rename_i hNobody
      cases op with
      | registerRunner => exact register_after ..
      | updateRunnerToken => exact update_after ..
      | heartbeatRunner _ _ => cases hNobody
      | claimRun _ _ _ _ _ _ => cases hNobody
      | _ => exact same_of_not_written σ _ _ rfl
    · exact .same
  | createEnrollment _ _ =>
    unfold State.step State.createRunnerEnrollment
    simp only
    split <;> exact .same
  | revokeEnrollment _ _ _ =>
    unfold State.step State.revokeRunnerEnrollment
    simp only
    split <;> exact .same
  | consumeEnrollment => exact consume_after ..

theorem keyed_after {runners : List Runner} {step : Step} (h : RunnersAfter σ step runners)
    (hKeyed : Keyed Runner.id σ.store.runners) : Keyed Runner.id runners := by
  cases h with
  | same => exact hKeyed
  | add _ hFresh =>
    refine List.pairwise_append.mpr ⟨hKeyed, List.pairwise_singleton _ _, ?_⟩
    intro other hOther runner' hRunner
    rw [List.mem_singleton.mp hRunner]
    exact hFresh other hOther
  | replace _ _ _ hReplaces hID _ => exact hReplaces.keyed Runner.id hKeyed hID

theorem run_keyed (steps : List Step) (hKeyed : Keyed Runner.id σ.store.runners) :
    Keyed Runner.id (σ.run steps).store.runners := by
  induction steps generalizing σ with
  | nil => exact hKeyed
  | cons step _ ih => exact ih (keyed_after (runners_after σ step) hKeyed)

structure Dormant (σ : State) (r : String) : Prop where
  keyed : Keyed Runner.id σ.store.runners
  known : ∃ runner ∈ σ.store.runners, runner.id = r
  inactive : ¬ σ.Active r

theorem known_after {runners : List Runner} {step : Step} (h : RunnersAfter σ step runners)
    (hKnown : ∃ runner ∈ σ.store.runners, runner.id = r) : ∃ runner ∈ runners, runner.id = r := by
  cases h with
  | same => exact hKnown
  | add _ _ =>
    obtain ⟨known, hMem, hID⟩ := hKnown
    exact ⟨known, List.mem_append_left _ hMem, hID⟩
  | replace _ _ _ hReplaces hID _ => exact hReplaces.exists_key Runner.id hID hKnown

theorem Dormant.step (h : Dormant σ r) (step : Step) (hUpdate : ¬ step.Reactivates r)
    (hHeartbeat : ¬ σ.HeartbeatActs r step) : Dormant (σ.step step) r := by
  have hAfter := runners_after σ step
  refine ⟨keyed_after hAfter h.keyed, known_after hAfter h.known, ?_⟩
  rintro ⟨runner, hMem, hID, hActive⟩
  generalize (σ.step step).store.runners = runners at hAfter hMem
  cases hAfter with
  | same => exact h.inactive ⟨runner, hMem, hID, hActive⟩
  | add _ hFresh =>
    cases List.mem_append.mp hMem with
    | inl hOld => exact h.inactive ⟨runner, hOld, hID, hActive⟩
    | inr hNew =>
      obtain ⟨known, hKnown, hKnownID⟩ := h.known
      rw [List.mem_singleton.mp hNew] at hID
      exact hFresh known hKnown (hKnownID.trans hID.symm)
  | replace old _ _ hReplaces hSameID hStatus =>
    cases hReplaces.mem_or runner hMem with
    | inr hOld => exact h.inactive ⟨runner, hOld, hID, hActive⟩
    | inl hNew =>
      subst hNew
      have hOldID : old.id = r := hSameID.symm.trans hID
      rw [hOldID] at hStatus
      obtain hBefore | hUpdated | hBeat := hStatus hActive
      · exact h.inactive ⟨old, hReplaces.mem_old, hOldID, hBefore⟩
      · exact hUpdate hUpdated
      · exact hHeartbeat hBeat

theorem active_of_claimRun {s : MemoryStore} {runnerID : String} {now ttl : Time}
    {leaseToken fenceToken : Option String} {audit : Option AuditEvent}
    (h : (claimRun runnerID now ttl leaseToken fenceToken audit s).1.isOk = true) :
    ∃ runner ∈ s.runners, runner.id = runnerID ∧ runner.status = .active := by
  unfold claimRun at h
  split at h
  · cases h
  · have hSweep : (expireLeasesLocked now s).runners = s.runners := (writes_expireLeasesLocked now).runners rfl
    rw [← hSweep]
    generalize expireLeasesLocked now s = swept at h
    unfold claimQueued at h
    simp only at h
    split at h
    · cases h
    · rename_i runner hFind
      split at h
      · cases h
      · rename_i hReady
        have hActive : runner.status = .active := by
          by_contra hNot
          exact hReady (by simp [hNot])
        have hID : runner.id = runnerID := by simpa using List.find?_some hFind
        have hMem := List.mem_of_find?_eq_some hFind
        unfold markStale at hMem
        cases hOld : swept.runners.find? (fun candidate => candidate.id == runnerID) with
        | none =>
          rw [updateFirst_eq_self _ _ _ hOld] at hMem
          exact ⟨runner, hMem, hID, hActive⟩
        | some old =>
          cases (replaces_updateFirst _ _ _ _ hOld).mem_or runner hMem with
          | inr hIn => exact ⟨runner, hIn, hID, hActive⟩
          | inl hEq =>
            -- the runner was not marked stale
            split at hEq
            · rw [hEq] at hActive
              cases hActive
            · rw [hEq] at hID hActive
              exact ⟨old, List.mem_of_find?_eq_some hOld, hID, hActive⟩

theorem Dormant.no_claim (h : Dormant σ r) (step : Step) : ¬ σ.ClaimReturns r step := by
  cases step with
  | act _ op =>
    cases op with
    | claimRun _ _ _ _ _ _ =>
      rintro ⟨rfl, -, hOk⟩
      exact h.inactive (active_of_claimRun hOk)
    | _ => exact fun hReturns => hReturns
  | _ => exact fun hReturns => hReturns

theorem active_of_heartbeat (h : Dormant σ r) {step : Step} (hBeat : σ.HeartbeatActs r step) :
    (σ.step step).Active r := by
  cases step with
  | act request op =>
    cases op with
    | heartbeatRunner id now =>
      obtain ⟨rfl, hAuthorized⟩ := hBeat
      obtain ⟨known, hKnown, hID⟩ := h.known
      have hStep : σ.step (.act request (.heartbeatRunner id now)) =
          { σ with
            store := (heartbeatRunner id now σ.store).2
            requests := σ.requests.eraseIdx request } := by
        simp only [State.step, hAuthorized, if_true]
        rfl
      rw [hStep]
      unfold heartbeatRunner
      cases hFind : σ.store.runners.find? (fun runner => runner.id == id) with
      | none => exact absurd (beq_iff_eq.mpr hID) (List.find?_eq_none.mp hFind known hKnown)
      | some runner =>
        have hRunnerID : runner.id = id := by simpa using List.find?_some hFind
        exact ⟨_, (replaces_updateFirst _ (fun _ => _) _ _ hFind).mem_new, hRunnerID, rfl⟩
    | _ => exact hBeat.elim
  | _ => exact hBeat.elim

theorem staysRevoked_iff (h : Dormant σ r) (steps : List Step) (hUpdate : ∀ step ∈ steps, ¬ step.Reactivates r) :
    σ.StaysRevoked r steps ↔ σ.NoHeartbeat r steps := by
  induction steps generalizing σ with
  | nil => exact ⟨fun _ => trivial, fun _ => h.inactive⟩
  | cons step rest ih =>
    obtain ⟨hStep, hRest⟩ := List.forall_mem_cons.mp hUpdate
    constructor
    · rintro ⟨-, -, hLater⟩
      have hQuiet : ¬ σ.HeartbeatActs r step := by
        intro hBeat
        have hActive := active_of_heartbeat h hBeat
        cases rest with
        | nil => exact hLater hActive
        | cons _ _ => exact hLater.1 hActive
      exact ⟨hQuiet, (ih (h.step step hStep hQuiet) hRest).mp hLater⟩
    · rintro ⟨hQuiet, hLater⟩
      exact ⟨h.inactive, h.no_claim step, (ih (h.step step hStep hQuiet) hRest).mpr hLater⟩

theorem dormant_of_revoked (hKeyed : Keyed Runner.id σ.store.runners) {now : Time} {audit : AuditEvent}
    (hOk : (perform (revokeRunnerToken r now audit) σ.store).1.isOk = true) :
    Dormant (σ.step (.operate (revokeRunnerToken r now audit))) r := by
  have hNewKeyed := keyed_after (runners_after σ (.operate (revokeRunnerToken r now audit))) hKeyed
  obtain ⟨revoked, hMem, hID, hStatus⟩ : ∃ revoked ∈ (σ.step (.operate (revokeRunnerToken r now audit))).store.runners,
      revoked.id = r ∧ revoked.status = .revoked := by
    rw [revokeRunnerToken, perform, isOk_answer] at hOk
    show ∃ revoked ∈ (updateRunnerToken r "" .revoked now (some audit) σ.store).2.runners, _
    unfold updateRunnerToken at hOk ⊢
    cases hFind : σ.store.runners.find? (fun runner => runner.id == r) with
    | none =>
      rw [hFind] at hOk
      cases hOk
    | some runner =>
      have hRunnerID : runner.id = r := by simpa using List.find?_some hFind
      exact ⟨_, (replaces_updateFirst _ (fun _ => _) _ _ hFind).mem_new, hRunnerID, rfl⟩
  refine ⟨hNewKeyed, ⟨revoked, hMem, hID⟩, ?_⟩
  rintro ⟨runner, hRunner, hRunnerID, hActive⟩
  rw [hNewKeyed.eq hRunner hMem (hRunnerID.trans hID.symm), hStatus] at hActive
  cases hActive

-- A revoked runner cannot authenticate, so that only requests that were open before can act for it.
theorem Dormant.no_request (h : Dormant σ r) (hNone : r ∉ σ.requests) (step : Step) :
    r ∉ (σ.step step).requests := by
  cases step with
  | authenticate tokenHash =>
    unfold State.step
    simp only
    split
    · rename_i runner hFind
      rw [List.mem_append, List.mem_singleton, not_or]
      refine ⟨hNone, fun hNew => h.inactive ⟨runner, List.mem_of_find?_eq_some hFind, hNew.symm, ?_⟩⟩
      have hActive := List.find?_some hFind
      simp only [Bool.and_eq_true, beq_iff_eq] at hActive
      exact hActive.2
    · exact hNone
  | act request op =>
    unfold State.step
    simp only
    split
    · exact fun hMem => hNone (List.mem_of_mem_eraseIdx hMem)
    · exact hNone
  | operate op =>
    unfold State.step
    simp only
    split <;> exact hNone
  | createEnrollment enrollment audit =>
    unfold State.step State.createRunnerEnrollment
    simp only
    split <;> exact hNone
  | revokeEnrollment enrollmentID audit now =>
    unfold State.step State.revokeRunnerEnrollment
    simp only
    split <;> exact hNone
  | consumeEnrollment consume audit now =>
    have hSame : (σ.consumeRunnerEnrollment consume audit now).2.requests = σ.requests := by
      unfold State.consumeRunnerEnrollment
      split
      · rfl
      split
      · split
        · rfl
        · split <;> rfl
      split
      · rfl
      · split <;> rfl
    exact hSame.symm ▸ hNone

theorem noHeartbeat_of_no_request (h : Dormant σ r) (hNone : r ∉ σ.requests) (steps : List Step)
    (hUpdate : ∀ step ∈ steps, ¬ step.Reactivates r) : σ.NoHeartbeat r steps := by
  induction steps generalizing σ with
  | nil => trivial
  | cons step _ ih =>
    obtain ⟨hStep, hRest⟩ := List.forall_mem_cons.mp hUpdate
    have hQuiet : ¬ σ.HeartbeatActs r step := by
      cases step with
      | act request op =>
        cases op with
        | heartbeatRunner id now =>
          rintro ⟨rfl, hAuthorized⟩
          exact hNone (List.mem_of_getElem? (eq_of_beq hAuthorized))
        | _ => exact fun hBeat => hBeat
      | _ => exact fun hBeat => hBeat
    exact ⟨hQuiet, ih (h.step step hStep hQuiet) (h.no_request hNone step) hRest⟩

end

-- After a revocation and until its token is updated again, a runner stays revoked exactly if no heartbeat
-- that it authenticated before acts.
theorem revocation_final_iff (before after : List Step) (r : String) (now : Time) (audit : AuditEvent)
    (hOk : (perform (revokeRunnerToken r now audit) (State.run {} before).store).1.isOk = true)
    (hUntil : ∀ step ∈ after, ¬ step.Reactivates r) :
    ((State.run {} before).step (.operate (revokeRunnerToken r now audit))).StaysRevoked r after ↔
      ((State.run {} before).step (.operate (revokeRunnerToken r now audit))).NoHeartbeat r after := by
  have hKeyed : Keyed Runner.id (State.run {} before).store.runners := run_keyed before List.Pairwise.nil
  exact staysRevoked_iff (dormant_of_revoked hKeyed hOk) after hUntil

def sampleRunner : Runner :=
  { id := "runner", name := "runner", tags := [], capabilities := ["shell"], tokenHash := "hash", status := .active,
    registeredAt := 0, lastHeartbeatAt := 0 }

def sampleAudit : AuditEvent :=
  { id := "audit", actorID := "admin", action := "runner.token.revoke", targetID := "runner", createdAt := 1 }

def authenticated : List Step := [.operate (.registerRunner sampleRunner none), .authenticate "hash"]

theorem revoked_claim_refused :
    (perform (revokeRunnerToken "runner" 1 sampleAudit) (State.run {} authenticated).store).1.isOk = true ∧
      ((State.run {} authenticated).step (.operate (revokeRunnerToken "runner" 1 sampleAudit))).StaysRevoked "runner"
        [.act 0 (.claimRun "runner" 2 10 (some "lease") (some "fence") none)] := by
  have hOk : (perform (revokeRunnerToken "runner" 1 sampleAudit) (State.run {} authenticated).store).1.isOk = true :=
    rfl
  refine ⟨hOk, (revocation_final_iff authenticated _ "runner" 1 sampleAudit hOk ?_).mpr ?_⟩
  · intro step hStep
    rw [List.mem_singleton.mp hStep]
    exact fun h => h
  · exact ⟨fun h => h, trivial⟩

-- A heartbeat that was authenticated before the revocation makes the runner active again.
theorem heartbeat_revives_runner :
    (perform (revokeRunnerToken "runner" 1 sampleAudit) (State.run {} authenticated).store).1.isOk = true ∧
      ¬ ((State.run {} authenticated).step (.operate (revokeRunnerToken "runner" 1 sampleAudit))).StaysRevoked "runner"
        [.act 0 (.heartbeatRunner "runner" 2)] := by
  refine ⟨rfl, ?_⟩
  intro h
  exact h.2.2 ⟨{ sampleRunner with tokenHash := "", status := .active, lastHeartbeatAt := 2 }, by decide, rfl, rfl⟩

end NeroCD.Store.Revocation
