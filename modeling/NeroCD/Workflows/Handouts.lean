import NeroCD.Workflows.Invariant

-- Claims of the service: which run is taken, which step of it is started, and that the invariant holds afterwards.

namespace NeroCD.Workflows

open NeroCD.Checks NeroCD.Domain NeroCD.GoStrings NeroCD.Records NeroCD.Store

section

variable {sys : System} {input : ClaimRequest} {h : History} {s t : MemoryStore}

theorem createRunLog_eq (log : RunLog) (s : MemoryStore) :
    (createRunLog log s).2 = { s with logs := (createRunLog log s).2.logs } := by
  unfold createRunLog
  split
  · rfl
  · split <;> rfl

-- The step states are written twice, and only the second write counts.
theorem markWorkflowStepRunning_spec (input : ClaimRequest) {run : TaskRun} (hFree : t.deployments = [])
    (hFind : t.runs.find? (fun r => r.id == run.id) = some run) :
    ∃ runs logs, markWorkflowStepRunning input true run t =
        (.ok (startedRun input.startedAt run), { t with runs := runs, logs := logs }) ∧
      Replaces run (startedRun input.startedAt run) t.runs runs := by
  have hSelf := Replaces.self (List.mem_of_find?_eq_some hFind)
  unfold markWorkflowStepRunning startedRun nextStep
  cases nextWorkflowStepIndex run with
  | none => exact ⟨t.runs, t.logs, rfl, hSelf⟩
  | some index =>
    simp only [Option.bind_some]
    cases run.workflow.steps[index]? with
    | none => exact ⟨t.runs, t.logs, rfl, hSelf⟩
    | some step =>
      simp only [if_true, Option.map_some]
      generalize startedState run index step input.startedAt = state
      have hBacked : (writeSteps run.id state.steps t).deploymentBackedRunLocked run.id = false := by
        simp [writeSteps, MemoryStore.deploymentBackedRunLocked, hFree]
      have hWritten : (writeSteps run.id state.steps t).runs.find? (fun r => r.id == run.id) =
          some { run with workflowState := { run.workflowState with steps := state.steps } } :=
        find?_updateFirst_self _ _ _ _ hFind (beq_self_eq_true _)
      unfold updateRunWorkflowState
      rw [if_neg (Bool.eq_false_iff.mp hBacked), hWritten]
      refine ⟨_, _, congrArg (Prod.mk _) (createRunLog_eq _ _), ?_⟩
      have hTwice := updateFirst_updateFirst (fun r => r.id == run.id)
        (fun r => { r with workflowState := { r.workflowState with steps := state.steps } })
        (fun _ => { run with workflowState := state }) t.runs fun _ hFound => hFound
      exact hTwice ▸ replaces_updateFirst _ _ _ _ hFind

variable {claim : ClaimedRun} {r : TaskRun}

theorem startClaim_spec (registry : Registry) (input : ClaimRequest) (hFree : t.deployments = [])
    (hFind : t.runs.find? (fun r => r.id == claim.run.id) = some claim.run)
    (hGeneric : (validateGenericRunDefinition claim.run.runSpec claim.run.workflow).isOk = true)
    (hLength : claim.run.workflowState.steps.length = claim.run.workflow.steps.length) :
    (∃ runs logs, (startClaim registry input claim t).2 = { t with runs := runs, logs := logs } ∧
      Replaces claim.run (startedRun input.startedAt claim.run) t.runs runs) ∧
    ∀ handout, (startClaim registry input claim t).1 = .ok handout →
      handout.claim.run = startedRun input.startedAt claim.run ∧
        handout.executable = executableRunForWorkflowStep (startedRun input.startedAt claim.run) := by
  have hEnsured : ensureWorkflowState claim.run = claim.run := by
    unfold ensureWorkflowState
    rw [hLength]
    simp
  obtain ⟨runs, logs, hMark, hReplaces⟩ := markWorkflowStepRunning_spec input hFree hFind
  unfold startClaim
  rw [hGeneric, Bool.not_true, if_neg Bool.false_ne_true, hEnsured, hLength, beq_self_eq_true]
  simp only [hMark]
  cases registry.buildPlan (executableRunForWorkflowStep (startedRun input.startedAt claim.run)) with
  | error e =>
    refine ⟨⟨runs, logs, rfl, hReplaces⟩, ?_⟩
    intro handout hOk
    cases hOk
  | ok _ =>
    refine ⟨⟨runs, _, createRunLog_eq _ _, hReplaces⟩, ?_⟩
    intro handout hOk
    cases hOk
    exact ⟨rfl, rfl⟩

theorem swept_taken (hKept : Kept h s) (hTaken : ClaimTaken input.runnerID input.now s t claim r) :
    RunKept { h with expired := overdueRuns input.now s ++ h.expired } r := by
  refine hKept.swept_runs _ (fun runID hEither => ?_) hTaken.runs.mem_old rfl rfl
  rwa [List.mem_append, mem_overdueRuns]

structure HandsOut (sys : System) (input : ClaimRequest) (s t : MemoryStore) (claim : ClaimedRun) (r : TaskRun) :
    Prop where
  taken : ClaimTaken input.runnerID input.now s t claim r
  expires : (Call.claim input).expires s = overdueRuns input.now s
  starts : claimStarts input s = (nextStep claim.run).map (fun next => (claim.run.id, next.2.id))
  keyed : Keyed (fun r : TaskRun => r.id) t.runs
  written : ∃ runs logs, sys.step (.claim input) s = { t with runs := runs, logs := logs } ∧
    Replaces claim.run (startedRun input.startedAt claim.run) t.runs runs
  handout : ∀ handout, (claimRun sys.registry sys.typed input s).1 = .ok handout →
    handout.claim.run = startedRun input.startedAt claim.run ∧
      handout.executable = executableRunForWorkflowStep (startedRun input.startedAt claim.run)

theorem claimRun_handsOut (sys : System) (hKept : Kept h s) {auditID : String}
    (hAudit : input.auditID = some auditID)
    (hClaim : Store.claimRun input.runnerID input.now input.ttl input.leaseToken input.fenceToken
      (some (input.audit auditID)) s = (.ok claim, t)) (hSound : t.authority.Sound runDiscipline)
    (hFree : t.deployments = []) : ∃ r, HandsOut sys input s t claim r := by
  obtain ⟨hNew, r, hTaken⟩ := claimRun_taken hClaim
  obtain ⟨hSpec, hWorkflow, hState⟩ : claim.run.runSpec = r.runSpec ∧ claim.run.workflow = r.workflow ∧
      claim.run.workflowState = r.workflowState := by
    rw [hTaken.run]
    exact ⟨rfl, rfl, rfl⟩
  have hSwept := swept_taken hKept hTaken
  have hFind : t.runs.find? (fun r => r.id == claim.run.id) = some claim.run :=
    Keyed.find?_eq hSound.exclusive.keyed hTaken.runs.mem_new (beq_self_eq_true _) fun _ _ hEq => beq_iff_eq.mp hEq
  have hLength : claim.run.workflowState.steps.length = claim.run.workflow.steps.length := by
    have hIDs := congrArg List.length hSwept.ids
    rwa [List.length_map, List.length_map, ← hWorkflow, ← hState] at hIDs
  have hEnsured : ensureWorkflowState claim.run = claim.run := by
    unfold ensureWorkflowState
    rw [hLength]
    simp
  have hTyped : typedClaimTypes.contains claim.run.runSpec.type = false := by
    rw [hSpec]
    simpa using hSwept.generic
  have hGeneric : (validateGenericRunDefinition claim.run.runSpec claim.run.workflow).isOk = true := by
    rw [hSpec, hWorkflow]
    refine hTaken.allowed fun hCompose => hSwept.generic ?_
    rw [hCompose]
    decide
  have hService : claimRun sys.registry sys.typed input s = startClaim sys.registry input claim t := by
    unfold claimRun
    simp only [hAudit, hClaim, hTyped, Bool.false_eq_true, if_false]
  obtain ⟨hWritten, hHandout⟩ := startClaim_spec sys.registry input hFree hFind hGeneric hLength
  refine ⟨r, hTaken, ?_, ?_, hSound.exclusive.keyed, ?_, ?_⟩
  · simp only [Call.expires, hAudit, hNew, Bool.false_eq_true, if_false]
  · simp only [claimStarts, hAudit, hClaim, hEnsured]
  · rw [← hService] at hWritten
    exact hWritten
  · rw [hService]
    exact hHandout

theorem startedRun_spec (startedAt : Time) (run : TaskRun) :
    (startedRun startedAt run).id = run.id ∧ (startedRun startedAt run).runSpec = run.runSpec ∧
      (startedRun startedAt run).workflow = run.workflow ∧ (startedRun startedAt run).status = run.status ∧
      (startedRun startedAt run).runnerID = run.runnerID ∧
      (startedRun startedAt run).workflowState.steps.map (fun x => x.id) =
        run.workflowState.steps.map (fun x => x.id) := by
  unfold startedRun
  split
  · exact ⟨rfl, rfl, rfl, rfl, rfl, rfl⟩
  · exact ⟨rfl, rfl, rfl, rfl, rfl, ids_modify _ _ (startedStep startedAt) fun _ => rfl⟩

theorem nextStep_of_tracks {handed : List String} (hTracks : Tracks r handed) (hQueued : r.status = .queued) :
    ∃ i step, nextStep r = some (i, step) ∧ r.workflow.steps[i]? = some step ∧
      r.workflow.steps.find? (stepReady r.workflowState) = some step ∧ step.id ∉ handed ∧
        ∀ dep ∈ step.dependsOn, dep ∈ handed := by
  obtain ⟨hSteps, hOpen, -⟩ := hTracks.of_queued hQueued
  obtain ⟨i, step, hNext, hStep, hFind, hNew, hDeps⟩ := hTracks.next hSteps hOpen
  refine ⟨i, step, ?_, hStep, hFind, hNew, hDeps⟩
  simp [nextStep, hNext, hStep]

section

variable {claim : ClaimedRun} {r : TaskRun}

theorem HandsOut.nextStep_eq (hHands : HandsOut sys input s t claim r) : nextStep claim.run = nextStep r := by
  rw [hHands.taken.run]
  rfl

theorem HandsOut.mem_runs (hHands : HandsOut sys input s t claim r) (hSound : s.authority.Sound runDiscipline)
    {r' : TaskRun} (hr' : r' ∈ (sys.step (.claim input) s).runs) :
    r' = startedRun input.startedAt claim.run ∨ (r' ∈ (expireLeasesLocked input.now s).runs ∧ r'.id ≠ r.id) := by
  obtain ⟨runs, logs, hStep, hReplaces⟩ := hHands.written
  rw [hStep] at hr'
  have hKeyed := keyed_swept input.now hSound
  have hID : claim.run.id = r.id := by rw [hHands.taken.run]
  refine (hReplaces.mem_keyed _ hHands.keyed r' hr').imp_right ?_
  rintro ⟨hOld, hOther⟩
  obtain rfl | hSwept := hHands.taken.runs.mem_keyed _ hKeyed r' hOld
  · exact absurd rfl hOther
  · exact hSwept

theorem HandsOut.run_eq (hHands : HandsOut sys input s t claim r) (hSound : s.authority.Sound runDiscipline)
    {q : TaskRun} (hq : q ∈ s.runs) (hID : r.id = q.id) (hSpared : ¬ Overdue input.now s q.id) : r = q := by
  obtain ⟨q', hq', hMoves⟩ := exists_of_forall₂_left (swept_runs input.now) q hq
  have hSame : q' = q := (swept_run hMoves).2.2.2.2 hSpared
  exact (keyed_swept input.now hSound).eq hHands.taken.runs.mem_old (hSame ▸ hq') hID

theorem HandsOut.nextStep_before (hHands : HandsOut sys input s t claim r) (hSound : s.authority.Sound runDiscipline)
    {q : TaskRun} (hq : q ∈ s.runs) (hID : r.id = q.id) : nextStep r = nextStep q := by
  obtain ⟨q', hq', hMoves⟩ := exists_of_forall₂_left (swept_runs input.now) q hq
  obtain ⟨hSameID, hWorkflow, hState, -⟩ := swept_run hMoves
  rw [(keyed_swept input.now hSound).eq hHands.taken.runs.mem_old hq' (hID.trans hSameID.symm)]
  unfold nextStep nextWorkflowStepIndex
  rw [hWorkflow, hState]

theorem HandsOut.ids (hHands : HandsOut sys input s t claim r) :
    (sys.step (.claim input) s).runs.map (fun r => r.id) = s.runs.map (fun r => r.id) := by
  obtain ⟨runs, logs, hStep, hReplaces⟩ := hHands.written
  have hID : claim.run.id = r.id := by rw [hHands.taken.run]
  rw [hStep, hReplaces.map_eq _ (startedRun_spec _ _).1, hHands.taken.runs.map_eq _ hID, swept_ids]

theorem HandsOut.followed (hHands : HandsOut sys input s t claim r)
    (hFollowed : Followed { h with expired := overdueRuns input.now s ++ h.expired } r) :
    Followed (h.after s (.claim input)) (startedRun input.startedAt claim.run) := by
  have hQueued := hHands.taken.queued
  obtain ⟨i, step, hNext, hStep, -, hNew, -⟩ := nextStep_of_tracks hFollowed.tracks hQueued
  have hNextClaim := hHands.nextStep_eq.trans hNext
  have hRun : startedRun input.startedAt claim.run = { r with
      status := .running
      runnerID := claim.run.runnerID
      workflowState := startedState r i step input.startedAt } := by
    unfold startedRun
    rw [hNextClaim]
    simp only
    rw [hHands.taken.run]
    rfl
  have hStarted : (h.after s (.claim input)).startedOf r.id = step.id :: h.startedOf r.id := by
    have hID : claim.run.id = r.id := by rw [hHands.taken.run]
    show entriesOf r.id ((claimStarts input s).toList ++ h.started) = _
    rw [hHands.starts, hNextClaim, hID]
    exact entriesOf_cons_self _
  rw [hRun]
  refine ⟨?_, fun _ _ => ?_⟩
  · show Tracks _ ((h.after s (.claim input)).startedOf r.id)
    rw [hStarted]
    exact hFollowed.tracks.started hQueued hStep hNew _ _
  · show (h.completionsOf r.id).length + 1 = ((h.after s (.claim input)).startedOf r.id).length
    have hCounted := hFollowed.counted (by simp [hQueued]) (by simp [hQueued])
    rw [hStarted, List.length_cons]
    rw [if_neg (by simp [hQueued]), Nat.add_zero] at hCounted
    exact congrArg (· + 1) hCounted

end

theorem Kept.handedOut (hKept : Kept h s) (hHands : HandsOut sys input s t claim r)
    (hSound : t.authority.Sound runDiscipline) (hFree : t.deployments = []) :
    Kept (h.after s (.claim input)) (sys.step (.claim input) s) := by
  have hID : claim.run.id = r.id := by rw [hHands.taken.run]
  have hExpired (runID : String) : Overdue input.now s runID ∨ runID ∈ h.expired ↔
      runID ∈ (h.after s (.claim input)).expired := by
    rw [History.after, List.mem_append, hHands.expires, mem_overdueRuns]
  obtain ⟨hSameID, hSameSpec, hSameWorkflow, hSameStatus, hSameRunner, hSameIDs⟩ :=
    startedRun_spec input.startedAt claim.run
  have hKnown : r.id ∈ s.runs.map (fun r => r.id) := by
    rw [← swept_ids input.now]
    exact List.mem_map.mpr ⟨r, hHands.taken.runs.mem_old, rfl⟩
  refine ⟨?_, ?_, ?_, ?_, ?_, ?_⟩
  · obtain ⟨runs, logs, hStep, hReplaces⟩ := hHands.written
    rw [hStep]
    have hEdit : Effect runDiscipline t.authority { t.authority with runs := runs } :=
      .editRun _ _ runs hReplaces ⟨hSameID, hSameSpec⟩ (.inl ⟨hSameStatus, hSameRunner⟩)
    exact hEdit.sound hSound
  · obtain ⟨runs, logs, hStep, -⟩ := hHands.written
    rw [hStep]
    exact hFree
  · intro r' hr'
    obtain rfl | ⟨hOld, hOther⟩ := hHands.mem_runs hKept.sound hr'
    · refine (swept_taken hKept hHands.taken).change (hSameID.trans hID) ?_ ?_ ?_ ?_ ?_
      · rw [hSameSpec, hHands.taken.run]
      · rw [hSameWorkflow, hHands.taken.run]
      · rw [hSameIDs, hHands.taken.run]
      · intro runID hMem
        rw [← hExpired, ← mem_overdueRuns]
        exact List.mem_append.mp hMem
      · intro _ _ hFollowed
        exact hHands.followed hFollowed
    · refine hKept.swept_runs _ (fun runID => (hExpired runID).mp) hOld ?_ rfl
      show entriesOf r'.id ((claimStarts input s).toList ++ h.started) = _
      rw [hHands.starts]
      cases nextStep claim.run with
      | none => rfl
      | some _ => exact entriesOf_cons_of_ne _ (hID ▸ hOther.symm)
  · intro l hl hKey hSpared
    rw [← hExpired, not_or] at hSpared
    have hLeases : l ∈ (expireLeasesLocked input.now s).leases ∨ l = claim.lease := by
      obtain ⟨runs, logs, hStep, -⟩ := hHands.written
      rw [hStep] at hl
      exact (List.mem_append.mp (hHands.taken.leases ▸ hl)).imp_right List.mem_singleton.mp
    obtain hOld | rfl := hLeases
    · refine (hKept.swept_leases hOld hKey hSpared.1 hSpared.2).imp_right ?_
      intro hCanceled r' hr' hRun
      obtain rfl | ⟨hSwept, -⟩ := hHands.mem_runs hKept.sound hr'
      · -- the run that was claimed was queued
        have hStatus := hCanceled r hHands.taken.runs.mem_old ((hSameID.trans hID).symm.trans hRun)
        rw [hHands.taken.queued] at hStatus
        cases hStatus
      · exact hCanceled r' hSwept hRun
    · exact .inl hHands.taken.lease.2
  · intro entry hEntry
    rw [hHands.ids]
    cases List.mem_append.mp hEntry with
    | inl hNew =>
      rw [Call.starts, hHands.starts, Option.mem_toList, Option.map_eq_some_iff] at hNew
      obtain ⟨next, -, rfl⟩ := hNew
      rw [hID]
      exact hKnown
    | inr hOld => exact hKept.started entry hOld
  · intro entry hEntry
    rw [hHands.ids]
    exact hKept.completed entry hEntry

theorem Kept.claim_store (hKept : Kept h s) (hAdmitted : Call.Admitted s (.claim input)) {auditID : String}
    {result : Except StoreError ClaimedRun}
    (hClaim : Store.claimRun input.runnerID input.now input.ttl input.leaseToken input.fenceToken
      (some (input.audit auditID)) s = (result, t)) : t.authority.Sound runDiscipline ∧ t.deployments = [] := by
  have hStore : (Store.claimRun input.runnerID input.now input.ttl input.leaseToken input.fenceToken
      (some (input.audit auditID)) s).2 = t := by rw [hClaim]
  rw [← hStore]
  refine ⟨?_, claimRun_deployments _ _ _ _ _ _ hKept.free⟩
  exact perform_sound (.claimRun _ _ _ _ _ _) hKept.sound hAdmitted (fun _ => trivial) False.elim (.inl trivial)
    (fun _ _ _ => trivial) (fun _ _ _ => trivial)

theorem Kept.claimed (hKept : Kept h s) (hAdmitted : Call.Admitted s (.claim input)) :
    Kept (h.after s (.claim input)) (sys.step (.claim input) s) := by
  cases hAudit : input.auditID with
  | none =>
    have hStep : sys.step (.claim input) s = s := by simp only [System.step, claimRun, hAudit]
    have hStarts : (Call.claim input).starts s = none := by simp only [Call.starts, claimStarts, hAudit]
    rw [hStep]
    exact hKept.unchanged hStarts rfl hKept.sound rfl rfl rfl
  | some auditID =>
    cases hClaim : Store.claimRun input.runnerID input.now input.ttl input.leaseToken input.fenceToken
      (some (input.audit auditID)) s with
    | mk result t =>
      obtain ⟨hSound, hFree⟩ := hKept.claim_store hAdmitted hClaim
      cases result with
      | ok _ =>
        obtain ⟨r, hHands⟩ := claimRun_handsOut sys hKept hAudit hClaim hSound hFree
        exact hKept.handedOut hHands hSound hFree
      | error e =>
        have hStep : sys.step (.claim input) s = t := by simp only [System.step, claimRun, hAudit, hClaim]
        have hStarts : (Call.claim input).starts s = none := by
          simp only [Call.starts, claimStarts, hAudit, hClaim]
        rw [hStep]
        obtain ⟨-, rfl⟩ | ⟨hNew, hRuns, hLeases⟩ := claimRun_refused hClaim
        · exact hKept.unchanged hStarts rfl hKept.sound rfl rfl rfl
        · refine hKept.sweep input.now hStarts rfl ?_ hSound hRuns hLeases hFree
          simp only [Call.expires, hAudit, hNew, Bool.false_eq_true, if_false]

theorem Kept.handout {handout : Handout} (hKept : Kept h s) (hAdmitted : Call.Admitted s (.claim input))
    (hOk : (claimRun sys.registry sys.typed input s).1 = .ok handout) :
    ∃ t claim r, HandsOut sys input s t claim r := by
  unfold claimRun at hOk
  split at hOk
  · cases hOk
  rename_i auditID hAudit
  split at hOk
  · cases hOk
  rename_i claim t hClaim
  obtain ⟨hSound, hFree⟩ := hKept.claim_store hAdmitted hClaim
  obtain ⟨r, hHands⟩ := claimRun_handsOut sys hKept hAudit hClaim hSound hFree
  exact ⟨t, claim, r, hHands⟩

end

end NeroCD.Workflows
