import NeroCD.Workflows.Completions
import NeroCD.Workflows.Handouts

-- Workflow runs over whole sequences of calls.

namespace NeroCD.Workflows

open NeroCD.Checks NeroCD.Domain NeroCD.GoStrings NeroCD.Records NeroCD.Store

variable {sys : System} {h : History} {s : MemoryStore}

theorem kept_newMemoryStore : Kept {} newMemoryStore where
  sound := sound_newMemoryStore _
  free := rfl
  runs := fun _ hr => nomatch hr
  leases := fun _ hl => nomatch hl
  started := fun _ hEntry => nomatch hEntry
  completed := fun _ hEntry => nomatch hEntry

theorem Reached.kept (hReached : Reached sys h s) : Kept h s := by
  induction hReached with
  | start => exact kept_newMemoryStore
  | step h s call _ hAdmitted ih =>
    cases call with
    | request => exact ih.requested _ hAdmitted
    | claim _ => exact ih.claimed hAdmitted
    | complete => exact ih.complete ..
    | operate _ => exact ih.operated hAdmitted

def sampleSystem : System where
  registry :=
    { buildPlan := fun run => .ok (primitivePlanForRun run)
      validateRunSpecPlans := fun _ => .ok ()
      validateWorkflowPlans := fun _ => .ok ()
      validateRepositoryURL := fun _ => .ok ()
      validateSecretBinding := fun _ => .ok ()
      toLower := fun text => text.map Char.toLower }
  typed := .ok

def sampleRequest (steps : List WorkflowStep) : RunRequest :=
  { projectID := "project", runSpec := { type := "shell" }, workflow := { steps := steps }, principalID := "user"
    now := 0, runID := "run", logID := "log", approvalID := "approval", auditID := "request" }

def sampleClaim (runnerID token : String) (now : Time) : ClaimRequest :=
  { runnerID := runnerID, ttl := 10, now := now, startedAt := now, claimedAt := now, leaseToken := some token
    fenceToken := some token, auditID := some token, stepLogID := token, claimLogID := token }

def sampleCompletion (runnerID token : String) (attempt : Int) (now : Time) : CompleteRequest :=
  { leaseID := token, runnerID := runnerID, status := "succeeded", attempt := attempt, fence := token
    completionKey := some token, now := now, logID := some token, nextLogID := some token
    auditID := some (token ++ " completed") }

def sampleRunnerFor (id : String) (capabilities : List String) : Runner :=
  { id := id, name := id, tags := [], capabilities := capabilities, tokenHash := "", status := .active
    registeredAt := 0, lastHeartbeatAt := 0 }

-- A run succeeds only with all its steps, if no lease of it expired.
theorem succeeded_run_steps (hReached : Reached sys h s) {r : TaskRun} (hr : r ∈ s.runs) (hSpared : r.id ∉ h.expired)
    (hStatus : r.status = .succeeded) : ∀ x ∈ r.workflowState.steps, x.status = .succeeded := by
  have hKept := hReached.kept.runs r hr
  by_cases hSteps : r.workflow.steps = []
  · have hNone : r.workflowState.steps = [] := by
      have hIDs := hKept.ids
      rw [hSteps] at hIDs
      exact List.map_eq_nil_iff.mp hIDs
    rw [hNone]
    exact fun x hx => nomatch hx
  · exact (hKept.followed hSteps hSpared).tracks.of_succeeded hStatus

def sampleStep (id type : String) (dependsOn : List String) : WorkflowStep :=
  { id := id, name := "", runSpec := { type := type }, dependsOn := dependsOn }

def sampleStart (steps : List WorkflowStep) : List Call :=
  [.request (sampleRequest steps), .operate (.registerRunner (sampleRunnerFor "runner" ["shell", "ansible"]) none)]

def sampleDeploy : List Call :=
  sampleStart [sampleStep "build" "shell" [], sampleStep "deploy" "ansible" ["build"]] ++
    [.claim (sampleClaim "runner" "first" 1), .complete (sampleCompletion "runner" "first" 1 5)]

theorem build_run_succeeded :
    ∃ h s, Reached sampleSystem h s ∧ ∃ r ∈ s.runs, r.id ∉ h.expired ∧ r.status = .succeeded ∧
      r.workflowState.steps.length = 2 ∧ ∀ x ∈ r.workflowState.steps, x.status = .succeeded := by
  obtain ⟨h, s, hReached, hHolds⟩ := Reached.of_follow sampleSystem
    (sampleDeploy ++
      [.claim (sampleClaim "runner" "second" 6), .complete (sampleCompletion "runner" "second" 2 8)])
    (fun state => state.2.runs.any fun r =>
      decide (r.id ∉ state.1.expired ∧ r.status = .succeeded ∧ r.workflowState.steps.length = 2)) (by decide +kernel)
  simp only [List.any_eq_true, decide_eq_true_eq] at hHolds
  obtain ⟨r, hr, hSpared, hStatus, hLength⟩ := hHolds
  exact ⟨h, s, hReached, r, hr, hSpared, hStatus, hLength, succeeded_run_steps hReached hr hSpared hStatus⟩

-- The lease of the first of two independent steps expires. The next claim starts the second one, and its
-- completion finds no step that is still pending.
theorem expired_step_forgotten :
    ∃ h s, Reached sampleSystem h s ∧
      ∃ r ∈ s.runs, r.status = .succeeded ∧ ∃ x ∈ r.workflowState.steps, x.status = .running := by
  obtain ⟨h, s, hReached, hHolds⟩ := Reached.of_follow sampleSystem
    (sampleStart [sampleStep "build" "shell" [], sampleStep "test" "shell" []] ++
      [.claim (sampleClaim "runner" "first" 1), .claim (sampleClaim "runner" "second" 20),
       .complete (sampleCompletion "runner" "second" 2 25)])
    (fun state => state.2.runs.any fun r =>
      decide (r.status = .succeeded ∧ ∃ x ∈ r.workflowState.steps, x.status = .running)) (by decide +kernel)
  simp only [List.any_eq_true, decide_eq_true_eq] at hHolds
  exact ⟨h, s, hReached, hHolds⟩

theorem nextStep_some {run : TaskRun} {i : Nat} {step : WorkflowStep} (hNext : nextStep run = some (i, step)) :
    run.workflow.steps[i]? = some step ∧ run.workflow.steps.find? (stepReady run.workflowState) = some step := by
  unfold nextStep nextWorkflowStepIndex at hNext
  rw [Option.bind_eq_some_iff] at hNext
  obtain ⟨j, hIndex, hStep⟩ := hNext
  rw [Option.map_eq_some_iff] at hStep
  obtain ⟨found, hFound, hEq⟩ := hStep
  cases hEq
  refine ⟨hFound, ?_⟩
  rw [List.find?_eq_bind_findIdx?_getElem?, hIndex]
  exact hFound

theorem nextStep_none {run : TaskRun} (hNext : nextStep run = none) :
    run.workflow.steps.find? (stepReady run.workflowState) = none := by
  rw [List.find?_eq_none]
  intro step hStep hReady
  unfold nextStep nextWorkflowStepIndex at hNext
  cases hIndex : run.workflow.steps.findIdx? (stepReady run.workflowState) with
  | none =>
    rw [List.findIdx?_eq_none_iff] at hIndex
    rw [hIndex step hStep] at hReady
    cases hReady
  | some i =>
    obtain ⟨hBound, -⟩ := List.findIdx?_eq_some_iff_getElem.mp hIndex
    simp [hIndex, hBound] at hNext

theorem executable_of_next {run : TaskRun} (hNormalized : Normalized run.workflow.steps) {i : Nat}
    {step : WorkflowStep} (hNext : nextStep run = some (i, step)) (startedAt : Time) :
    (executableRunForWorkflowStep (startedRun startedAt run)).runSpec = step.runSpec := by
  have hStep := List.mem_of_getElem? (nextStep_some hNext).1
  have hFind : run.workflow.steps.find? (fun other => other.id == step.id) = some step :=
    Keyed.find?_eq ((keyed_iff_nodup _ _).mpr hNormalized.ids) hStep (beq_self_eq_true _)
      fun _ _ hEq => beq_iff_eq.mp hEq
  have hSome : (run.workflow.steps.length == 0) = false := by
    simpa using List.ne_nil_of_mem hStep
  have hNamed : (trimSpace step.id == "") = false := by simpa using hNormalized.named step hStep
  unfold startedRun
  rw [hNext]
  unfold executableRunForWorkflowStep startedState
  simp only [hSome, hNamed, hFind, Bool.or_self, Bool.false_eq_true, if_false]

-- A claim hands out a run of a type that its runner can execute, whenever a step of the run is ready, and whenever no
-- lease of the run expired.
theorem handout_capability (hReached : Reached sys h s) {input : ClaimRequest}
    (hAdmitted : Call.Admitted s (.claim input)) {handout : Handout}
    (hOk : (claimRun sys.registry sys.typed input s).1 = .ok handout)
    (hOrderly : (∃ r ∈ s.runs, r.id = handout.claim.run.id ∧ (nextWorkflowStepIndex r).isSome = true) ∨
      handout.claim.run.id ∉ (h.after s (.claim input)).expired) :
    ∃ runner, s.runners.find? (fun runner => runner.id == input.runnerID) = some runner ∧
      runner.capabilities.contains handout.executable.runSpec.type = true := by
  have hKept := hReached.kept
  obtain ⟨t, claim, r, hHands⟩ := hKept.handout hAdmitted hOk
  obtain ⟨hRun, hExecutable⟩ := hHands.handout handout hOk
  obtain ⟨runner, hRunner, hCapable⟩ := hHands.taken.capable
  refine ⟨runner, hRunner, ?_⟩
  have hSwept := swept_taken hKept hHands.taken
  suffices hType : claimRunType r = handout.executable.runSpec.type by rwa [← hType]
  unfold claimRunType
  rw [hExecutable]
  cases hNext : nextStep r with
  | some next =>
    obtain ⟨i, step⟩ := next
    have hNormalized : Normalized claim.run.workflow.steps := by
      rw [hHands.taken.run]
      exact hSwept.normalized
    rw [executable_of_next hNormalized (hHands.nextStep_eq.trans hNext), (nextStep_some hNext).2]
  | none =>
    -- nothing is started, so that the run has no steps
    rw [nextStep_none hNext]
    have hSpared : r.id ∉ overdueRuns input.now s ++ h.expired := by
      rw [hRun, (startedRun_spec _ _).1, hHands.taken.run] at hOrderly
      obtain ⟨q, hq, hID, hSome⟩ | hSpared := hOrderly
      · rw [hHands.nextStep_before hKept.sound hq hID.symm] at hNext
        rw [nextWorkflowStepIndex, List.findIdx?_isSome, List.any_eq_true] at hSome
        obtain ⟨step, hStep, hReady⟩ := hSome
        exact absurd hReady (List.find?_eq_none.mp (nextStep_none hNext) step hStep)
      · rwa [← hHands.expires]
    have hSteps : claim.run.workflow.steps = [] := by
      rw [hHands.taken.run]
      by_contra hSteps
      obtain ⟨i, step, hSome, -⟩ := nextStep_of_tracks (hSwept.followed hSteps hSpared).tracks hHands.taken.queued
      rw [hNext] at hSome
      cases hSome
    unfold startedRun
    rw [hHands.nextStep_eq, hNext]
    unfold executableRunForWorkflowStep
    simp only [hSteps, List.length_nil, beq_self_eq_true, Bool.true_or, if_true]
    rw [hHands.taken.run]

theorem ansible_handout :
    ∃ h s input handout, Reached sampleSystem h s ∧ Call.Admitted s (.claim input) ∧
      (claimRun sampleSystem.registry sampleSystem.typed input s).1 = .ok handout ∧
      (∃ r ∈ s.runs, r.id = handout.claim.run.id ∧ (nextWorkflowStepIndex r).isSome = true) ∧
      handout.executable.runSpec.type = "ansible" ∧
      ∃ runner, s.runners.find? (fun runner => runner.id == input.runnerID) = some runner ∧
        runner.capabilities.contains handout.executable.runSpec.type = true := by
  obtain ⟨h, s, hReached, hHolds⟩ := Reached.of_follow sampleSystem
    (sampleStart [sampleStep "deploy" "ansible" [], sampleStep "test" "shell" ["deploy"]])
    (fun state => decide (Call.Admitted state.2 (.claim (sampleClaim "runner" "first" 1))) &&
      (match (claimRun sampleSystem.registry sampleSystem.typed (sampleClaim "runner" "first" 1) state.2).1 with
        | .ok handout => handout.executable.runSpec.type == "ansible" &&
            state.2.runs.any fun r => r.id == handout.claim.run.id && (nextWorkflowStepIndex r).isSome
        | .error _ => false)) (by decide +kernel)
  simp only [Bool.and_eq_true, decide_eq_true_eq] at hHolds
  obtain ⟨hAdmitted, hHandout⟩ := hHolds
  split at hHandout
  · rename_i handout hOk
    simp only [Bool.and_eq_true, List.any_eq_true, beq_iff_eq] at hHandout
    obtain ⟨hType, hReady⟩ := hHandout
    exact ⟨h, s, _, handout, hReached, hAdmitted, hOk, hReady, hType,
      handout_capability hReached hAdmitted hOk (.inl hReady)⟩
  · cases hHandout

-- The lease of the only step expires while it runs. The store compares the next runner with the type of the run, and
-- the service hands out the step that is still recorded as current.
theorem stale_step_handout :
    ∃ h s input handout, Reached sampleSystem h s ∧ Call.Admitted s (.claim input) ∧
      (claimRun sampleSystem.registry sampleSystem.typed input s).1 = .ok handout ∧
      handout.executable.runSpec.type = "ansible" ∧
      ∃ runner, s.runners.find? (fun runner => runner.id == input.runnerID) = some runner ∧
        runner.capabilities = ["shell"] := by
  obtain ⟨h, s, hReached, hHolds⟩ := Reached.of_follow sampleSystem
    (sampleStart [sampleStep "deploy" "ansible" []] ++
      [.claim (sampleClaim "runner" "first" 1),
       .operate (.registerRunner (sampleRunnerFor "other" ["shell"]) none)])
    (fun state => decide (Call.Admitted state.2 (.claim (sampleClaim "other" "second" 20))) &&
      (match (claimRun sampleSystem.registry sampleSystem.typed (sampleClaim "other" "second" 20) state.2).1 with
        | .ok handout => handout.executable.runSpec.type == "ansible"
        | .error _ => false) &&
      (state.2.runners.find? (fun runner => runner.id == "other")).any
        (fun runner => runner.capabilities == ["shell"])) (by decide +kernel)
  simp only [Bool.and_eq_true, decide_eq_true_eq] at hHolds
  obtain ⟨⟨hAdmitted, hHandout⟩, hRunner⟩ := hHolds
  obtain ⟨runner, hFind, hCapabilities⟩ := Option.any_eq_true _ _ |>.mp hRunner
  split at hHandout
  · rename_i handout hOk
    exact ⟨h, s, _, handout, hReached, hAdmitted, hOk, beq_iff_eq.mp hHandout, runner, hFind,
      beq_iff_eq.mp hCapabilities⟩
  · cases hHandout

-- The steps of a run of which no lease expired are handed out once each, after their dependencies; every
-- completion but the last one puts the run back into the queue, and the last one makes it succeeded.
theorem workflow_progress (hReached : Reached sys h s) {r : TaskRun} (hr : r ∈ s.runs) (hSteps : r.workflow.steps ≠ [])
    (hSpared : r.id ∉ h.expired) :
    (h.startedOf r.id).Nodup ∧
    (∀ input handout, Call.Admitted s (.claim input) → (claimRun sys.registry sys.typed input s).1 = .ok handout →
      handout.claim.run.id = r.id → r.id ∉ (h.after s (.claim input)).expired →
        ∃ step ∈ r.workflow.steps, claimStarts input s = some (r.id, step.id) ∧
          handout.executable.runSpec = step.runSpec ∧ step.id ∉ h.startedOf r.id ∧
          ∀ dep ∈ step.dependsOn, statusByID r.workflowState.steps dep = some .succeeded) ∧
    (∀ input, completionAccepted input s = some (r.id, .succeeded) →
      ∃ r' ∈ (sys.step (.complete input) s).runs, r'.id = r.id ∧
        ((h.completionsOf r.id).length + 1 < r.workflow.steps.length → r'.status = .queued) ∧
        ((h.completionsOf r.id).length + 1 = r.workflow.steps.length →
          r'.status = .succeeded ∧ ∀ x ∈ r'.workflowState.steps, x.status = .succeeded)) := by
  have hKept := hReached.kept
  have hFollowed := (hKept.runs r hr).followed hSteps hSpared
  refine ⟨hFollowed.tracks.nodup, ?_, ?_⟩
  · intro input handout hAdmitted hOk hID hStill
    obtain ⟨t, claim, q, hHands⟩ := hKept.handout hAdmitted hOk
    obtain ⟨hRun, hExecutable⟩ := hHands.handout handout hOk
    -- the sweep left the run as it was
    have hq : q = r := by
      refine hHands.run_eq hKept.sound hr ?_ ?_
      · rw [← hID, hRun, (startedRun_spec _ _).1, hHands.taken.run]
      · rw [← mem_overdueRuns, ← hHands.expires]
        exact fun hLate => hStill (List.mem_append_left _ hLate)
    subst hq
    obtain ⟨i, step, hNext, hStep, -, hNew, hDeps⟩ := nextStep_of_tracks hFollowed.tracks hHands.taken.queued
    have hNextClaim := hHands.nextStep_eq.trans hNext
    refine ⟨step, List.mem_of_getElem? hStep, ?_, ?_, hNew, ?_⟩
    · rw [hHands.starts, hNextClaim, hHands.taken.run]
      rfl
    · rw [hExecutable, executable_of_next _ hNextClaim]
      rw [hHands.taken.run]
      exact hFollowed.tracks.normalized
    · intro dep hDep
      obtain ⟨hStates, -, -⟩ := hFollowed.tracks.of_queued hHands.taken.queued
      have hMem := hDeps dep hDep
      rw [statusByID_after hFollowed.tracks.ids hFollowed.tracks.normalized.ids hStates (hFollowed.tracks.known hMem),
        statusAfter, if_pos hMem]
  · intro input hAccepted
    obtain ⟨hNone, -⟩ | ⟨target, hTarget, hAccepts⟩ := completeLease_cases input hKept
    · rw [hNone] at hAccepted
      cases hAccepted
    have hAbout := hTarget.symm.trans hAccepted
    rw [Option.some.injEq, Prod.mk.injEq] at hAbout
    obtain ⟨-, hRun, hID⟩ := hKept.target_run hAccepts.ok
    have hEq : target.run = r := hKept.sound.exclusive.keyed.eq hRun hr (hID.trans hAbout.1)
    obtain ⟨hReplaces, hRunning⟩ := hAccepts.mem_runs hKept
    obtain ⟨hAfter, hStatus⟩ := hAccepts.followed hKept hTarget (hEq ▸ hFollowed)
    obtain ⟨hQueued, hDone⟩ := hStatus hAbout.2
    rw [hEq] at hQueued hDone hRunning
    have hCounted := hFollowed.counted (by simp [hRunning]) (by simp [hRunning])
    rw [if_pos hRunning] at hCounted
    rw [hCounted]
    refine ⟨_, hReplaces.mem_new, hID.trans hAbout.1, hQueued, fun hLast => ⟨hDone hLast, ?_⟩⟩
    exact hAfter.tracks.of_succeeded (hDone hLast)

-- The second of two steps is handed out, and its completion makes the run succeeded.
theorem deploy_progress :
    (∃ h s r input handout, Reached sampleSystem h s ∧ r ∈ s.runs ∧
      (claimRun sampleSystem.registry sampleSystem.typed input s).1 = .ok handout ∧
      ∃ step ∈ r.workflow.steps, claimStarts input s = some (r.id, step.id) ∧
        handout.executable.runSpec = step.runSpec ∧ step.id ∉ h.startedOf r.id ∧
        ∀ dep ∈ step.dependsOn, statusByID r.workflowState.steps dep = some .succeeded) ∧
    ∃ h s r input, Reached sampleSystem h s ∧ r ∈ s.runs ∧ r.workflow.steps.length = 2 ∧
      ∃ r' ∈ (sampleSystem.step (.complete input) s).runs, r'.id = r.id ∧ r'.status = .succeeded ∧
        ∀ x ∈ r'.workflowState.steps, x.status = .succeeded := by
  refine ⟨?_, ?_⟩
  · obtain ⟨h, s, hReached, hHolds⟩ := Reached.of_follow sampleSystem sampleDeploy
      (fun state => state.2.runs.any fun r => decide (r.workflow.steps.length = 2 ∧ r.id ∉ state.1.expired ∧
        Call.Admitted state.2 (.claim (sampleClaim "runner" "second" 6)) ∧
        r.id ∉ (state.1.after state.2 (.claim (sampleClaim "runner" "second" 6))).expired) &&
      (match (claimRun sampleSystem.registry sampleSystem.typed (sampleClaim "runner" "second" 6) state.2).1 with
        | .ok handout => handout.claim.run.id == r.id
        | .error _ => false)) (by decide +kernel)
    simp only [List.any_eq_true, Bool.and_eq_true, decide_eq_true_eq] at hHolds
    obtain ⟨r, hr, ⟨hLength, hSpared, hAdmitted, hStill⟩, hHandout⟩ := hHolds
    have hSteps : r.workflow.steps ≠ [] := fun hNone => by simp [hNone] at hLength
    split at hHandout
    · rename_i handout hOk
      obtain ⟨-, hClaims, -⟩ := workflow_progress hReached hr hSteps hSpared
      exact ⟨h, s, r, _, handout, hReached, hr, hOk, hClaims _ handout hAdmitted hOk (beq_iff_eq.mp hHandout) hStill⟩
    · cases hHandout
  · obtain ⟨h, s, hReached, hHolds⟩ := Reached.of_follow sampleSystem
      (sampleDeploy ++ [.claim (sampleClaim "runner" "second" 6)]) (fun state => state.2.runs.any fun r =>
        decide (r.workflow.steps.length = 2 ∧ r.id ∉ state.1.expired ∧ (state.1.completionsOf r.id).length = 1 ∧
          completionAccepted (sampleCompletion "runner" "second" 2 8) state.2 = some (r.id, .succeeded)))
      (by decide +kernel)
    simp only [List.any_eq_true, decide_eq_true_eq] at hHolds
    obtain ⟨r, hr, hLength, hSpared, hCompleted, hAccepted⟩ := hHolds
    have hSteps : r.workflow.steps ≠ [] := fun hNone => by simp [hNone] at hLength
    obtain ⟨-, -, hCompletions⟩ := workflow_progress hReached hr hSteps hSpared
    obtain ⟨r', hr', hID, -, hLast⟩ := hCompletions _ hAccepted
    exact ⟨h, s, r, _, hReached, hr, hLength, r', hr', hID, hLast (by rw [hCompleted, hLength])⟩

-- A completion that passes the service's own checks, of a lease without a completion so far, names the step that runs,
-- and the state of that step is not the reported one already.
def ReportsStep (input : CompleteRequest) (s : MemoryStore) : Prop :=
  ∃ target, completionTarget input s = .ok target ∧ target.lease.completionKey = "" ∧
    hasCurrentStep target.run = true ∧
    ∃ x, target.run.workflowState.steps.find? (fun step => step.id == target.run.workflowState.currentStepID) = some x ∧
      ¬ (x.status = target.status.step ∧ x.finishedAt = some input.now)

theorem finishedSteps_ne_iff (state : WorkflowState) (status : Completion) (now : Time) :
    finishedSteps state status now ≠ state.steps ↔
      ∃ x, state.steps.find? (fun step => step.id == state.currentStepID) = some x ∧
        ¬ (x.status = status.step ∧ x.finishedAt = some now) := by
  unfold finishedSteps
  cases hFind : state.steps.find? (fun step => step.id == state.currentStepID) with
  | none => simp [updateFirst_eq_self _ _ _ hFind]
  | some x =>
    rw [ne_eq, updateFirst_eq_self_iff _ _ _ _ hFind]
    constructor
    · intro hChanged
      refine ⟨x, rfl, ?_⟩
      rintro ⟨hStatus, hFinished⟩
      exact hChanged (by rw [← hStatus, ← hFinished])
    · rintro ⟨x', hx', hOther⟩ hSame
      cases hx'
      exact hOther ⟨congrArg (·.status) hSame.symm, congrArg (·.finishedAt) hSame.symm⟩

-- A completion that is refused leaves the runs as they were, unless it has edited a step.
theorem refused_completion_runs (input : CompleteRequest) (s : MemoryStore)
    (hRefused : (completeLease input s).1.isOk = false) :
    (completeLease input s).2.runs = s.runs ↔ ¬ ReportsStep input s := by
  by_cases hIdle : ∀ target, completionTarget input s = .ok target → target.lease.completionKey ≠ ""
  · refine iff_of_true (by rw [completeLease_idle hIdle]) ?_
    rintro ⟨target, hTarget, hKey, -⟩
    exact hIdle target hTarget hKey
  simp only [not_forall, not_not] at hIdle
  obtain ⟨target, hTarget, hKey⟩ := hIdle
  have hReports : ReportsStep input s ↔ hasCurrentStep target.run = true ∧
      finishedSteps target.run.workflowState target.status input.now ≠ target.run.workflowState.steps := by
    unfold ReportsStep
    simp [hTarget, hKey, finishedSteps_ne_iff]
  have hStore : (completeLease input s).2 = reported input target s := by
    refine (completeLease_fresh hTarget hKey).elim And.right ?_
    rintro ⟨hOk, -⟩
    rw [hRefused] at hOk
    cases hOk
  obtain ⟨-, -, hRun⟩ := completionTarget_ok hTarget
  have hID : target.run.id = trimSpace target.lease.runID := by simpa using List.find?_some hRun
  rw [← hID] at hRun
  rw [hStore, hReports]
  unfold reported
  split
  · rename_i hCurrent
    rw [writeSteps, updateFirst_eq_self_iff _ _ _ _ hRun, not_and, not_not]
    constructor
    · exact fun hSame _ => congrArg (fun r => r.workflowState.steps) hSame
    · intro hSame
      rw [hSame hCurrent]
  · rename_i hCurrent
    exact iff_of_true rfl fun hEdits => hCurrent hEdits.1

-- The runner reports once more after its late report.
theorem repeated_report_runs :
    ∃ h s input, Reached sampleSystem h s ∧ (∃ r ∈ s.runs, r.workflowState.steps.length = 2) ∧
      (completeLease input s).1.isOk = false ∧ (completeLease input s).2.runs = s.runs := by
  obtain ⟨h, s, hReached, hHolds⟩ := Reached.of_follow sampleSystem
    (sampleStart [sampleStep "build" "shell" [], sampleStep "deploy" "ansible" ["build"]] ++
      [.claim (sampleClaim "runner" "first" 1), .complete (sampleCompletion "runner" "first" 1 20)])
    (fun state => state.2.runs.any (fun r => r.workflowState.steps.length == 2) &&
      !(completeLease (sampleCompletion "runner" "first" 1 20) state.2).1.isOk &&
      (match completionTarget (sampleCompletion "runner" "first" 1 20) state.2 with
        | .ok target => (target.run.workflowState.steps.find?
            (fun step => step.id == target.run.workflowState.currentStepID)).all
              fun x => x.status == target.status.step && x.finishedAt == some 20
        | .error _ => false)) (by decide +kernel)
  simp only [Bool.and_eq_true, List.any_eq_true, beq_iff_eq, Bool.not_eq_true'] at hHolds
  obtain ⟨⟨hRun, hRefused⟩, hSame⟩ := hHolds
  refine ⟨h, s, _, hReached, hRun, hRefused, (refused_completion_runs _ s hRefused).mpr ?_⟩
  rintro ⟨target, hTarget, -, -, x, hx, hOther⟩
  rw [hTarget] at hSame
  simp only [hx, Option.all_some, Bool.and_eq_true, beq_iff_eq] at hSame
  exact hOther hSame

-- A runner reports after its lease has run out.
theorem late_report_kept :
    ∃ h s input, Reached sampleSystem h s ∧ (completeLease input s).1.isOk = false ∧
      (completeLease input s).2.runs ≠ s.runs := by
  obtain ⟨h, s, hReached, hHolds⟩ := Reached.of_follow sampleSystem
    (sampleStart [sampleStep "build" "shell" []] ++ [.claim (sampleClaim "runner" "first" 1)])
    (fun state => !(completeLease (sampleCompletion "runner" "first" 1 20) state.2).1.isOk &&
      (completeLease (sampleCompletion "runner" "first" 1 20) state.2).2.runs.map (fun r => r.workflowState.steps) !=
        state.2.runs.map (fun r => r.workflowState.steps)) (by decide +kernel)
  simp only [Bool.and_eq_true, Bool.not_eq_true', bne_iff_ne] at hHolds
  exact ⟨h, s, _, hReached, hHolds.1, fun hSame => hHolds.2 (congrArg _ hSame)⟩

end NeroCD.Workflows
