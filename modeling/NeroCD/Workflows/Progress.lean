import NeroCD.Workflows.Steps

-- A workflow run that no expiry disturbs: the steps handed out decide the state of every step and of the run.

namespace NeroCD.Workflows

open NeroCD.Domain NeroCD.GoStrings NeroCD.Records NeroCD.Store

def statusAfter (handed : List String) (id : String) : WorkflowStepStatus :=
  if id ∈ handed then .succeeded else .pending

-- Where the run stands when the steps in `handed` have been handed out, the last one first.
inductive Phase (r : TaskRun) : List String → Prop
  | waiting (handed : List String) (hStatus : r.status = .queued ∨ r.status = .waitingApproval)
      (hCurrent : r.workflowState.currentStepID = "")
      (hSteps : ∀ x ∈ r.workflowState.steps, x.status = statusAfter handed x.id)
      (hOpen : handed.length < r.workflow.steps.length) : Phase r handed
  -- the state of the step that runs may be anything
  | running (id : String) (handed : List String) (hStatus : r.status = .running)
      (hCurrent : r.workflowState.currentStepID = id)
      (hSteps : ∀ x ∈ r.workflowState.steps, x.id ≠ id → x.status = statusAfter handed x.id) :
      Phase r (id :: handed)
  | succeeded (handed : List String) (hStatus : r.status = .succeeded)
      (hCurrent : r.workflowState.currentStepID = "")
      (hSteps : ∀ x ∈ r.workflowState.steps, x.status = .succeeded)
      (hAll : handed.length = r.workflow.steps.length) : Phase r handed
  | stopped (handed : List String) (hStatus : r.status = .failed ∨ r.status = .canceled) : Phase r handed

structure Aligned (r : TaskRun) (handed : List String) : Prop where
  normalized : Normalized r.workflow.steps
  ids : r.workflowState.steps.map (fun x => x.id) = r.workflow.steps.map (fun step => step.id)
  nodup : handed.Nodup
  known : handed ⊆ r.workflow.steps.map (fun step => step.id)

structure Tracks (r : TaskRun) (handed : List String) : Prop extends Aligned r handed where
  phase : Phase r handed

theorem statusByID_of_mem {states : List WorkflowStepState} (hNodup : (states.map (fun x => x.id)).Nodup)
    {x : WorkflowStepState} (hx : x ∈ states) : statusByID states x.id = some x.status := by
  unfold statusByID
  cases hFind : states.reverse.find? (fun y => y.id == x.id) with
  | none => exact absurd (List.find?_eq_none.mp hFind x (List.mem_reverse.mpr hx)) (by simp)
  | some y =>
    have hID : y.id = x.id := by simpa using List.find?_some hFind
    rw [List.inj_on_of_nodup_map hNodup (List.mem_reverse.mp (List.mem_of_find?_eq_some hFind)) hx hID]
    rfl

section

variable {r : TaskRun} {handed : List String}

theorem Aligned.states_nodup (h : Aligned r handed) : (r.workflowState.steps.map (fun x => x.id)).Nodup :=
  h.ids ▸ h.normalized.ids

theorem Aligned.exists_open (h : Aligned r handed) (hOpen : handed.length < r.workflow.steps.length) :
    ∃ step ∈ r.workflow.steps, step.id ∉ handed := by
  by_contra hNone
  simp only [not_exists, not_and, not_not] at hNone
  have hSubset : r.workflow.steps.map (fun step => step.id) ⊆ handed := by
    intro id hID
    obtain ⟨step, hStep, rfl⟩ := List.mem_map.mp hID
    exact hNone step hStep
  have hLength := (List.subperm_of_subset h.normalized.ids hSubset).length_le
  rw [List.length_map] at hLength
  omega

theorem all_handed {ids : List String} (hNodup : handed.Nodup) (hKnown : handed ⊆ ids)
    (hAll : ids.length ≤ handed.length) {id : String} (hID : id ∈ ids) : id ∈ handed :=
  (List.subperm_of_subset hNodup hKnown).perm_of_length_le hAll |>.mem_iff.mpr hID

end

-- The states when the steps in `handed` have succeeded: readiness is a question of what was handed out.
section

variable {steps : List WorkflowStep} {state : WorkflowState} {handed : List String}

theorem statusByID_after (hIDs : state.steps.map (fun x => x.id) = steps.map (fun step => step.id))
    (hNodup : (steps.map (fun step => step.id)).Nodup)
    (hStates : ∀ x ∈ state.steps, x.status = statusAfter handed x.id) {id : String}
    (hID : id ∈ steps.map (fun step => step.id)) : statusByID state.steps id = some (statusAfter handed id) := by
  rw [← hIDs] at hID hNodup
  obtain ⟨x, hx, rfl⟩ := List.mem_map.mp hID
  rw [statusByID_of_mem hNodup hx, hStates x hx]

theorem stepReady_after (hSteps : Normalized steps)
    (hIDs : state.steps.map (fun x => x.id) = steps.map (fun step => step.id))
    (hStates : ∀ x ∈ state.steps, x.status = statusAfter handed x.id) {step : WorkflowStep} (hStep : step ∈ steps) :
    stepReady state step = true ↔ step.id ∉ handed ∧ ∀ dep ∈ step.dependsOn, dep ∈ handed := by
  have hAfter {id : String} (hID : id ∈ steps.map (fun step => step.id)) :=
    statusByID_after hIDs hSteps.ids hStates hID
  unfold stepReady
  rw [Bool.and_eq_true, List.all_eq_true, beq_iff_eq, hAfter (List.mem_map.mpr ⟨step, hStep, rfl⟩)]
  refine and_congr ?_ (forall₂_congr ?_)
  · unfold statusAfter
    by_cases hHanded : step.id ∈ handed <;> simp [hHanded]
  · intro dep hDep
    obtain ⟨other, hOther, rfl⟩ := hSteps.closed step hStep dep hDep
    rw [beq_iff_eq, hAfter (List.mem_map.mpr ⟨other, hOther, rfl⟩)]
    unfold statusAfter
    by_cases hHanded : other.id ∈ handed <;> simp [hHanded]

end

section

variable {r : TaskRun} {handed : List String}

theorem Aligned.next (h : Aligned r handed) (hSteps : ∀ x ∈ r.workflowState.steps, x.status = statusAfter handed x.id)
    (hOpen : handed.length < r.workflow.steps.length) :
    ∃ i step, nextWorkflowStepIndex r = some i ∧ r.workflow.steps[i]? = some step ∧
      r.workflow.steps.find? (stepReady r.workflowState) = some step ∧ step.id ∉ handed ∧
        ∀ dep ∈ step.dependsOn, dep ∈ handed := by
  obtain ⟨ready, hReady, hNew, hDeps⟩ := h.normalized.exists_ready (fun id => id ∈ handed) (h.exists_open hOpen)
  have hIs := (stepReady_after h.normalized h.ids hSteps hReady).mpr ⟨hNew, hDeps⟩
  cases hFind : r.workflow.steps.find? (stepReady r.workflowState) with
  | none => exact absurd hIs (List.find?_eq_none.mp hFind ready hReady)
  | some step =>
    have hStep := List.mem_of_find?_eq_some hFind
    obtain ⟨hStepNew, hStepDeps⟩ := (stepReady_after h.normalized h.ids hSteps hStep).mp (List.find?_some hFind)
    unfold nextWorkflowStepIndex
    cases hIndex : r.workflow.steps.findIdx? (stepReady r.workflowState) with
    | none =>
      rw [List.findIdx?_eq_none_iff] at hIndex
      rw [hIndex ready hReady] at hIs
      cases hIs
    | some i =>
      refine ⟨i, step, rfl, ?_, rfl, hStepNew, hStepDeps⟩
      rw [← hFind, List.find?_eq_bind_findIdx?_getElem?, hIndex]
      rfl

theorem Aligned.next_isSome_iff (h : Aligned r handed)
    (hSteps : ∀ x ∈ r.workflowState.steps, x.status = statusAfter handed x.id) :
    (nextWorkflowStepIndex r).isSome = true ↔ handed.length < r.workflow.steps.length := by
  constructor
  · intro hSome
    by_contra hAll
    unfold nextWorkflowStepIndex at hSome
    rw [List.findIdx?_isSome, List.any_eq_true] at hSome
    obtain ⟨step, hStep, hReady⟩ := hSome
    refine ((stepReady_after h.normalized h.ids hSteps hStep).mp hReady).1 ?_
    exact all_handed h.nodup h.known (by rw [List.length_map]; omega) (List.mem_map.mpr ⟨step, hStep, rfl⟩)
  · intro hOpen
    obtain ⟨i, -, hNext, -⟩ := h.next hSteps hOpen
    rw [hNext]
    rfl

theorem Tracks.of_queued (h : Tracks r handed) (hStatus : r.status = .queued) :
    (∀ x ∈ r.workflowState.steps, x.status = statusAfter handed x.id) ∧
      handed.length < r.workflow.steps.length ∧ r.workflowState.currentStepID = "" := by
  cases h.phase with
  | waiting _ _ hCurrent hSteps hOpen => exact ⟨hSteps, hOpen, hCurrent⟩
  | running _ _ hRunning =>
    rw [hStatus] at hRunning
    cases hRunning
  | succeeded _ hSucceeded =>
    rw [hStatus] at hSucceeded
    cases hSucceeded
  | stopped _ hStopped =>
    rw [hStatus] at hStopped
    obtain hEq | hEq := hStopped <;> cases hEq

theorem Tracks.of_succeeded (h : Tracks r handed) (hStatus : r.status = .succeeded) :
    ∀ x ∈ r.workflowState.steps, x.status = .succeeded := by
  cases h.phase with
  | succeeded _ _ _ hSteps => exact hSteps
  | waiting _ hWaiting | running _ _ hWaiting | stopped _ hWaiting => simp [hStatus] at hWaiting

theorem Tracks.released (h : Tracks r handed) (hWaiting : r.status = .waitingApproval) :
    Tracks { r with status := .queued } handed := by
  refine ⟨⟨h.normalized, h.ids, h.nodup, h.known⟩, ?_⟩
  cases h.phase with
  | waiting _ _ hCurrent hSteps hOpen => exact .waiting _ (.inl rfl) hCurrent hSteps hOpen
  | running _ _ hStatus | succeeded _ hStatus | stopped _ hStatus => simp [hWaiting] at hStatus

theorem ids_modify (states : List WorkflowStepState) (index : Nat) (f : WorkflowStepState → WorkflowStepState)
    (hf : ∀ x, (f x).id = x.id) : (states.modify index f).map (fun x => x.id) = states.map (fun x => x.id) := by
  apply List.ext_getElem?
  intro j
  rw [List.getElem?_map, List.getElem?_map, List.getElem?_modify]
  split
  · cases states[j]? with
    | none => rfl
    | some x => exact congrArg some (hf x)
  · simp

theorem mem_of_mem_modify {states : List WorkflowStepState} {index : Nat} {f : WorkflowStepState → WorkflowStepState}
    (hf : ∀ x, (f x).id = x.id) {id : String} (hIndex : ∀ y, states[index]? = some y → y.id = id)
    {x : WorkflowStepState} (hx : x ∈ states.modify index f) (hOther : x.id ≠ id) : x ∈ states := by
  obtain ⟨j, hj⟩ := List.mem_iff_getElem?.mp hx
  rw [List.getElem?_modify] at hj
  split at hj
  · rename_i hEq
    subst hEq
    obtain ⟨y, hy, rfl⟩ := Option.map_eq_some_iff.mp hj
    exact absurd ((hf y).trans (hIndex y hy)) hOther
  · exact List.mem_of_getElem? (by simpa using hj)

theorem Tracks.started (h : Tracks r handed) (hStatus : r.status = .queued) {i : Nat} {step : WorkflowStep}
    (hStep : r.workflow.steps[i]? = some step) (hNew : step.id ∉ handed) (runnerID : Option String)
    (startedAt : Time) :
    Tracks { r with status := .running, runnerID := runnerID, workflowState := startedState r i step startedAt }
      (step.id :: handed) := by
  obtain ⟨hSteps, -, -⟩ := h.of_queued hStatus
  have hIndex : ∀ y, r.workflowState.steps[i]? = some y → y.id = step.id := by
    intro y hy
    have hID := congrArg (fun ids => ids[i]?) h.ids
    simp only [List.getElem?_map, hy, hStep, Option.map_some, Option.some.injEq] at hID
    exact hID
  refine ⟨⟨h.normalized, ?_, List.nodup_cons.mpr ⟨hNew, h.nodup⟩, ?_⟩, ?_⟩
  · exact (ids_modify _ _ (startedStep startedAt) fun _ => rfl).trans h.ids
  · rw [List.cons_subset]
    exact ⟨List.mem_map.mpr ⟨step, List.mem_of_getElem? hStep, rfl⟩, h.known⟩
  · refine .running step.id handed rfl rfl ?_
    intro x hx hOther
    exact hSteps x (mem_of_mem_modify (f := startedStep startedAt) (fun _ => rfl) hIndex hx hOther)

theorem finishedSteps_spec {state : WorkflowState} (hNodup : (state.steps.map (fun x => x.id)).Nodup)
    (status : Completion) (completedAt : Time) :
    (finishedSteps state status completedAt).map (fun x => x.id) = state.steps.map (fun x => x.id) ∧
      ∀ x ∈ finishedSteps state status completedAt,
        (x.id = state.currentStepID → x.status = status.step) ∧ (x.id ≠ state.currentStepID → x ∈ state.steps) := by
  unfold finishedSteps
  cases hFind : state.steps.find? (fun step => step.id == state.currentStepID) with
  | none =>
    rw [updateFirst_eq_self _ _ _ hFind]
    refine ⟨rfl, ?_⟩
    intro x hx
    exact ⟨fun hEq => absurd (beq_iff_eq.mpr hEq) (List.find?_eq_none.mp hFind x hx), fun _ => hx⟩
  | some y =>
    have hID : y.id = state.currentStepID := by simpa using List.find?_some hFind
    have hReplaces := replaces_updateFirst _ (fun step : WorkflowStepState =>
      { step with status := status.step, finishedAt := some completedAt }) _ _ hFind
    refine ⟨hReplaces.map_eq _ rfl, ?_⟩
    intro x hx
    obtain rfl | ⟨hOld, hNe⟩ := hReplaces.mem_keyed (fun x => x.id) ((keyed_iff_nodup _ _).mpr hNodup) x hx
    · exact ⟨fun _ => rfl, fun hOther => absurd hID hOther⟩
    · exact ⟨fun hEq => absurd (hEq.trans hID.symm) hNe, fun _ => hOld⟩

theorem Tracks.edited (h : Tracks r handed) (hStatus : r.status ≠ .queued ∧ r.status ≠ .waitingApproval ∧
      r.status ≠ .succeeded) (status : Completion) (completedAt : Time) :
    Tracks { r with workflowState :=
      { r.workflowState with steps := finishedSteps r.workflowState status completedAt } } handed := by
  obtain ⟨hIDs, hAll⟩ := finishedSteps_spec h.states_nodup status completedAt
  refine ⟨⟨h.normalized, hIDs.trans h.ids, h.nodup, h.known⟩, ?_⟩
  cases h.phase with
  | waiting _ hWaiting => exact absurd hWaiting (by simp [hStatus])
  | succeeded _ hSucceeded => exact absurd hSucceeded hStatus.2.2
  | stopped _ hStopped => exact .stopped _ hStopped
  | running id handed hRunning hCurrent hSteps =>
    refine .running id handed hRunning hCurrent ?_
    intro x hx hOther
    exact hSteps x ((hAll x hx).2 (hCurrent ▸ hOther)) hOther

theorem Phase.of_running (h : Phase r handed) (hStatus : r.status = .running) :
    ∃ others, handed = r.workflowState.currentStepID :: others ∧
      ∀ x ∈ r.workflowState.steps, x.id ≠ r.workflowState.currentStepID → x.status = statusAfter others x.id := by
  cases h with
  | waiting _ hWaiting => exact absurd hWaiting (by simp [hStatus])
  | running _ others _ hCurrent hSteps =>
    subst hCurrent
    exact ⟨others, rfl, hSteps⟩
  | succeeded _ hSucceeded => exact absurd hSucceeded (by simp [hStatus])
  | stopped _ hStopped => exact absurd hStopped (by simp [hStatus])

theorem hasCurrentStep_of_running (h : Tracks r handed) (hStatus : r.status = .running) : hasCurrentStep r = true := by
  obtain ⟨others, hHanded, -⟩ := h.phase.of_running hStatus
  have hKnown : r.workflowState.currentStepID ∈ handed := hHanded ▸ List.mem_cons_self
  obtain ⟨step, hStep, hID⟩ := List.mem_map.mp (h.known hKnown)
  have hNamed := h.normalized.named step hStep
  have hSome : r.workflow.steps ≠ [] := List.ne_nil_of_mem hStep
  unfold hasCurrentStep
  rw [← hID]
  simp [hNamed, hSome]

theorem Tracks.completed (h : Tracks r handed) (hStatus : r.status = .running) (status : Completion)
    (completedAt : Time) {c : CompletionState} (hc : completionRunState r status completedAt = c) {r' : TaskRun}
    (hr' : completedRun c.runStatus c.finishedAt c.workflowState r = r') :
    Tracks r' handed ∧ (status = .succeeded →
      (handed.length < r.workflow.steps.length → r'.status = .queued) ∧
      (handed.length = r.workflow.steps.length → r'.status = .succeeded)) := by
  obtain ⟨hIDs, hAll⟩ := finishedSteps_spec h.states_nodup status completedAt
  unfold completionRunState at hc
  rw [hasCurrentStep_of_running h hStatus, Bool.not_true, if_neg Bool.false_ne_true] at hc
  generalize hState : ({ currentStepID := "", steps := finishedSteps r.workflowState status completedAt } :
    WorkflowState) = state at hc
  have hAligned : Aligned { r with workflowState := state } handed := by
    subst hState
    exact ⟨h.normalized, hIDs.trans h.ids, h.nodup, h.known⟩
  cases status with
  | failed =>
    simp only [show (Completion.failed == Completion.succeeded) = false from rfl, Bool.false_and,
      if_neg Bool.false_ne_true] at hc
    subst hc
    subst hr'
    exact ⟨⟨⟨h.normalized, hAligned.ids, h.nodup, h.known⟩, .stopped _ (.inl rfl)⟩, fun hEq => by cases hEq⟩
  | canceled =>
    simp only [show (Completion.canceled == Completion.succeeded) = false from rfl, Bool.false_and,
      if_neg Bool.false_ne_true] at hc
    subst hc
    subst hr'
    exact ⟨⟨⟨h.normalized, hAligned.ids, h.nodup, h.known⟩, .stopped _ (.inr rfl)⟩, fun hEq => by cases hEq⟩
  | succeeded =>
    -- the step that ran counts as handed out, so that all states follow from what was handed out
    have hSteps : ∀ x ∈ state.steps, x.status = statusAfter handed x.id := by
      obtain ⟨others, hHanded, hOthers⟩ := h.phase.of_running hStatus
      subst hState
      intro x hx
      rw [hHanded]
      unfold statusAfter
      by_cases hID : x.id = r.workflowState.currentStepID
      · rw [(hAll x hx).1 hID, hID, if_pos List.mem_cons_self]
        rfl
      · rw [hOthers x ((hAll x hx).2 hID) hID]
        simp [statusAfter, hID]
    have hNext := hAligned.next_isSome_iff hSteps
    simp only [beq_self_eq_true, Bool.true_and] at hc
    split at hc
    · rename_i hOpen
      subst hc
      subst hr'
      have hLess := hNext.mp hOpen
      exact ⟨⟨⟨h.normalized, hAligned.ids, h.nodup, h.known⟩,
        .waiting handed (.inl rfl) (by rw [← hState]; rfl) hSteps hLess⟩,
        fun _ => ⟨fun _ => rfl, fun hEq => absurd hEq (Nat.ne_of_lt hLess)⟩⟩
    · rename_i hDone
      subst hc
      subst hr'
      have hLength : handed.length = r.workflow.steps.length := by
        have hLe := (List.subperm_of_subset h.nodup h.known).length_le
        rw [List.length_map] at hLe
        exact Nat.le_antisymm hLe (Nat.not_lt.mp fun hLess => hDone (hNext.mpr hLess))
      refine ⟨⟨⟨h.normalized, hAligned.ids, h.nodup, h.known⟩,
        .succeeded handed rfl (by rw [← hState]; rfl) ?_ hLength⟩,
        fun _ => ⟨fun hLess => absurd hLength (Nat.ne_of_lt hLess), fun _ => rfl⟩⟩
      intro x hx
      rw [hSteps x hx, statusAfter, if_pos]
      apply all_handed h.nodup h.known (by rw [List.length_map, hLength])
      rw [← hAligned.ids]
      exact List.mem_map.mpr ⟨x, hx, rfl⟩

end

end NeroCD.Workflows
