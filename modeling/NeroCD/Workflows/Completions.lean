import NeroCD.Workflows.Invariant

-- Completions of the service: what a report writes before the store decides on it, and what an accepted one does.

namespace NeroCD.Workflows

open NeroCD.Checks NeroCD.Domain NeroCD.GoStrings NeroCD.Records NeroCD.Store

section

variable {input : CompleteRequest} {h : History} {s t : MemoryStore} {target : CompletionTarget}

theorem completionTarget_ok (hTarget : completionTarget input s = .ok target) :
    s.leases.find? (leaseHeldAs (trimSpace input.leaseID) input.runnerID input.attempt input.fence) =
        some target.lease ∧
      target.key ≠ "" ∧ s.runs.find? (fun run => run.id == trimSpace target.lease.runID) = some target.run := by
  unfold completionTarget at hTarget
  split at hTarget
  · cases hTarget
  simp only at hTarget
  split at hTarget
  · cases hTarget
  rename_i hKey
  split at hTarget
  · cases hTarget
  rename_i lease hLease
  split at hTarget
  · cases hTarget
  split at hTarget
  · cases hTarget
  rename_i run hRun
  split at hTarget
  · cases hTarget
  cases hTarget
  refine ⟨hLease, mt beq_iff_eq.mpr hKey, ?_⟩
  unfold runByID at hRun
  split at hRun
  · cases hRun
  split at hRun
  · rename_i found hFound
    cases hRun
    exact hFound
  · cases hRun

def reportedRun (status : Completion) (now : Time) (run : TaskRun) : TaskRun :=
  if hasCurrentStep run then
    { run with
      workflowState := { run.workflowState with steps := finishedSteps run.workflowState status now } }
  else run

theorem reported_spec (input : CompleteRequest)
    (hFind : s.runs.find? (fun run => run.id == target.run.id) = some target.run) :
    ∃ runs, reported input target s = { s with runs := runs } ∧
      Replaces target.run (reportedRun target.status input.now target.run) s.runs runs := by
  unfold reported reportedRun
  split
  · exact ⟨_, rfl, replaces_updateFirst _ _ _ _ hFind⟩
  · exact ⟨s.runs, rfl, Replaces.self (List.mem_of_find?_eq_some hFind)⟩

theorem reported_same (input : CompleteRequest) (target : CompletionTarget) (s : MemoryStore) :
    (reported input target s).leases = s.leases ∧ (reported input target s).deployments = s.deployments := by
  unfold reported
  split <;> exact ⟨rfl, rfl⟩

theorem ids_reportedRun (status : Completion) (now : Time) {run : TaskRun}
    (hNodup : (run.workflowState.steps.map (fun x => x.id)).Nodup) :
    (reportedRun status now run).workflowState.steps.map (fun x => x.id) =
      run.workflowState.steps.map (fun x => x.id) := by
  unfold reportedRun
  split
  · exact (finishedSteps_spec hNodup status now).1
  · rfl

theorem reportedRun_eq (status : Completion) (now : Time) (run : TaskRun) :
    reportedRun status now run =
      { run with workflowState := (reportedRun status now run).workflowState } := by
  unfold reportedRun
  split <;> rfl

theorem completedRun_reported (status : Completion) (now : Time) (run : TaskRun) {c : CompletionState}
    (hc : completionRunState run status now = c) :
    completedRun c.runStatus c.finishedAt c.workflowState (reportedRun status now run) =
      completedRun c.runStatus c.finishedAt c.workflowState run := by
  subst hc
  unfold reportedRun completionRunState
  cases hasCurrentStep run with
  | false => rfl
  | true =>
    simp only [Bool.not_true, Bool.false_eq_true, if_false, if_true]
    split <;> rfl

theorem completionRunState_statuses (run : TaskRun) (status : Completion) (now : Time) :
    completionStatuses status.lease (completionRunState run status now).runStatus = true := by
  unfold completionRunState
  split
  · cases status <;> rfl
  · simp only
    split
    · rename_i hNext
      rw [Bool.and_eq_true, beq_iff_eq] at hNext
      rw [hNext.1]
      rfl
    · cases status <;> rfl

theorem Kept.target_run (hKept : Kept h s) (hTarget : completionTarget input s = .ok target) :
    target.lease ∈ s.leases ∧ target.run ∈ s.runs ∧ target.run.id = target.lease.runID := by
  obtain ⟨hLease, -, hRun⟩ := completionTarget_ok hTarget
  have hl := List.mem_of_find?_eq_some hLease
  refine ⟨hl, List.mem_of_find?_eq_some hRun, ?_⟩
  obtain ⟨r, hr, hKnown⟩ := hKept.sound.exclusive.known _ hl
  have hID : r.id = target.lease.runID := hKnown
  have hTrimmed : trimSpace target.lease.runID = target.lease.runID := hID ▸ (hKept.runs r hr).trimmed
  rw [hTrimmed] at hRun
  simpa using List.find?_some hRun

theorem Kept.open_lease (hKept : Kept h s) {l : RunLease} {r : TaskRun} (hl : l ∈ s.leases)
    (hKey : l.completionKey = "") (hr : r ∈ s.runs) (hID : r.id = l.runID) (hSpared : r.id ∉ h.expired) :
    r.status = .running ∨ r.status = .canceled := by
  refine (hKept.leases l hl hKey (hID ▸ hSpared)).imp ?_ ?_
  · exact fun hActive => (hKept.sound.exclusive.held l hl (.inl trivial) hActive r hr hID).1
  · exact fun hCanceled => hCanceled r hr hID

theorem RunKept.reported {r : TaskRun} (hKept : RunKept h r)
    (hStatus : r.id ∉ h.expired → r.status = .running ∨ r.status = .canceled) (status : Completion) (now : Time) :
    RunKept h (reportedRun status now r) := by
  have hNodup : (r.workflowState.steps.map (fun x => x.id)).Nodup := hKept.ids ▸ hKept.normalized.ids
  rw [reportedRun_eq]
  refine hKept.change rfl rfl rfl (ids_reportedRun status now hNodup) (List.Subset.refl _) ?_
  intro _ hSpared hFollowed
  refine ⟨?_, hFollowed.counted⟩
  show Tracks { r with workflowState := (reportedRun status now r).workflowState } (h.startedOf r.id)
  rw [← reportedRun_eq]
  unfold reportedRun
  split
  · refine hFollowed.tracks.edited ?_ status now
    obtain hEq | hEq := hStatus hSpared <;> simp [hEq]
  · exact hFollowed.tracks

theorem Kept.reported (hKept : Kept h s) (hTarget : completionTarget input s = .ok target)
    (hKey : target.lease.completionKey = "") : Kept h (reported input target s) := by
  obtain ⟨hl, hr, hID⟩ := hKept.target_run hTarget
  have hFind : s.runs.find? (fun run => run.id == target.run.id) = some target.run :=
    Keyed.find?_eq hKept.sound.exclusive.keyed hr (beq_self_eq_true _) fun _ _ hEq => beq_iff_eq.mp hEq
  obtain ⟨runs, hReported, hReplaces⟩ := reported_spec input hFind
  have hRun := reportedRun_eq target.status input.now target.run
  have hIDs : runs.map (fun r => r.id) = s.runs.map (fun r => r.id) := hReplaces.map_eq _ (by rw [hRun])
  have hEdit : Effect runDiscipline s.authority { s.authority with runs := runs } :=
    .editRun _ _ runs hReplaces (by rw [hRun]; exact ⟨rfl, rfl⟩) (.inl (by rw [hRun]; exact ⟨rfl, rfl⟩))
  rw [hReported]
  refine ⟨hEdit.sound hKept.sound, hKept.free, ?_, ?_, hIDs ▸ hKept.started, hIDs ▸ hKept.completed⟩
  · intro r' hr'
    obtain rfl | hOld := hReplaces.mem_or r' hr'
    · exact (hKept.runs _ hr).reported (hKept.open_lease hl hKey hr hID) _ _
    · exact hKept.runs r' hOld
  · intro l' hl' hOpen hSpared
    refine (hKept.leases l' hl' hOpen hSpared).imp_right ?_
    intro hCanceled r' hr' hID'
    obtain rfl | hOld := hReplaces.mem_or r' hr'
    · rw [hRun] at hID' ⊢
      exact hCanceled target.run hr hID'
    · exact hCanceled r' hOld hID'

abbrev CompletedAs (input : CompleteRequest) (s t : MemoryStore) (target : CompletionTarget) : Prop :=
  Completed target.status.lease target.key input.now
    (completionRunState target.run target.status input.now).runStatus
    (completionRunState target.run target.status input.now).finishedAt
    (completionRunState target.run target.status input.now).workflowState (reported input target s) t target.lease

theorem completeLease_fresh (hTarget : completionTarget input s = .ok target)
    (hKey : target.lease.completionKey = "") :
    ((completeLease input s).1.isOk = false ∧ (completeLease input s).2 = reported input target s) ∨
      ((completeLease input s).1.isOk = true ∧ CompletedAs input s (completeLease input s).2 target ∧
        ((reported input target s).authority.Sound runDiscipline →
          (completeLease input s).2.authority.Sound runDiscipline)) := by
  obtain ⟨hFind, -, -⟩ := completionTarget_ok hTarget
  rw [← (reported_same input target s).1] at hFind
  generalize hOutcome : completeLease input s = outcome
  unfold completeLease at hOutcome
  simp only [hTarget, hKey, bne_self_eq_false, Bool.false_eq_true, if_false] at hOutcome
  split at hOutcome
  · generalize hRequest : completeLeaseRequest (trimSpace input.leaseID) input.runnerID target.status.lease
      input.attempt input.fence target.key input.now _ _ _ _ _ (reported input target s) = result at hOutcome
    subst hOutcome
    have hIsOk : (result.1.mapError ServiceError.store).isOk = result.1.isOk := by cases result.1 <;> rfl
    rw [hIsOk]
    obtain hRefused | ⟨hOk, hCompleted⟩ := completeLeaseRequest_cases hFind hKey hRequest
    · exact .inl hRefused
    · refine .inr ⟨hOk, hCompleted, fun hSound => ?_⟩
      rw [← hRequest]
      exact perform_sound (.completeLeaseRequest _ _ _ _ _ _ _ _ _ _ _ _) hSound trivial
        (fun _ => completionRunState_statuses _ _ _) False.elim (.inl trivial) (fun _ _ _ => trivial)
        (fun _ _ _ => trivial)
  · subst hOutcome
    exact .inl ⟨rfl, rfl⟩

theorem completeLease_idle
    (hIdle : ∀ target, completionTarget input s = .ok target → target.lease.completionKey ≠ "") :
    (completeLease input s).2 = s := by
  unfold completeLease
  cases hTarget : completionTarget input s with
  | error e => rfl
  | ok target =>
    simp only [bne_iff_ne.mpr (hIdle target hTarget), if_true]
    split <;> rfl

theorem completionAccepted_eq (hTarget : completionTarget input s = .ok target) :
    completionAccepted input s =
      if target.lease.completionKey = "" ∧ (completeLease input s).1.isOk = true then
        some (target.lease.runID, target.status)
      else none := by
  unfold completionAccepted
  rw [hTarget]
  cases (completeLease input s).1 with
  | error e => simp [Except.isOk, Except.toBool]
  | ok _ => simp [Except.isOk, Except.toBool]

structure Accepts (input : CompleteRequest) (s t : MemoryStore) (target : CompletionTarget) : Prop where
  ok : completionTarget input s = .ok target
  fresh : target.lease.completionKey = ""
  completed : CompletedAs input s t target
  sound : t.authority.Sound runDiscipline

def finishedRun (input : CompleteRequest) (target : CompletionTarget) : TaskRun :=
  let c := completionRunState target.run target.status input.now
  completedRun c.runStatus c.finishedAt c.workflowState target.run

theorem completeLease_cases (input : CompleteRequest) (hKept : Kept h s) :
    (completionAccepted input s = none ∧ Kept h (completeLease input s).2) ∨
    ∃ target, completionAccepted input s = some (target.lease.runID, target.status) ∧
      Accepts input s (completeLease input s).2 target := by
  by_cases hIdle : ∀ target, completionTarget input s = .ok target → target.lease.completionKey ≠ ""
  · left
    rw [completeLease_idle hIdle]
    refine ⟨?_, hKept⟩
    cases hTarget : completionTarget input s with
    | error e => simp only [completionAccepted, hTarget]
    | ok target => rw [completionAccepted_eq hTarget, if_neg fun hBoth => hIdle target hTarget hBoth.1]
  · simp only [not_forall, not_not] at hIdle
    obtain ⟨target, hTarget, hKey⟩ := hIdle
    have hReported := hKept.reported hTarget hKey
    rw [completionAccepted_eq hTarget]
    obtain ⟨hRefused, hStore⟩ | ⟨hOk, hCompleted, hSound⟩ := completeLease_fresh hTarget hKey
    · left
      rw [hStore, hRefused]
      exact ⟨if_neg fun hBoth => Bool.false_ne_true hBoth.2, hReported⟩
    · exact .inr ⟨target, if_pos ⟨hKey, hOk⟩, hTarget, hKey, hCompleted, hSound hReported.sound⟩

section

variable {target : CompletionTarget}

theorem Accepts.mem_runs (hAccepts : Accepts input s t target) (hKept : Kept h s) :
    Replaces target.run (finishedRun input target) s.runs t.runs ∧ target.run.status = .running := by
  obtain ⟨hl, hr, hID⟩ := hKept.target_run hAccepts.ok
  have hFind : s.runs.find? (fun run => run.id == target.run.id) = some target.run :=
    Keyed.find?_eq hKept.sound.exclusive.keyed hr (beq_self_eq_true _) fun _ _ hEq => beq_iff_eq.mp hEq
  refine ⟨?_, (hKept.sound.exclusive.held _ hl (.inl trivial) hAccepts.completed.live _ hr hID).1⟩
  rw [hAccepts.completed.runs, ← hID]
  unfold finishedRun reported
  simp only
  rw [← completedRun_reported target.status input.now target.run rfl]
  unfold reportedRun
  split
  · simp only [writeSteps]
    rw [updateFirst_updateFirst]
    · exact replaces_updateFirst _ _ _ _ hFind
    · exact fun _ hFound => hFound
  · exact replaces_updateFirst _ _ _ _ hFind

theorem ids_completionRunState {run : TaskRun} (hNodup : (run.workflowState.steps.map (fun x => x.id)).Nodup)
    (status : Completion) (now : Time) :
    (((completionRunState run status now).workflowState.getD run.workflowState).steps.map (fun x => x.id)) =
      run.workflowState.steps.map (fun x => x.id) := by
  unfold completionRunState
  split
  · rfl
  · simp only
    split <;> exact (finishedSteps_spec hNodup status now).1

theorem Accepts.followed (hAccepts : Accepts input s t target) (hKept : Kept h s)
    (hAccepted : completionAccepted input s = some (target.lease.runID, target.status))
    (hFollowed : Followed h target.run) : Followed (h.after s (.complete input)) (finishedRun input target) ∧
      (target.status = .succeeded →
        ((h.startedOf target.run.id).length < target.run.workflow.steps.length →
          (finishedRun input target).status = .queued) ∧
        ((h.startedOf target.run.id).length = target.run.workflow.steps.length →
          (finishedRun input target).status = .succeeded)) := by
  obtain ⟨-, -, hID⟩ := hKept.target_run hAccepts.ok
  obtain ⟨-, hRunning⟩ := hAccepts.mem_runs hKept
  obtain ⟨hTracks, hStatuses⟩ := hFollowed.tracks.completed hRunning target.status input.now rfl rfl
  have hCompletions : (h.after s (.complete input)).completionsOf target.run.id =
      target.status :: h.completionsOf target.run.id := by
    show entriesOf target.run.id ((completionAccepted input s).toList ++ h.completed) = _
    rw [hAccepted, hID]
    exact entriesOf_cons_self _
  refine ⟨⟨hTracks, fun _ _ => ?_⟩, hStatuses⟩
  show ((h.after s (.complete input)).completionsOf target.run.id).length + _ = (h.startedOf target.run.id).length
  have hCounted := hFollowed.counted (by simp [hRunning]) (by simp [hRunning])
  have hEnded : (finishedRun input target).status ≠ .running :=
    (completionStatuses_closed _ _ (completionRunState_statuses target.run target.status input.now)).2
  rw [hCompletions, if_neg hEnded, List.length_cons]
  rwa [if_pos hRunning] at hCounted

end

theorem Kept.accepted (hKept : Kept h s) {target : CompletionTarget} (hAccepts : Accepts input s t target)
    (hAccepted : completionAccepted input s = some (target.lease.runID, target.status)) :
    Kept (h.after s (.complete input)) t := by
  obtain ⟨hl, hr, hID⟩ := hKept.target_run hAccepts.ok
  obtain ⟨hReplaces, hRunning⟩ := hAccepts.mem_runs hKept
  have hIDs : t.runs.map (fun r => r.id) = s.runs.map (fun r => r.id) := hReplaces.map_eq _ rfl
  obtain ⟨hLeasesSame, hDeploymentsSame⟩ := reported_same input target s
  refine ⟨hAccepts.sound, ?_, ?_, ?_, hIDs ▸ hKept.started, ?_⟩
  · rw [hAccepts.completed.deployments, hDeploymentsSame, hKept.free]
  · intro r' hr'
    obtain rfl | ⟨hOld, hOther⟩ := hReplaces.mem_keyed _ hKept.sound.exclusive.keyed r' hr'
    · have hRun := hKept.runs target.run hr
      have hNodup : (target.run.workflowState.steps.map (fun x => x.id)).Nodup := hRun.ids ▸ hRun.normalized.ids
      refine hRun.change rfl rfl rfl (ids_completionRunState hNodup _ _) expired_after ?_
      exact fun _ _ hFollowed => (hAccepts.followed hKept hAccepted hFollowed).1
    · refine (hKept.runs r' hOld).same rfl ?_ expired_after
      show entriesOf r'.id ((completionAccepted input s).toList ++ h.completed) = _
      rw [hAccepted]
      exact entriesOf_cons_of_ne _ (hID ▸ hOther.symm)
  · intro l' hl' hOpen hSpared
    have hLeases := hAccepts.completed.leases
    rw [hLeasesSame] at hLeases
    obtain rfl | hOld := hLeases.mem_or l' hl'
    · exact absurd hOpen (completionTarget_ok hAccepts.ok).2.1
    · refine (hKept.leases l' hOld hOpen fun hMem => hSpared (expired_after hMem)).imp_right ?_
      intro hCanceled r' hr' hID'
      obtain rfl | hStays := hReplaces.mem_or r' hr'
      · -- the run that was completed was running
        have hStatus := hCanceled target.run hr hID'
        rw [hRunning] at hStatus
        cases hStatus
      · exact hCanceled r' hStays hID'
  · intro entry hEntry
    rw [hIDs]
    cases List.mem_append.mp hEntry with
    | inl hNew =>
      rw [Call.completes, hAccepted, Option.mem_toList, Option.some.injEq] at hNew
      rw [← hNew, ← hID]
      exact List.mem_map.mpr ⟨target.run, hr, rfl⟩
    | inr hOld => exact hKept.completed entry hOld

theorem Kept.complete {sys : System} (hKept : Kept h s) (input : CompleteRequest) :
    Kept (h.after s (.complete input)) (sys.step (.complete input) s) := by
  obtain ⟨hNone, hAfter⟩ | ⟨target, hAccepted, hAccepts⟩ := completeLease_cases input hKept
  · have hSame : h.after s (.complete input) = h := by
      simp [History.after, Call.starts, Call.completes, Call.expires, hNone]
    rw [hSame]
    exact hAfter
  · exact hKept.accepted hAccepts hAccepted

end

end NeroCD.Workflows
