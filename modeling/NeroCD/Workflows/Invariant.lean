import NeroCD.Workflows.Runs

-- What holds of runs and leases in every state that calls reach.

namespace NeroCD.Workflows

open NeroCD.Checks NeroCD.Domain NeroCD.GoStrings NeroCD.Records NeroCD.Store

abbrev runDiscipline : Discipline := { runs := True, deployments := False }

structure Followed (h : History) (r : TaskRun) : Prop where
  tracks : Tracks r (h.startedOf r.id)
  counted : r.status ≠ .failed → r.status ≠ .canceled →
    (h.completionsOf r.id).length + (if r.status = .running then 1 else 0) = (h.startedOf r.id).length

-- The step states are those of the steps and, unless a lease of the run expired, follow from what was started.
structure RunKept (h : History) (r : TaskRun) : Prop where
  trimmed : trimSpace r.id = r.id
  generic : r.runSpec.type ∉ typedClaimTypes
  normalized : Normalized r.workflow.steps
  ids : r.workflowState.steps.map (fun x => x.id) = r.workflow.steps.map (fun step => step.id)
  followed : r.workflow.steps ≠ [] → r.id ∉ h.expired → Followed h r

structure Kept (h : History) (s : MemoryStore) : Prop where
  sound : s.authority.Sound runDiscipline
  free : s.deployments = []
  runs : ∀ r ∈ s.runs, RunKept h r
  -- a lease that was never completed is active, unless it expired or its run was canceled
  leases : ∀ l ∈ s.leases, l.completionKey = "" → l.runID ∉ h.expired →
    l.status = .active ∨ ∀ r ∈ s.runs, r.id = l.runID → r.status = .canceled
  started : ∀ entry ∈ h.started, entry.1 ∈ s.runs.map (fun r => r.id)
  completed : ∀ entry ∈ h.completed, entry.1 ∈ s.runs.map (fun r => r.id)

-- The history of one run.
section

variable {α : Type} {runID : String} {entries : List (String × α)}

theorem entriesOf_eq_nil (h : ∀ entry ∈ entries, entry.1 ≠ runID) : entriesOf runID entries = [] := by
  unfold entriesOf
  rw [List.filter_eq_nil_iff.mpr fun entry hEntry => by simpa using h entry hEntry, List.map_nil]

theorem entriesOf_cons_self (value : α) :
    entriesOf runID ((runID, value) :: entries) = value :: entriesOf runID entries := by
  simp [entriesOf]

theorem entriesOf_cons_of_ne {other : String} (value : α) (h : other ≠ runID) :
    entriesOf runID ((other, value) :: entries) = entriesOf runID entries := by
  simp [entriesOf, h]

end

section

variable {h h' : History} {r r' : TaskRun}

theorem RunKept.change (hKept : RunKept h r) (hID : r'.id = r.id) (hSpec : r'.runSpec = r.runSpec)
    (hWorkflow : r'.workflow = r.workflow)
    (hIDs : r'.workflowState.steps.map (fun x => x.id) = r.workflowState.steps.map (fun x => x.id))
    (hExpired : h.expired ⊆ h'.expired)
    (hFollowed : r.workflow.steps ≠ [] → r.id ∉ h'.expired → Followed h r → Followed h' r') : RunKept h' r' where
  trimmed := by rw [hID, hKept.trimmed]
  generic := hSpec ▸ hKept.generic
  normalized := hWorkflow ▸ hKept.normalized
  ids := by rw [hIDs, hWorkflow, hKept.ids]
  followed := by
    rw [hWorkflow, hID]
    intro hSteps hSpared
    exact hFollowed hSteps hSpared (hKept.followed hSteps fun hMem => hSpared (hExpired hMem))

theorem RunKept.same (hKept : RunKept h r) (hStarted : h'.startedOf r.id = h.startedOf r.id)
    (hCompleted : h'.completionsOf r.id = h.completionsOf r.id) (hExpired : h.expired ⊆ h'.expired) :
    RunKept h' r := by
  refine hKept.change rfl rfl rfl rfl hExpired ?_
  rintro - - ⟨hTracks, hCounted⟩
  exact ⟨hStarted ▸ hTracks, by rwa [hStarted, hCompleted]⟩

theorem RunKept.stopped (hKept : RunKept h r) (hID : r'.id = r.id) (hSpec : r'.runSpec = r.runSpec)
    (hWorkflow : r'.workflow = r.workflow) (hState : r'.workflowState = r.workflowState)
    (hStatus : r'.status = .canceled) : RunKept h r' := by
  refine hKept.change hID hSpec hWorkflow (by rw [hState]) (List.Subset.refl _) ?_
  rintro - - ⟨hTracks, -⟩
  refine ⟨⟨⟨?_, ?_, hID ▸ hTracks.nodup, ?_⟩, .stopped _ (.inr hStatus)⟩, fun _ hOpen => absurd hStatus hOpen⟩
  · rw [hWorkflow]
    exact hTracks.normalized
  · rw [hState, hWorkflow]
    exact hTracks.ids
  · rw [hWorkflow, hID]
    exact hTracks.known

theorem RunKept.released (hKept : RunKept h r) (hWaiting : r.status = .waitingApproval) :
    RunKept h { r with status := .queued } := by
  refine hKept.change rfl rfl rfl rfl (List.Subset.refl _) ?_
  rintro - - ⟨hTracks, hCounted⟩
  exact ⟨hTracks.released hWaiting, by simpa [hWaiting] using hCounted⟩

end

-- Calls that start and complete nothing.
section

variable {sys : System} {h : History} {s t : MemoryStore} {call : Call}

theorem Kept.quiet (hKept : Kept h s) (hStarts : call.starts s = none) (hCompletes : call.completes s = none)
    (hSound : t.authority.Sound runDiscipline) (hFree : t.deployments = [])
    (hIDs : s.runs.map (fun r => r.id) ⊆ t.runs.map (fun r => r.id))
    (hRuns : ∀ r ∈ t.runs, RunKept (h.after s call) r)
    (hLeases : ∀ l ∈ t.leases, l.completionKey = "" → l.runID ∉ (h.after s call).expired →
      l.status = .active ∨ ∀ r ∈ t.runs, r.id = l.runID → r.status = .canceled) : Kept (h.after s call) t where
  sound := hSound
  free := hFree
  runs := hRuns
  leases := hLeases
  started := by
    simp only [History.after, hStarts, Option.toList_none, List.nil_append]
    exact fun entry hEntry => hIDs (hKept.started entry hEntry)
  completed := by
    simp only [History.after, hCompletes, Option.toList_none, List.nil_append]
    exact fun entry hEntry => hIDs (hKept.completed entry hEntry)

theorem expired_after : h.expired ⊆ (h.after s call).expired := List.subset_append_right _ _

theorem RunKept.after {r : TaskRun} (hKept : RunKept h r) (hStarts : call.starts s = none)
    (hCompletes : call.completes s = none) : RunKept (h.after s call) r := by
  refine hKept.same ?_ ?_ expired_after
  · simp [History.startedOf, History.after, hStarts]
  · simp [History.completionsOf, History.after, hCompletes]

theorem Kept.unchanged (hKept : Kept h s) (hStarts : call.starts s = none) (hCompletes : call.completes s = none)
    (hSound : t.authority.Sound runDiscipline) (hRuns : t.runs = s.runs) (hLeases : t.leases = s.leases)
    (hFree : t.deployments = s.deployments) : Kept (h.after s call) t := by
  refine hKept.quiet hStarts hCompletes hSound (hFree.trans hKept.free) (hRuns ▸ List.Subset.refl _) ?_ ?_
  · rw [hRuns]
    exact fun r hr => (hKept.runs r hr).after hStarts hCompletes
  · rw [hRuns, hLeases]
    exact fun l hl hKey hSpared => hKept.leases l hl hKey fun hMem => hSpared (expired_after hMem)

theorem mem_overdueRuns {now : Time} {runID : String} : runID ∈ overdueRuns now s ↔ Overdue now s runID := by
  simp only [overdueRuns, List.mem_map, List.mem_filter, Bool.and_eq_true, beq_iff_eq, decide_eq_true_eq, Overdue]
  constructor
  · rintro ⟨l, ⟨hl, hActive, hLate⟩, hRun⟩
    exact ⟨l, hl, hRun, hActive, hLate⟩
  · rintro ⟨l, hl, hRun, hActive, hLate⟩
    exact ⟨l, ⟨hl, hActive, hLate⟩, hRun⟩

theorem swept_runs (now : Time) :
    List.Forall₂ (RunMoves s (.expireLeases now)) s.runs (expireLeasesLocked now s).runs :=
  expireLeasesLocked_moves (.expireLeases now) now rfl

theorem swept_ids (now : Time) :
    (expireLeasesLocked now s).runs.map (fun r => r.id) = s.runs.map (fun r => r.id) :=
  map_eq_of_forall₂ (swept_runs now) _ fun _ _ hMoves => (swept_run hMoves).1

theorem keyed_swept (now : Time) (hSound : s.authority.Sound runDiscipline) :
    Keyed (fun r : TaskRun => r.id) (expireLeasesLocked now s).runs := by
  rw [keyed_iff_nodup, swept_ids]
  exact (keyed_iff_nodup _ _).mp hSound.exclusive.keyed

theorem Kept.swept_runs (hKept : Kept h s) {now : Time} (h' : History)
    (hExpired : ∀ runID, Overdue now s runID ∨ runID ∈ h.expired → runID ∈ h'.expired) {r : TaskRun}
    (hr : r ∈ (expireLeasesLocked now s).runs) (hStarted : h'.startedOf r.id = h.startedOf r.id)
    (hCompleted : h'.completionsOf r.id = h.completionsOf r.id) : RunKept h' r := by
  obtain ⟨r₀, hr₀, hMoves⟩ := exists_of_forall₂_right (Workflows.swept_runs now) r hr
  obtain ⟨hID, hWorkflow, hState, hSpec, hSame⟩ := swept_run hMoves
  refine (hKept.runs r₀ hr₀).change hID hSpec hWorkflow (by rw [hState])
    (fun runID hMem => hExpired runID (.inr hMem)) ?_
  intro _ hSpared hFollowed
  have hEq : r = r₀ := hSame fun hLate => hSpared (hExpired _ (.inl hLate))
  subst hEq
  exact ⟨hStarted ▸ hFollowed.tracks, by rw [hStarted, hCompleted]; exact hFollowed.counted⟩

theorem Kept.swept_leases (hKept : Kept h s) {now : Time} {l : RunLease} (hl : l ∈ (expireLeasesLocked now s).leases)
    (hKey : l.completionKey = "") (hSpared : ¬ Overdue now s l.runID) (hExpired : l.runID ∉ h.expired) :
    l.status = .active ∨ ∀ r ∈ (expireLeasesLocked now s).runs, r.id = l.runID → r.status = .canceled := by
  have hOld := (NeroCD.Store.swept_leases now l hl).resolve_right hSpared
  refine (hKept.leases l hOld hKey hExpired).imp_right ?_
  intro hCanceled r hr hRun
  obtain ⟨r₀, hr₀, hMoves⟩ := exists_of_forall₂_right (Workflows.swept_runs now) r hr
  obtain ⟨hID, -, -, -, hSame⟩ := swept_run hMoves
  have hEq : r = r₀ := hSame (hID ▸ hRun ▸ hSpared)
  exact hEq ▸ hCanceled r₀ hr₀ (hID ▸ hRun)

theorem Kept.sweep (hKept : Kept h s) (now : Time) (hStarts : call.starts s = none)
    (hCompletes : call.completes s = none) (hExpires : call.expires s = overdueRuns now s)
    (hSound : t.authority.Sound runDiscipline) (hRuns : t.runs = (expireLeasesLocked now s).runs)
    (hLeases : t.leases = (expireLeasesLocked now s).leases)
    (hFree : t.deployments = []) : Kept (h.after s call) t := by
  have hExpired (runID : String) : Overdue now s runID ∨ runID ∈ h.expired ↔ runID ∈ (h.after s call).expired := by
    rw [History.after, List.mem_append, hExpires, mem_overdueRuns]
  refine hKept.quiet hStarts hCompletes hSound hFree ?_ ?_ ?_
  · rw [hRuns, swept_ids]
    exact List.Subset.refl _
  · rw [hRuns]
    intro r hr
    refine hKept.swept_runs _ (fun runID => (hExpired runID).mp) hr ?_ ?_
    · simp [History.startedOf, History.after, hStarts]
    · simp [History.completionsOf, History.after, hCompletes]
  · rw [hRuns, hLeases]
    intro l hl hKey hSpared
    rw [← hExpired, not_or] at hSpared
    exact hKept.swept_leases hl hKey hSpared.1 hSpared.2

end

-- Requests.
section

variable {sys : System} {h : History} {s : MemoryStore}

theorem tracks_requestedRun (input : RunRequest) (runSpec : RunSpec) {workflow : Workflow}
    (hNormalized : Normalized workflow.steps) (hSteps : workflow.steps ≠ []) :
    Tracks (requestedRun input runSpec workflow) [] := by
  have hIDs : (initialWorkflowState workflow).steps.map (fun x => x.id) =
      workflow.steps.map (fun step => step.id) := by
    simp [initialWorkflowState]
  refine ⟨⟨hNormalized, hIDs, List.nodup_nil, List.nil_subset _⟩, .waiting [] ?_ rfl ?_ ?_⟩
  · unfold requestedRun
    cases input.requiresAck <;> simp
  · intro x hx
    obtain ⟨step, -, rfl⟩ := List.mem_map.mp hx
    rfl
  · exact List.length_pos_iff.mpr hSteps

theorem Kept.requested (hKept : Kept h s) (input : RunRequest) (hAdmitted : Call.Admitted s (.request input)) :
    Kept (h.after s (.request input)) (sys.step (.request input) s) := by
  obtain ⟨hTrimmed, hFresh⟩ := hAdmitted
  unfold System.step requestRunWithSpec
  simp only
  split
  · exact hKept.unchanged rfl rfl hKept.sound rfl rfl rfl
  rename_i runSpec workflow hDefinition
  obtain ⟨hGeneric, hNormalized⟩ := requestedDefinition_ok hDefinition
  generalize hRun : requestedRun input runSpec workflow = run
  have hSound : (createRunRequest run (requestLog input) (requestApproval input) (requestAudit input run)
      s).2.authority.Sound runDiscipline := by
    refine (createRunRequest_effects run _ _ _ (hRun ▸ hFresh) fun _ => ?_).keeps _ (fun _ _ => Effect.sound)
      hKept.sound
    rw [← hRun]
    unfold requestedRun requestApproval
    cases input.requiresAck <;> simp
  revert hSound
  unfold createRunRequest
  split
  · exact fun _ => hKept.unchanged rfl rfl hKept.sound rfl rfl rfl
  intro hSound
  refine hKept.quiet rfl rfl hSound hKept.free (List.subset_cons_self _ _) ?_ ?_
  · intro r hr
    obtain rfl | hOld := List.mem_cons.mp hr
    · subst hRun
      refine ⟨hTrimmed, hGeneric, hNormalized, by simp [requestedRun, initialWorkflowState], ?_⟩
      intro hSteps _
      -- nothing is recorded of a run that is not there
      have hNew {α : Type} {entries : List (String × α)}
          (hKnown : ∀ entry ∈ entries, entry.1 ∈ s.runs.map (fun r => r.id)) :
          entriesOf input.runID entries = [] := by
        apply entriesOf_eq_nil
        intro entry hEntry hEq
        obtain ⟨r, hr, hID⟩ := List.mem_map.mp (hKnown entry hEntry)
        exact hFresh r hr (hID.trans hEq)
      have hStarted : (h.after s (.request input)).startedOf input.runID = [] := hNew hKept.started
      have hCompleted : (h.after s (.request input)).completionsOf input.runID = [] := hNew hKept.completed
      refine ⟨?_, ?_⟩
      · show Tracks _ ((h.after s (.request input)).startedOf input.runID)
        rw [hStarted]
        exact tracks_requestedRun input runSpec hNormalized hSteps
      · show _ → _ → ((h.after s (.request input)).completionsOf input.runID).length + _ =
          ((h.after s (.request input)).startedOf input.runID).length
        rw [hStarted, hCompleted]
        unfold requestedRun
        cases input.requiresAck <;> simp
    · exact (hKept.runs r hOld).after rfl rfl
  · intro l hl hKey hSpared
    refine (hKept.leases l hl hKey fun hMem => hSpared (expired_after hMem)).imp_right ?_
    intro hCanceled r hr hID
    obtain rfl | hOld := List.mem_cons.mp hr
    · obtain ⟨r, hr, hKnown⟩ := hKept.sound.exclusive.known l hl
      exact absurd (hKnown.trans hID.symm) (hRun ▸ hFresh r hr)
    · exact hCanceled r hOld hID

end

-- Operations of the store.
section

variable {sys : System} {h : History} {s : MemoryStore} {op : Operation}

theorem sound_around (hSound : s.authority.Sound runDiscipline) (hAround : Around op) :
    (perform op s).2.authority.Sound runDiscipline := by
  have hFresh : op.Fresh s := by cases op <;> first | exact trivial | exact hAround.elim
  have hKeeps : op.KeepsRuns := by cases op <;> first | exact trivial | exact hAround.elim
  exact perform_sound op hSound hFresh (fun _ => hKeeps) False.elim (.inl trivial) (fun _ _ _ => trivial)
    (fun _ _ _ => trivial)

theorem RunKept.moved (hAround : Around op) (hNoSweep : ∀ now, op ≠ .expireLeases now) {r r' : TaskRun}
    (hMoves : RunMoves s op r r') (hKept : RunKept h r) :
    RunKept h r' ∧ r'.id = r.id ∧ (r.status = .canceled → r'.status = .canceled) := by
  induction hMoves with
  | refl => exact ⟨hKept, rfl, id⟩
  | @tail x y _ hMove ih =>
    obtain ⟨hKept, hID, hCanceled⟩ := ih
    cases hMove with
    | release _ hWaiting =>
      refine ⟨hKept.released hWaiting, hID, fun hEq => ?_⟩
      rw [hCanceled hEq] at hWaiting
      cases hWaiting
    | reject => exact ⟨hKept.stopped rfl rfl rfl rfl rfl, hID, fun _ => rfl⟩
    | cancel => exact ⟨hKept.stopped rfl rfl rfl rfl rfl, hID, fun _ => rfl⟩
    | setState _ hOp | setStatus _ _ _ hOp | complete _ _ _ _ _ _ _ _ _ _ _ _ _ hOp =>
      subst hOp
      exact hAround.elim
    | claim _ hOp | cancelBacked _ hOp | fail _ hOp | finish _ _ hOp =>
      cases op <;> first | exact hOp.elim | exact hAround.elim
    | expire _ _ hOp =>
      cases op with
      | claimRun => exact hAround.elim
      | expireLeases time => exact absurd rfl (hNoSweep time)
      | _ => exact hOp.elim

theorem moves_around (hAround : Around op) : List.Forall₂ (RunMoves s op) s.runs (perform op s).2.runs := by
  obtain ⟨added, kept, hEq, hAdded, hMoves⟩ := (perform_moves (s := s) op).moved
  cases added with
  | nil => exact hEq ▸ hMoves
  | cons run _ =>
    have hAdds := hAdded run List.mem_cons_self
    cases op <;> first | exact hAdds.elim | exact hAround.elim

theorem Kept.moved (hKept : Kept h s) (hAround : Around op) (hNoSweep : ∀ now, op ≠ .expireLeases now)
    (hFree : (perform op s).2.deployments = [])
    (hLeases : ∀ l ∈ (perform op s).2.leases, (∃ l₀ ∈ s.leases, l₀.runID = l.runID ∧ l₀.status = l.status ∧
      l₀.completionKey = l.completionKey) ∨ ∀ r ∈ (perform op s).2.runs, r.id = l.runID → r.status = .canceled) :
    Kept (h.after s (.operate op)) (perform op s).2 := by
  have hMoves := moves_around (s := s) hAround
  refine hKept.quiet rfl rfl (sound_around hKept.sound hAround) hFree ?_ ?_ ?_
  · intro runID hMem
    obtain ⟨r, hr, rfl⟩ := List.mem_map.mp hMem
    obtain ⟨r', hr', hMove⟩ := exists_of_forall₂_left hMoves r hr
    exact List.mem_map.mpr ⟨r', hr', ((hKept.runs r hr).moved hAround hNoSweep hMove).2.1⟩
  · intro r' hr'
    obtain ⟨r, hr, hMove⟩ := exists_of_forall₂_right hMoves r' hr'
    exact ((hKept.runs r hr).moved hAround hNoSweep hMove).1.after rfl rfl
  · intro l hl hKey hSpared
    refine (hLeases l hl).elim ?_ .inr
    rintro ⟨l₀, hl₀, hRun, hStatus, hSameKey⟩
    rw [← hStatus, ← hRun]
    refine (hKept.leases l₀ hl₀ (hSameKey.trans hKey) fun hMem => ?_).imp_right ?_
    · exact hSpared (expired_after (hRun ▸ hMem))
    · intro hCanceled r' hr' hID'
      obtain ⟨r, hr, hMove⟩ := exists_of_forall₂_right hMoves r' hr'
      obtain ⟨-, hID, hStays⟩ := (hKept.runs r hr).moved hAround hNoSweep hMove
      exact hStays (hCanceled r hr (hID ▸ hID'))

theorem Kept.operated (hKept : Kept h s) (hAround : Around op) :
    Kept (h.after s (.operate op)) (sys.step (.operate op) s) := by
  have hSound := sound_around hKept.sound hAround
  have hWrites := perform_writes (s := s) op
  -- an operation that does not write the leases
  have hSame (hNoSweep : ∀ now, op ≠ .expireLeases now) (hLeases : op.writes .leases = false)
      (hDeployments : op.writes .deployments = false) : Kept (h.after s (.operate op)) (perform op s).2 := by
    refine hKept.moved hAround hNoSweep ((hWrites.deployments hDeployments).trans hKept.free) ?_
    rw [hWrites.leases hLeases]
    exact fun l hl => .inl ⟨l, hl, rfl, rfl, rfl⟩
  cases op with
  | expireLeases now => exact hKept.sweep now rfl rfl rfl hSound rfl rfl ((hWrites.deployments rfl).trans hKept.free)
  | renewLease runnerID leaseID fence attempt now ttl =>
    refine hKept.moved hAround nofun ((hWrites.deployments rfl).trans hKept.free) ?_
    show ∀ l ∈ (renewLease runnerID leaseID fence attempt now ttl s).2.leases, _
    unfold renewLease
    simp only
    split
    · exact fun l hl => .inl ⟨l, hl, rfl, rfl, rfl⟩
    · rename_i l₀ hl₀
      intro l hl
      cases (replaces_updateFirst _ _ _ _ hl₀).mem_or l hl with
      | inl hEq => exact hEq ▸ .inl ⟨l₀, List.mem_of_find?_eq_some hl₀, rfl, rfl, rfl⟩
      | inr hOld => exact .inl ⟨l, hOld, rfl, rfl, rfl⟩
  | cancelRunRequest runID canceledAt log audit =>
    refine hKept.moved hAround nofun ((hWrites.deployments rfl).trans hKept.free) ?_
    show ∀ l ∈ (cancelRunRequest runID canceledAt log audit s).2.leases, _ ∨
      ∀ r ∈ (cancelRunRequest runID canceledAt log audit s).2.runs, _
    unfold cancelRunRequest
    simp only
    split
    · exact fun l hl => .inl ⟨l, hl, rfl, rfl, rfl⟩
    split
    · exact fun l hl => .inl ⟨l, hl, rfl, rfl, rfl⟩
    rename_i r₀ hr₀
    have hID : r₀.id = runID := by
      have hFound := List.find?_some hr₀
      simp only [Bool.and_eq_true, beq_iff_eq] at hFound
      exact hFound.1
    intro l hl
    cases mem_updateAll _ _ _ l hl with
    | inl hOld => exact .inl ⟨l, hOld.1, rfl, rfl, rfl⟩
    | inr hClosed =>
      obtain ⟨l₀, -, hActive, rfl⟩ := hClosed
      right
      intro r hr hRun
      obtain rfl | ⟨-, hOther⟩ :=
        (replaces_updateFirst _ _ _ _ hr₀).mem_keyed _ hKept.sound.exclusive.keyed r hr
      · rfl
      · refine absurd ?_ hOther
        exact (hRun.trans ((activeLeaseOf_iff _ _).mp hActive).1).trans hID.symm
  | createRun | createRunRequest | updateRunStatus | updateRunWorkflowState | createApproval | claimRun
  | completeLeaseRequest | createDeploymentRequest | confirmDeployment | failPreAssignmentDeployment
  | transitionDeploymentAttempt | cancelDeploymentRequest | failDeploymentAndCreateRollback => exact hAround.elim
  | _ => exact hSame nofun rfl rfl

end

end NeroCD.Workflows
