import NeroCD.Store.Links
import NeroCD.Store.RunMoves

-- Finished runs keep their status and finish time, but for the rejection of an approval that outlived its run.

namespace NeroCD.Store

open NeroCD.Domain NeroCD.Records

def performAll (ops : List Operation) (s : MemoryStore) : MemoryStore :=
  ops.foldl (fun s op => (perform op s).2) s

def Disciplined (s : MemoryStore) (op : Operation) : Prop := op.Fresh s ∧ op.KeepsRuns ∧ op.KeepsDeployments s

def Final (s t : MemoryStore) : Prop :=
  ∀ r ∈ s.runs, isTerminalRunStatus r.status = true →
    ∃ r', t.runs.find? (fun run => run.id == r.id) = some r' ∧ r'.status = r.status ∧ r'.finishedAt = r.finishedAt

-- What a rejection looks at: an unused audit ID, a run of its own kind and a pending approval of it.
def Rejectable (s : MemoryStore) (runID : String) (audit : Option AuditEvent) : Prop :=
  s.auditTaken audit = false ∧ s.deploymentBackedRunLocked runID = false ∧ s.internalHostingRunLocked runID = false ∧
    ∃ p ∈ s.approvals, p.runID = runID ∧ p.status = .pending

def Operation.LateReject (s : MemoryStore) : Operation → Prop
  | .rejectRun runID _ rejectedAt audit =>
    Rejectable s runID audit ∧
      ∃ r ∈ s.runs, r.id = runID ∧ isTerminalRunStatus r.status = true ∧
        ¬ (r.status = .canceled ∧ r.finishedAt = some rejectedAt)
  | _ => False

abbrev fullDiscipline : Discipline := { runs := True, deployments := True }

section

variable {s : MemoryStore} {op : Operation}

theorem RunMove.sameTask {r r' : TaskRun} (h : RunMove s op r r') : SameTask r r' := by
  cases h with
  | expire => exact (releasedRun_spec _ r).1
  | _ => exact ⟨rfl, rfl⟩

theorem RunMoves.sameTask {r r' : TaskRun} (h : RunMoves s op r r') : SameTask r r' := by
  induction h with
  | refl => exact ⟨rfl, rfl⟩
  | tail _ hMove ih => exact ⟨hMove.sameTask.id.trans ih.id, hMove.sameTask.runSpec.trans ih.runSpec⟩

theorem hostingBuild_listed : NeroCD.GoStrings.trimSpace hostingBuildTaskType ∈ hostingRunTypes := by decide

theorem releasedRun_generic {r : TaskRun} (now : Time) (h : isHostingExecution r.runSpec = false) :
    releasedRun now r = { r with status := .queued, runnerID := none, finishedAt := none } := by
  unfold releasedRun
  rw [if_neg]
  unfold isHostingExecution at h
  simp only [Bool.or_eq_false_iff] at h
  obtain ⟨⟨⟨⟨⟨hType, hBuild⟩, -⟩, -⟩, -⟩, -⟩ := h
  rw [Bool.or_eq_true, beq_iff_eq]
  rintro (hEq | hEq)
  · rw [hEq] at hType
    simp [hostingBuild_listed] at hType
  · rw [hBuild] at hEq
    cases hEq

theorem not_hosting_of_not_contains {spec : RunSpec} {workflow : Workflow}
    (h : containsHostingExecution spec workflow = false) : isHostingExecution spec = false := by
  unfold containsHostingExecution at h
  rw [Bool.or_eq_false_iff] at h
  cases spec
  rw [RunSpec.any, Bool.or_eq_false_iff] at h
  exact h.1.1

theorem not_hosting_of_canonical {d : Deployment} {run run' : TaskRun}
    (h : canonicalComposeDeploymentRun d run = .ok run') : isHostingExecution run'.runSpec = false := by
  unfold canonicalComposeDeploymentRun at h
  simp only at h
  split at h
  · cases h
  split at h
  · cases h
  rename_i hValid
  cases h
  by_contra hHosting
  rw [Bool.not_eq_false] at hHosting
  apply hValid
  unfold validateComposeDeploymentTask
  simp only at hHosting
  simp [hHosting, Except.isOk, Except.toBool]

theorem Operation.Adds.open {run : TaskRun} (h : op.Adds run) (hKeeps : op.KeepsRuns) :
    isHostingExecution run.runSpec = false ∧ isTerminalRunStatus run.status = false := by
  cases op with
  | createRun _ =>
    obtain ⟨rfl, hGeneric⟩ := h
    exact ⟨not_hosting_of_not_contains hGeneric, by rw [show run.status = .queued from hKeeps]; rfl⟩
  | createRunRequest _ _ _ _ =>
    obtain ⟨rfl, hGeneric⟩ := h
    refine ⟨not_hosting_of_not_contains hGeneric, ?_⟩
    obtain ⟨hStatus, -⟩ | ⟨hStatus, -⟩ := hKeeps <;> rw [hStatus] <;> rfl
  | createDeploymentRequest v new _ =>
    refine ⟨not_hosting_of_canonical h, ?_⟩
    rw [(canonicalComposeDeploymentRun_spec v new run h).2.1]
    obtain hStatus | hStatus := hKeeps <;> rw [hStatus] <;> rfl
  | failDeploymentAndCreateRollback _ _ _ _ =>
    exact ⟨h.2, by rw [h.1]; rfl⟩
  | _ => exact h.elim

end

section

variable {D : Discipline} {a a' : Authority}

theorem transition_before {child : Bool} {status target : DeploymentStatus}
    (h : deploymentRoleTransitionAllowed child status target = true) (hBefore : beforeApply target = true) :
    beforeApply status = true := by
  revert h hBefore
  cases child <;> cases status <;> cases target <;> decide

theorem Effect.before (h : Effect D a a') (d' : Deployment) (hd' : d' ∈ a'.deployments)
    (hBefore : beforeApply d'.status = true) :
    (∃ d ∈ a.deployments, d.taskRunID = d'.taskRunID ∧ beforeApply d.status = true) ∨
      ∀ r ∈ a.runs, d'.taskRunID ≠ some r.id := by
  have hKept {d e : Deployment} {deployments : List Deployment} (hd : Replaces d e a.deployments deployments)
      (hRun : e.taskRunID = d.taskRunID) (hOld : beforeApply e.status = true → beforeApply d.status = true)
      (hMem : d' ∈ deployments) : ∃ d ∈ a.deployments, d.taskRunID = d'.taskRunID ∧ beforeApply d.status = true := by
    cases hd.mem_or d' hMem with
    | inl hEq =>
      subst hEq
      exact ⟨d, hd.mem_old, hRun.symm, hOld hBefore⟩
    | inr hMem => exact ⟨d', hMem, rfl, hBefore⟩
  cases h with
  | addRun | addApproval | decide | decideAbsent | editRun | renew | expire | complete | cancelRun
  | addService | addEnvironment => exact .inl ⟨d', hd', rfl, hBefore⟩
  | claim _ _ _ _ _ =>
    obtain ⟨hOld, -⟩ | ⟨d, hd, hQueued, rfl⟩ := mem_updateAll _ _ _ _ hd'
    · exact .inl ⟨d', hOld, rfl, hBefore⟩
    · rw [Bool.and_eq_true, beq_iff_eq, beq_iff_eq] at hQueued
      exact .inl ⟨d, hd, rfl, by rw [hQueued.2]; rfl⟩
  | addDeployment _ _ hRunFresh _ hBacks =>
    cases List.mem_append.mp hd' with
    | inl hOld => exact .inl ⟨d', hOld, rfl, hBefore⟩
    | inr hNew =>
      right
      intro r hr hEq
      rw [List.mem_singleton.mp hNew, hBacks, Option.some.injEq] at hEq
      exact hRunFresh r hr hEq.symm
  | confirm _ _ _ _ _ _ hd hWaiting _ _ _ he =>
    exact .inl (hKept hd (by rw [he]) (fun _ => by rw [hWaiting]; rfl) hd')
  | failUnassigned _ _ _ _ _ _ _ hd _ _ he =>
    exact .inl (hKept hd (by rw [he]) (fun hFailed => by rw [he] at hFailed; cases hFailed) hd')
  | advance _ _ _ _ hd _ _ _ hAllowed =>
    exact .inl (hKept hd rfl (transition_before hAllowed) hd')
  | finish request _ _ _ _ _ _ _ _ _ _ _ _ _ hMiddle hFound hDeployments _ _ _ hAllowed _ hOutcome =>
      obtain ⟨hRoot, hd⟩ := finish_replaces hMiddle hFound hDeployments hAllowed
      have hPast : beforeApply request.targetStatus = false := past_of_terminalOutcome hOutcome
      cases hd.mem_or d' hd' with
      | inl hEq =>
        rw [hEq] at hBefore
        exact absurd (hPast.symm.trans hBefore) Bool.false_ne_true
      | inr hMem =>
        obtain hSame | ⟨rootID, root, -, -, -, hSettled⟩ := hRoot
        · exact .inl ⟨d', hSame ▸ hMem, rfl, hBefore⟩
        · exact .inl (hKept hSettled rfl (fun hAfter => absurd (hPast.symm.trans hAfter) Bool.false_ne_true) hMem)
  | cancelNow _ _ _ _ _ _ hd => exact .inl (hKept hd rfl (fun hCanceled => by cases hCanceled) hd')
  | cancelLater _ _ _ _ hd => exact .inl (hKept hd rfl (fun hRequested => by cases hRequested) hd')
  | failSource _ _ _ _ _ _ _ _ _ _ _ _ hd _ _ _ _ _ _ _ _ _ hCause =>
      refine .inl (hKept hd rfl (fun hFailed => ?_) hd')
      obtain ⟨rfl, -⟩ | ⟨rfl, -⟩ := hCause <;> cases hFailed
  | rollBack _ _ _ _ _ _ _ _ _ _ _ _ _ hd _ _ _ _ _ _ _ _ _ _ _ _ _ _ hRunFresh _ =>
      cases List.mem_append.mp hd' with
      | inl hOld => exact .inl (hKept hd rfl (fun hFailed => by cases hFailed) hOld)
      | inr hNew =>
        right
        intro o ho hEq
        rw [List.mem_singleton.mp hNew] at hEq
        exact hRunFresh o ho (Option.some.inj hEq).symm

theorem Effects.before (h : Effects D a a') (d' : Deployment) (hd' : d' ∈ a'.deployments)
    (hBefore : beforeApply d'.status = true) :
    (∃ d ∈ a.deployments, d.taskRunID = d'.taskRunID ∧ beforeApply d.status = true) ∨
      ∀ r ∈ a.runs, d'.taskRunID ≠ some r.id := by
  have hIDs {b : Authority} (h : Effects D a b) : ∀ r ∈ a.runs, ∃ r' ∈ b.runs, r'.id = r.id := by
    refine h.keeps (fun b => ∀ r ∈ a.runs, ∃ r' ∈ b.runs, r'.id = r.id) ?_ (fun r hr => ⟨r, hr, rfl⟩)
    intro b c hEffect hb r hr
    obtain ⟨x, hx, hxID⟩ := hb r hr
    obtain ⟨y, hy, hyID⟩ := hEffect.run_ids x hx
    exact ⟨y, hy, hyID.trans hxID⟩
  induction h generalizing d' with
  | refl => exact .inl ⟨d', hd', rfl, hBefore⟩
  | tail hEffects hEffect ih =>
    cases hEffect.before d' hd' hBefore with
    | inl hOld =>
      obtain ⟨d, hd, hRun, hdBefore⟩ := hOld
      rw [← hRun]
      exact ih d hd hdBefore
    | inr hNew =>
      right
      intro r hr hEq
      obtain ⟨r', hr', hID⟩ := hIDs hEffects r hr
      exact hNew r' hr' (by rw [hEq, hID])

end

structure Settled (s : MemoryStore) : Prop where
  sound : s.authority.Sound fullDiscipline
  links : s.authority.Linkage
  generic : ∀ r ∈ s.runs, isHostingExecution r.runSpec = false
  -- a run is not finished while its deployment can be canceled at once
  synced : ∀ d ∈ s.deployments, beforeApply d.status = true →
    ∀ r ∈ s.runs, d.taskRunID = some r.id → isTerminalRunStatus r.status = false

theorem settled_newMemoryStore : Settled newMemoryStore where
  sound := sound_newMemoryStore _
  links := linkage_newMemoryStore
  generic := by simp [newMemoryStore]
  synced := by simp [newMemoryStore]

section

variable {s : MemoryStore} {op : Operation}

theorem perform_settledAuthority (h : Settled s) (hOp : Disciplined s op) :
    Effects fullDiscipline s.authority (perform op s).2.authority ∧
      (perform op s).2.authority.Sound fullDiscipline ∧ (perform op s).2.authority.Linkage := by
  have hEffects : Effects fullDiscipline s.authority (perform op s).2.authority :=
    perform_effects op h.sound.formed hOp.1 (fun _ => hOp.2.1) (fun _ => hOp.2.2) (.inl trivial)
      (fun _ _ _ => trivial) (fun _ _ _ => trivial)
  refine ⟨hEffects, hEffects.keeps (fun b => b.Sound fullDiscipline ∧ b.Linkage) ?_ ⟨h.sound, h.links⟩⟩
  intro b b' hEffect hb
  exact ⟨hEffect.sound hb.1, hEffect.linkage hb.1 hb.2 trivial⟩

theorem RunMoves.unfinished {r r' : TaskRun} (h : RunMoves s op r r') (hSettled : Settled s) (hr : r ∈ s.runs)
    (hKeeps : op.KeepsRuns) (hBacked : s.authority.Backed r.id) (hWaits : ¬ Underway (perform op s).2 r.id)
    (hOpen : isTerminalRunStatus r.status = false) : isTerminalRunStatus r'.status = false := by
  induction h with
  | refl => exact hOpen
  | @tail x y hMoves hMove ih =>
    have hTask : SameTask r x := RunMoves.sameTask hMoves
    cases hMove with
    | setState => exact ih
    | setStatus _ _ _ hOp =>
      subst hOp
      exact hKeeps.elim
    | release | claim => rfl
    | expire l now =>
      have hGeneric : isHostingExecution x.runSpec = false := hTask.runSpec ▸ hSettled.generic r hr
      rw [releasedRun_generic now hGeneric]
      rfl
    | reject _ _ _ _ hFree => exact absurd (hTask.id ▸ hBacked) hFree
    | complete _ _ _ _ _ _ _ _ _ _ _ _ _ _ _ _ _ hFree => exact absurd (hTask.id ▸ hBacked) hFree
    | cancel _ _ _ _ _ hFree => exact absurd (hTask.id ▸ hBacked) hFree
    | cancelBacked _ _ _ _ _ _ hUnderway => exact absurd (hTask.id ▸ hUnderway) hWaits
    | fail _ _ _ hUnderway => exact absurd (hTask.id ▸ hUnderway) hWaits
    | finish _ _ _ _ hUnderway => exact absurd (hTask.id ▸ hUnderway) hWaits

theorem Settled.perform (h : Settled s) (hOp : Disciplined s op) : Settled (perform op s).2 := by
  obtain ⟨hEffects, hSound, hLinks⟩ := perform_settledAuthority h hOp
  obtain ⟨added, kept, hRuns, hAdded, hKept⟩ := (perform_moves (s := s) op).moved
  refine ⟨hSound, hLinks, ?_, ?_⟩
  · rw [hRuns]
    intro r' hr'
    cases List.mem_append.mp hr' with
    | inl hNew => exact ((hAdded r' hNew).open hOp.2.1).1
    | inr hOld =>
      obtain ⟨r, hr, hMoves⟩ := exists_of_forall₂_right hKept r' hOld
      rw [(RunMoves.sameTask hMoves).runSpec]
      exact h.generic r hr
  · intro d' hd' hBefore r' hr' hBacks
    rw [hRuns] at hr'
    cases List.mem_append.mp hr' with
    | inl hNew => exact ((hAdded r' hNew).open hOp.2.1).2
    | inr hOld =>
      obtain ⟨r, hr, hMoves⟩ := exists_of_forall₂_right hKept r' hOld
      rw [(RunMoves.sameTask hMoves).id] at hBacks
      -- the run is an old one, so the deployment is too
      obtain ⟨d, hd, hRun, hdBefore⟩ | hFresh := hEffects.before d' hd' hBefore
      · rw [hBacks] at hRun
        refine RunMoves.unfinished hMoves h hr hOp.2.1 (List.mem_map.mpr ⟨d, hd, hRun⟩) ?_
          (h.synced d hd hdBefore r hr hRun)
        rintro ⟨e, he, heRun, hPast⟩
        rw [hLinks.runs.eq he hd' (heRun.trans hBacks.symm), hBefore] at hPast
        cases hPast
      · exact absurd hBacks (hFresh r hr)

theorem rejectRun_isOk {runID actorID : String} {rejectedAt : Time} {audit : Option AuditEvent} :
    (rejectRun runID actorID rejectedAt audit s).1.isOk = true ↔ Rejectable s runID audit := by
  have hFound : (s.approvals.find? (pendingApproval runID)).isSome = true ↔
      ∃ p ∈ s.approvals, p.runID = runID ∧ p.status = .pending := by
    simp only [List.find?_isSome, pendingApproval_iff]
  unfold rejectRun Rejectable
  rw [← hFound]
  cases s.auditTaken audit with
  | true => simp [Except.isOk, Except.toBool]
  | false =>
    cases s.deploymentBackedRunLocked runID with
    | true => simp [Except.isOk, Except.toBool]
    | false =>
      cases s.internalHostingRunLocked runID with
      | true => simp [Except.isOk, Except.toBool]
      | false => cases s.approvals.find? (pendingApproval runID) <;> simp [Except.isOk, Except.toBool]

theorem RunMoves.final {r r' : TaskRun} (h : RunMoves s op r r') (hSettled : Settled s) (hr : r ∈ s.runs)
    (hKeeps : op.KeepsRuns) (hTimely : ¬ op.LateReject s) (hDone : isTerminalRunStatus r.status = true) :
    r'.status = r.status ∧ r'.finishedAt = r.finishedAt := by
  induction h with
  | refl => exact ⟨rfl, rfl⟩
  | @tail x y hMoves hMove ih =>
    have hTask : SameTask r x := RunMoves.sameTask hMoves
    have hNot {status : RunStatus} (hStatus : x.status = status) (hOpen : isTerminalRunStatus status = false) :
        False := by
      rw [← ih.1, hStatus, hOpen] at hDone
      cases hDone
    cases hMove with
    | setState => exact ih
    | setStatus _ _ _ hOp =>
      subst hOp
      exact hKeeps.elim
    | release _ hWaiting => exact (hNot hWaiting rfl).elim
    | reject _ now _ hOp _ hOk =>
      subst hOp
      -- a rejection at the finish time of a canceled run changes nothing
      have hSame : r.status = .canceled ∧ r.finishedAt = some now := by
        by_contra hLate
        exact hTimely ⟨rejectRun_isOk.mp ((isOk_answer _ _).symm.trans hOk), r, hr, hTask.id.symm, hDone, hLate⟩
      exact ⟨hSame.1.symm, hSame.2.symm⟩
    | claim _ _ hQueued => exact (hNot hQueued rfl).elim
    | expire _ _ _ _ _ _ _ hRunning => exact (hNot hRunning rfl).elim
    | complete l _ _ _ _ _ _ _ _ _ _ _ _ _ hl hActive hRun =>
        have hHeld := (hSettled.sound.exclusive.held l hl (.inl trivial) hActive r hr
          (hTask.id.symm.trans hRun.symm)).1
        exact (hNot (ih.1.trans hHeld) rfl).elim
    | cancel _ _ _ _ hOpen => exact (hNot rfl hOpen).elim
    | cancelBacked _ _ d hd hBacks hBefore =>
      have hOpen := hSettled.synced d hd hBefore r hr (by rw [hBacks, hTask.id])
      exact (hNot ih.1 hOpen).elim
    | fail _ _ hStatus =>
      obtain hStatus | hStatus := hStatus <;> exact (hNot hStatus rfl).elim
    | finish _ _ _ hRunning => exact (hNot hRunning rfl).elim

theorem rejectRun_runs {runID actorID : String} {rejectedAt : Time} {audit : Option AuditEvent}
    (hOk : (rejectRun runID actorID rejectedAt audit s).1.isOk = true) :
    (rejectRun runID actorID rejectedAt audit s).2.runs = updateFirst (fun run => run.id == runID)
      (fun run => { run with status := .canceled, finishedAt := some rejectedAt }) s.runs := by
  unfold rejectRun at hOk ⊢
  split at hOk
  · cases hOk
  rename_i hAudit
  split at hOk
  · cases hOk
  rename_i hFree
  split at hOk
  · cases hOk
  simp only [hAudit, hFree, if_false, Bool.false_eq_true, runs_appendTargetedAudit]

theorem perform_final_iff (h : Settled s) (hOp : Disciplined s op) :
    Final s (perform op s).2 ↔ ¬ op.LateReject s := by
  obtain ⟨-, hSound, -⟩ := perform_settledAuthority h hOp
  constructor
  · intro hFinal hLate
    cases op with
    | rejectRun runID actorID rejectedAt audit =>
      obtain ⟨hRejectable, r, hr, hID, hDone, hChanged⟩ := hLate
      obtain ⟨r', hFind, hStatus, hFinished⟩ := hFinal r hr hDone
      have hKeyed : s.runs.find? (fun run => run.id == runID) = some r :=
        h.sound.exclusive.keyed.find?_eq hr (beq_iff_eq.mpr hID) fun z _ hz => (beq_iff_eq.mp hz).trans hID.symm
      have hMem : { r with status := .canceled, finishedAt := some rejectedAt } ∈
          (perform (.rejectRun runID actorID rejectedAt audit) s).2.runs := by
        show _ ∈ (rejectRun runID actorID rejectedAt audit s).2.runs
        rw [rejectRun_runs (rejectRun_isOk.mpr hRejectable)]
        exact (replaces_updateFirst _ _ _ _ hKeyed).mem_new
      have hFound : r'.id = r.id := by simpa using List.find?_some hFind
      have hEq := hSound.exclusive.keyed.eq (List.mem_of_find?_eq_some hFind) hMem hFound
      rw [hEq] at hStatus hFinished
      exact hChanged ⟨hStatus.symm, hFinished.symm⟩
    | _ => exact hLate
  · intro hTimely r hr hDone
    obtain ⟨added, kept, hRuns, hAdded, hKept⟩ := (perform_moves (s := s) op).moved
    obtain ⟨r', hr', hMoves⟩ := exists_of_forall₂_left hKept r hr
    have hMem : r' ∈ (perform op s).2.runs := by
      rw [hRuns]
      exact List.mem_append_right _ hr'
    refine ⟨r', hSound.exclusive.keyed.find?_eq hMem ?_ ?_, RunMoves.final hMoves h hr hOp.2.1 hTimely hDone⟩
    · exact beq_iff_eq.mpr (RunMoves.sameTask hMoves).id
    · intro z _ hz
      exact (beq_iff_eq.mp hz).trans (RunMoves.sameTask hMoves).id.symm

end

theorem Final.trans {s t u : MemoryStore} (h : Final s t) (h' : Final t u) : Final s u := by
  intro r hr hDone
  obtain ⟨x, hx, hStatus, hFinished⟩ := h r hr hDone
  obtain ⟨y, hy, hStatus', hFinished'⟩ := h' x (List.mem_of_find?_eq_some hx) (by rw [hStatus, hDone])
  have hID : x.id = r.id := by simpa using List.find?_some hx
  exact ⟨y, hID ▸ hy, hStatus'.trans hStatus, hFinished'.trans hFinished⟩

theorem performAll_append (ops later : List Operation) (s : MemoryStore) :
    performAll (ops ++ later) s = performAll later (performAll ops s) :=
  List.foldl_append

theorem performAll_concat (ops : List Operation) (op : Operation) (s : MemoryStore) :
    performAll (ops ++ [op]) s = (perform op (performAll ops s)).2 :=
  performAll_append ops [op] s

def EachStep (P : MemoryStore → Operation → Prop) (ops : List Operation) : Prop :=
  ∀ before op after, ops = before ++ op :: after → P (performAll before newMemoryStore) op

theorem EachStep.init {P : MemoryStore → Operation → Prop} {ops later : List Operation}
    (h : EachStep P (ops ++ later)) : EachStep P ops := by
  intro before op after hEq
  exact h before op (after ++ later) (by rw [hEq, List.append_assoc, List.cons_append])

theorem eachStep_nil (P : MemoryStore → Operation → Prop) : EachStep P [] := by
  intro before op after hEq
  simp at hEq

theorem EachStep.concat {P : MemoryStore → Operation → Prop} {ops : List Operation} {op : Operation}
    (h : EachStep P ops) (hOp : P (performAll ops newMemoryStore) op) : EachStep P (ops ++ [op]) := by
  intro before op' after hEq
  cases after using List.reverseRecOn with
  | nil =>
    obtain ⟨rfl, hLast⟩ := List.append_inj' hEq rfl
    rwa [← List.singleton_inj.mp hLast]
  | append_singleton after _ =>
    rw [← List.cons_append, ← List.append_assoc] at hEq
    obtain ⟨rfl, -⟩ := List.append_inj' hEq rfl
    exact h before op' after rfl

theorem settled_performAll (ops : List Operation) (h : EachStep Disciplined ops) :
    Settled (performAll ops newMemoryStore) := by
  induction ops using List.reverseRecOn with
  | nil => exact settled_newMemoryStore
  | append_singleton ops op ih =>
    rw [performAll_concat]
    exact (ih h.init).perform (h ops op [] rfl)

-- In every sequence of operations, a finished run never changes its status or its finish time exactly if
-- no approval is rejected whose run is finished already.
theorem terminal_runs_final_iff (ops : List Operation) (h : EachStep Disciplined ops) :
    (∀ earlier later rest, ops = earlier ++ later ++ rest →
      Final (performAll earlier newMemoryStore) (performAll (earlier ++ later) newMemoryStore)) ↔
    EachStep (fun s op => ¬ op.LateReject s) ops := by
  constructor
  · intro hFinal before op after hEq
    have hBefore : EachStep Disciplined before := by
      rw [hEq] at h
      exact h.init
    have hStep := hFinal before [op] after (by rw [hEq, List.append_assoc, List.singleton_append])
    rw [performAll_concat] at hStep
    exact (perform_final_iff (settled_performAll before hBefore) (h before op after hEq)).mp hStep
  · intro hTimely earlier later rest hEq
    induction later using List.reverseRecOn generalizing rest with
    | nil =>
      rw [List.append_nil] at hEq ⊢
      have hSettled := settled_performAll earlier (by rw [hEq] at h; exact h.init)
      intro r hr hDone
      refine ⟨r, hSettled.sound.exclusive.keyed.find?_eq hr (beq_self_eq_true _) ?_, rfl, rfl⟩
      intro z _ hz
      exact beq_iff_eq.mp hz
    | append_singleton later op ih =>
      have hSplit : ops = (earlier ++ later) ++ op :: rest := by
        rw [hEq]
        simp
      have hBefore : EachStep Disciplined (earlier ++ later) := by
        rw [hSplit] at h
        exact h.init
      rw [← List.append_assoc, performAll_concat]
      exact (ih (op :: rest) hSplit).trans ((perform_final_iff (settled_performAll _ hBefore)
        (h _ op rest hSplit)).mpr (hTimely _ op rest hSplit))

def requestedRun : TaskRun :=
  { id := "run", projectID := "project", runSpec := { type := "shell" }, status := .waitingApproval,
    requestedBy := "user", startedAt := 0 }

def requestedLog : RunLog :=
  { id := "log", runID := "run", sequence := 1, stream := .system, message := "requested", createdAt := 0 }

def requestedApproval : Approval :=
  { id := "approval", runID := "run", status := .pending, requestedBy := "user", createdAt := 0 }

def requestAudit : AuditEvent :=
  { id := "audit", actorID := "user", action := "run.request", targetID := "run", createdAt := 0 }

def canceledRequest : List Operation :=
  [.createRunRequest requestedRun requestedLog (some requestedApproval) requestAudit,
   .cancelRunRequest "run" 5 requestedLog requestAudit]

theorem canceledRequest_disciplined : EachStep Disciplined canceledRequest := by
  refine ((eachStep_nil Disciplined).concat ?_).concat ?_
  · exact ⟨by simp [Operation.Fresh, performAll, newMemoryStore], .inr ⟨rfl, requestedApproval, rfl, rfl⟩, trivial⟩
  · exact ⟨trivial, trivial, trivial⟩

theorem canceledRequest_final :
    EachStep Disciplined (canceledRequest ++ [.expireLeases 9]) ∧
      Final (performAll canceledRequest newMemoryStore)
        (performAll (canceledRequest ++ [.expireLeases 9]) newMemoryStore) := by
  have hDisciplined : EachStep Disciplined (canceledRequest ++ [.expireLeases 9]) :=
    canceledRequest_disciplined.concat ⟨trivial, trivial, trivial⟩
  have hTimely : EachStep (fun s op => ¬ op.LateReject s) (canceledRequest ++ [.expireLeases 9]) :=
    (((eachStep_nil _).concat id).concat id).concat id
  exact ⟨hDisciplined, (terminal_runs_final_iff _ hDisciplined).mpr hTimely canceledRequest [.expireLeases 9] [] rfl⟩

-- The approval outlives the run, and its rejection finishes the run once more.
theorem rejection_finishes_again :
    EachStep Disciplined (canceledRequest ++ [.rejectRun "run" "admin" 9 none]) ∧
      ¬ Final (performAll canceledRequest newMemoryStore)
        (performAll (canceledRequest ++ [.rejectRun "run" "admin" 9 none]) newMemoryStore) := by
  refine ⟨canceledRequest_disciplined.concat ⟨trivial, trivial, trivial⟩, ?_⟩
  intro hFinal
  obtain ⟨r', hFind, -, hFinished⟩ := hFinal { requestedRun with status := .canceled, finishedAt := some 5 }
    List.mem_cons_self rfl
  have hRejected : ((performAll (canceledRequest ++ [.rejectRun "run" "admin" 9 none]) newMemoryStore).runs.find?
      (fun run => run.id == "run")).map (fun run => run.finishedAt) = some (some 9) := by
    decide
  have hKept : some r'.finishedAt = some (some 9) := (congrArg (Option.map _) hFind).symm.trans hRejected
  rw [hFinished] at hKept
  exact absurd hKept (by decide)

end NeroCD.Store
