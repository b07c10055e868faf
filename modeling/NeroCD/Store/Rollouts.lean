import NeroCD.Store.Finality

-- Deployments over whole runs: serial in each environment, final once finished, and the only source of a healthy
-- revision.

namespace NeroCD.Store

open NeroCD.Domain NeroCD.Records

def unfinished (status : DeploymentStatus) : Bool := !isTerminalDeploymentStatus status

-- A root that is rolling back waits for its child.
def inProgress (status : DeploymentStatus) : Bool := unfinished status && status != .rollingBack

structure Authority.Serial (a : Authority) : Prop where
  progress : ∀ environment, a.deployments.countP (fun d => d.environmentID == environment && inProgress d.status) ≤ 1
  roots : ∀ environment, a.deployments.countP (fun d => d.environmentID == environment && d.rollbackOfID.isNone &&
    unfinished d.status) ≤ 1

structure Advance (d d' : Deployment) : Prop where
  same : identity d' = identity d
  final : unfinished d.status = false → d' = d
  progress : inProgress d'.status = true → inProgress d.status = true

inductive RolloutStep (a a' : Authority) : Prop
  | advance (h : List.Forall₂ Advance a.deployments a'.deployments)
  | start (d : Deployment) (h : a'.deployments = a.deployments ++ [d])
      (hFree : ∀ e ∈ a.deployments, e.environmentID = d.environmentID → unfinished e.status = false)
  | rollBack (d d' child : Deployment) (deployments : List Deployment) (hd : Replaces d d' a.deployments deployments)
      (h : a'.deployments = deployments ++ [child]) (hStep : Advance d d') (hBefore : inProgress d.status = true)
      (hAfter : inProgress d'.status = false) (hEnv : child.environmentID = d.environmentID)
      (hChild : child.rollbackOfID.isNone = false)

section

variable {D : Discipline} {a a' : Authority} {d d' e : Deployment}

theorem Advance.refl (d : Deployment) : Advance d d := ⟨rfl, fun _ => rfl, id⟩

theorem Advance.trans (h : Advance d d') (h' : Advance d' e) : Advance d e where
  same := h'.same.trans h.same
  final := fun hDone => by
    have hSame := h.final hDone
    rw [h'.final (hSame ▸ hDone), hSame]
  progress := fun he => h.progress (h'.progress he)

theorem Advance.unfinished (h : Advance d d') (hOpen : unfinished d'.status = true) :
    Store.unfinished d.status = true := by
  cases hDone : Store.unfinished d.status with
  | true => rfl
  | false => rw [h.final hDone, hDone] at hOpen; exact hOpen

theorem Advance.of_inProgress (hSame : identity d' = identity d) (h : inProgress d.status = true) : Advance d d' := by
  have hOpen : Store.unfinished d.status = true := (Bool.and_eq_true_iff.mp h).1
  exact ⟨hSame, fun hDone => absurd (hOpen.symm.trans hDone) (by decide), fun _ => h⟩

theorem transition_inProgress {child : Bool} {status target : DeploymentStatus}
    (h : deploymentRoleTransitionAllowed child status target = true) : inProgress status = true := by
  revert h
  cases child <;> cases status <;> cases target <;> decide

theorem inProgress_of {status : DeploymentStatus} (h : beforeApply status = true ∨ failureStatus status = true) :
    inProgress status = true := by
  revert h
  cases status <;> decide

theorem RolloutStep.one (hd : Replaces d d' a.deployments a'.deployments) (hSame : identity d' = identity d)
    (h : inProgress d.status = true) : RolloutStep a a' :=
  .advance (hd.forall₂ _ Advance.refl (.of_inProgress hSame h))

theorem Effect.rollout (h : Effect D a a') : RolloutStep a a' := by
  cases h with
  | addRun | addApproval | decide | decideAbsent | editRun | renew | expire | complete | cancelRun
  | addService | addEnvironment => exact .advance (List.forall₂_same.mpr fun d _ => .refl d)
  | claim =>
    refine .advance (forall₂_updateAll _ _ _ _ Advance.refl ?_)
    intro d hQueued
    rw [Bool.and_eq_true, beq_iff_eq, beq_iff_eq] at hQueued
    exact .of_inProgress rfl (by rw [hQueued.2]; rfl)
  | addDeployment _ d _ _ _ _ _ _ hFree =>
    exact .start d rfl (fun e he hEnv => by rw [unfinished, hFree e he hEnv]; rfl)
  | confirm _ _ _ _ _ _ hd hWaiting _ _ _ hd' => exact .one hd (by rw [hd']; rfl) (by rw [hWaiting]; rfl)
  | failUnassigned _ _ _ _ _ _ _ hd hStatus _ hd' =>
    refine .one hd (by rw [hd']; rfl) ?_
    obtain hStatus | hStatus := hStatus <;> rw [hStatus] <;> rfl
  | advance _ _ _ _ hd _ _ _ hAllowed => exact .one hd rfl (transition_inProgress hAllowed)
  | finish request _ _ _ _ _ _ _ _ _ now _ _ _ hMiddle hFound hDeployments _ _ _ hAllowed =>
    obtain ⟨hRoot, hd⟩ := finish_replaces hMiddle hFound hDeployments hAllowed
    have hStep := hd.forall₂ _ Advance.refl (.of_inProgress rfl (transition_inProgress hAllowed))
    obtain rfl | ⟨_, root, _, hTarget, hFind, hRoot⟩ := hRoot
    · exact .advance hStep
    · -- the root is rolling back, and finished by the same status
      have hRolling : root.status = .rollingBack := (by simpa [rollingBackRoot] using List.find?_some hFind : _ ∧ _).2
      have hSettled : Advance root (settledRoot request.targetStatus now root) := by
        refine ⟨rfl, fun hDone => ?_, fun hProgress => ?_⟩
        · rw [hRolling] at hDone
          cases hDone
        · obtain hTarget | hTarget := hTarget <;> rw [settledRoot, hTarget] at hProgress <;> cases hProgress
      exact .advance (forall₂_trans (fun _ _ _ h => h.trans) (hRoot.forall₂ Advance .refl hSettled) hStep)
  | cancelNow _ _ _ _ _ _ hd _ _ hStatus => exact .one hd rfl (inProgress_of (.inl hStatus))
  | cancelLater _ _ _ _ hd _ _ hStatus =>
    refine .one hd rfl ?_
    obtain hStatus | hStatus := hStatus <;> rw [hStatus] <;> rfl
  | failSource _ _ _ _ _ _ _ _ _ _ _ _ hd _ _ hStatus => exact .one hd rfl (inProgress_of (.inr hStatus))
  | rollBack _ _ d _ _ _ _ _ _ _ _ _ _ hd _ _ hStatus =>
    have hBefore := inProgress_of (.inr hStatus)
    exact .rollBack d _ _ _ hd rfl (.of_inProgress rfl hBefore) hBefore rfl rfl rfl

theorem RolloutStep.final (h : RolloutStep a a') (hd : d ∈ a.deployments) (hDone : unfinished d.status = false) :
    d ∈ a'.deployments := by
  cases h with
  | advance h =>
    obtain ⟨d', hd', hStep⟩ := exists_of_forall₂_left h d hd
    exact hStep.final hDone ▸ hd'
  | start _ h => exact h ▸ List.mem_append_left _ hd
  | rollBack x _ _ _ hx h _ hBefore =>
    rw [h]
    refine List.mem_append_left _ (hx.mem_of_ne d hd ?_)
    rintro rfl
    rw [inProgress, hDone] at hBefore
    cases hBefore

-- What counts towards the bound is unfinished, and a child counts only in the place of the root that it rolls back.
theorem RolloutStep.countP_le (h : RolloutStep a a') (environment : String) (p : Deployment → Bool)
    (hStep : ∀ d d', Advance d d' → p d' = true → p d = true)
    (hOpen : ∀ d, p d = true → d.environmentID = environment ∧ unfinished d.status = true)
    (hSwap : ∀ d d' child, inProgress d.status = true → inProgress d'.status = false →
      child.environmentID = d.environmentID → child.rollbackOfID.isNone = false → p child = true →
      p d = true ∧ p d' = false) (hOld : a.deployments.countP p ≤ 1) : a'.deployments.countP p ≤ 1 := by
  cases h with
  | advance h => exact Nat.le_trans (countP_le_of_forall₂ h hStep) hOld
  | start d h hFree =>
    rw [h, List.countP_append, List.countP_singleton]
    split
    · rename_i hCounts
      have hNone : a.deployments.countP p = 0 := by
        rw [List.countP_eq_zero]
        intro e he hp
        have hDone := hFree e he ((hOpen e hp).1.trans (hOpen d hCounts).1.symm)
        exact absurd ((hOpen e hp).2.symm.trans hDone) (by decide)
      omega
    · exact hOld
  | rollBack d d' child deployments hd h hMove hBefore hAfter hEnv hChild =>
    have hCount := hd.countP_eq p
    rw [h, List.countP_append, List.countP_singleton]
    split
    · obtain ⟨hp, hp'⟩ := hSwap d d' child hBefore hAfter hEnv hChild ‹_›
      rw [hp, hp', if_pos rfl, if_neg Bool.false_ne_true] at hCount
      omega
    · have := hStep d d' hMove
      split at hCount <;> split at hCount <;> first | omega | simp_all

theorem Effect.serial (h : Effect D a a') (hSerial : a.Serial) : a'.Serial where
  progress := by
    intro environment
    refine h.rollout.countP_le environment _ ?_ ?_ ?_ (hSerial.progress environment)
    · intro d d' hStep hp
      rw [Bool.and_eq_true] at hp ⊢
      exact ⟨(sameDeployment_of_identity hStep.same).environmentID ▸ hp.1, hStep.progress hp.2⟩
    · intro d hp
      simp only [inProgress, Bool.and_eq_true, beq_iff_eq] at hp
      exact ⟨hp.1, hp.2.1⟩
    · intro d d' child hBefore hAfter hEnv _ hp
      simp_all
  roots := by
    intro environment
    refine h.rollout.countP_le environment _ ?_ ?_ ?_ (hSerial.roots environment)
    · intro d d' hStep hp
      have hSame := sameDeployment_of_identity hStep.same
      simp only [Bool.and_eq_true] at hp ⊢
      exact ⟨⟨hSame.environmentID ▸ hp.1.1, hSame.rollbackOfID ▸ hp.1.2⟩, hStep.unfinished hp.2⟩
    · intro d hp
      simp only [Bool.and_eq_true, beq_iff_eq] at hp
      exact ⟨hp.1.1, hp.2⟩
    · intro d d' child _ _ _ hChild hp
      rw [hChild, Bool.and_false, Bool.false_and] at hp
      cases hp

-- A deployment of the environment has passed its health check since, with the revision that the environment names.
def Certified (before after : List Deployment) (e : Environment) : Prop :=
  ∃ d ∈ after, d ∉ before ∧ d.environmentID = e.id ∧ certifiesHealth d.status d.rollbackOfID.isSome = true ∧
    d.healthPassed = some true ∧ e.currentHealthyRevisionID = some d.desiredRevisionID

def HealthKept (before : List Deployment) (a : Authority) (e : Environment) : Prop :=
  ∃ e' ∈ a.environments, e'.id = e.id ∧ (e'.currentHealthyRevisionID = e.currentHealthyRevisionID ∨
    Certified before a.deployments e')

theorem finished_of_certifies {status : DeploymentStatus} {child : Bool} (h : certifiesHealth status child = true) :
    unfinished status = false := by
  revert h
  cases status <;> simp [certifiesHealth, unfinished, isTerminalDeploymentStatus]

theorem Effect.healthy (h : Effect D a a') (hIDs : Keyed (fun d : Deployment => d.id) a.deployments)
    (e : Environment) (he : e ∈ a.environments) : HealthKept a.deployments a' e := by
  cases h with
  | addRun | addApproval | decide | decideAbsent | editRun | claim | renew | expire | complete | cancelRun
  | addService | addDeployment | confirm | failUnassigned | advance | cancelNow | cancelLater | failSource
  | rollBack => exact ⟨e, he, rfl, .inl rfl⟩
  | addEnvironment => exact ⟨e, List.mem_append_left _ he, rfl, .inl rfl⟩
  | finish request d _ _ _ _ _ _ _ _ now _ _ _ hMiddle hFound hDeployments _ _ _ hAllowed hHealth =>
    have hd := (finish_replaces hMiddle hFound hDeployments hAllowed).2.mem_new
    by_cases hCertifies : certifiesHealth request.targetStatus d.rollbackOfID.isSome = true
    · simp only [hCertifies, if_true]
      by_cases hID : e.id = d.environmentID
      · refine ⟨_, List.mem_map.mpr ⟨e, he, if_pos (beq_iff_eq.mpr hID)⟩, rfl, .inr ?_⟩
        refine ⟨_, hd, ?_, hID.symm, hCertifies, hHealth hCertifies, rfl⟩
        intro hOld
        have hProgress := transition_inProgress hAllowed
        rw [← hIDs.eq hOld (List.mem_of_find?_eq_some hFound) rfl, inProgress, transitioned,
          finished_of_certifies hCertifies] at hProgress
        cases hProgress
      · exact ⟨e, List.mem_map.mpr ⟨e, he, by simp [hID]⟩, rfl, .inl rfl⟩
    · exact ⟨e, by simpa [hCertifies] using he, rfl, .inl rfl⟩

end

theorem performAll_effects (earlier later : List Operation) (h : EachStep Disciplined (earlier ++ later)) :
    Effects fullDiscipline (performAll earlier newMemoryStore).authority
      (performAll (earlier ++ later) newMemoryStore).authority := by
  induction later using List.reverseRecOn with
  | nil => exact .none (by rw [List.append_nil])
  | append_singleton later op ih =>
    rw [← List.append_assoc] at h ⊢
    rw [performAll_concat]
    exact (ih h.init).trans (perform_settledAuthority (settled_performAll _ h.init) (h _ op [] rfl)).1

-- In every state that operations reach, each environment has at most one deployment in progress and at most one root
-- that is not finished.
theorem deployments_serial (ops : List Operation) (h : EachStep Disciplined ops) :
    (performAll ops newMemoryStore).authority.Serial := by
  refine (performAll_effects [] ops h).keeps Authority.Serial (fun _ _ => Effect.serial) ⟨?_, ?_⟩ <;>
    exact fun _ => Nat.zero_le 1

-- A finished deployment keeps its whole record.
theorem finished_deployments_kept (earlier later : List Operation) (h : EachStep Disciplined (earlier ++ later)) :
    ∀ d ∈ (performAll earlier newMemoryStore).deployments, isTerminalDeploymentStatus d.status = true →
      d ∈ (performAll (earlier ++ later) newMemoryStore).deployments := by
  intro d hd hDone
  refine (performAll_effects earlier later h).keeps (fun a => d ∈ a.deployments) ?_ hd
  intro _ _ hEffect hMem
  exact hEffect.rollout.final hMem (by rw [unfinished, hDone]; rfl)

-- An environment keeps its healthy revision until one of its deployments passes the health check.
theorem healthy_revision_certified (earlier later : List Operation) (h : EachStep Disciplined (earlier ++ later)) :
    ∀ e ∈ (performAll earlier newMemoryStore).environments, HealthKept (performAll earlier newMemoryStore).deployments
      (performAll (earlier ++ later) newMemoryStore).authority e := by
  have hSound := (settled_performAll earlier h.init).sound
  have hEffects := performAll_effects earlier later h
  generalize performAll earlier newMemoryStore = s at *
  intro e he
  refine (hEffects.keeps (fun a => a.Sound fullDiscipline ∧
    (∀ d ∈ s.deployments, unfinished d.status = false → d ∈ a.deployments) ∧ HealthKept s.deployments a e) ?_
    ⟨hSound, fun _ hd _ => hd, e, he, rfl, .inl rfl⟩).2.2
  rintro a b hEffect ⟨hSound, hFinal, e', he', hID, hOld⟩
  obtain ⟨e'', he'', hID', hNew⟩ := hEffect.healthy (hSound.deploymentIDs trivial) e' he'
  refine ⟨hEffect.sound hSound, fun d hd hDone => hEffect.rollout.final (hFinal d hd hDone) hDone, e'', he'',
    hID'.trans hID, ?_⟩
  obtain hSame | ⟨d, hd, hNot, hEnv, hStatus, hHealth⟩ := hNew
  · refine hOld.imp hSame.trans ?_
    rintro ⟨d, hd, hNot, hEnv, hStatus, hHealth, hRevision⟩
    exact ⟨d, hEffect.rollout.final hd (finished_of_certifies hStatus), hNot, hEnv.trans hID'.symm, hStatus, hHealth,
      hSame.trans hRevision⟩
  · exact .inr ⟨d, hd, fun hBefore => hNot (hFinal d hBefore (finished_of_certifies hStatus)), hEnv, hStatus, hHealth⟩

-- A deployment that fails before it is assigned.
def failedRollout : List Operation := [
  .createService
    { id := "service", projectID := "project", name := "", repositoryID := "", composePath := "", profiles := [],
      ownerID := "", createdAt := 0 } none,
  .createEnvironment { id := "environment", serviceID := "service", name := "", rollbackSafe := true, createdAt := 0 }
    none,
  .createRevision { id := "revision", serviceID := "service", requestedRef := "", createdBy := "", createdAt := 0 }
    none 0,
  .createDeploymentRequest
    { id := "deployment", environmentID := "environment", desiredRevisionID := "revision", idempotencyKey := "",
      status := .queued, requestedBy := "", createdAt := 0, updatedAt := 0 }
    { sampleRun with runSpec := { type := runTypeComposeDeploy } } requestAudit,
  .failPreAssignmentDeployment "deployment" "" requestAudit 5]

theorem failedRollout_disciplined : EachStep Disciplined (failedRollout ++ [.expireLeases 9]) := by
  refine EachStep.concat ?_ ⟨trivial, trivial, trivial⟩
  have hNil := eachStep_nil Disciplined
  refine ((((hNil.concat ?_).concat ?_).concat ?_).concat ?_).concat ⟨trivial, trivial, trivial⟩
  · exact ⟨trivial, trivial, (by decide : "project" ≠ "")⟩
  · exact ⟨trivial, trivial, trivial⟩
  · exact ⟨trivial, trivial, trivial⟩
  · exact ⟨trivial, .inl rfl, by decide, .inl ⟨rfl, rfl⟩⟩

theorem failedRollout_serial : (performAll failedRollout newMemoryStore).authority.Serial :=
  deployments_serial failedRollout failedRollout_disciplined.init

theorem failedRollout_kept : (performAll failedRollout newMemoryStore).deployments ⊆
    (performAll (failedRollout ++ [.expireLeases 9]) newMemoryStore).deployments := by
  intro d hd
  have hFailed : ∀ d ∈ (performAll failedRollout newMemoryStore).deployments,
      isTerminalDeploymentStatus d.status = true := by decide
  exact finished_deployments_kept failedRollout [.expireLeases 9] failedRollout_disciplined d hd (hFailed d hd)

theorem failedRollout_healthy : (performAll failedRollout newMemoryStore).environments ≠ [] ∧
    ∀ e ∈ (performAll failedRollout newMemoryStore).environments,
      HealthKept (performAll failedRollout newMemoryStore).deployments
        (performAll (failedRollout ++ [.expireLeases 9]) newMemoryStore).authority e :=
  ⟨by decide, healthy_revision_certified failedRollout [.expireLeases 9] failedRollout_disciplined⟩

end NeroCD.Store
