import NeroCD.Leasing
import NeroCD.Store.DeploymentEffects

-- Runs and leases as an instance of the leasing protocol: the invariant behind exclusive claims, which
-- every effect keeps.

namespace NeroCD.Store

open NeroCD.Domain NeroCD.Records NeroCD.Leasing

def leasing : Protocol TaskRun RunLease String String where
  key r := r.id
  held r := r.status = .running
  holder r := r.runnerID
  resource l := l.runID
  live l := l.status = .active
  owner l := l.runnerID
  generation l := l.attempt

-- All runs if callers keep to the rules for runs, and otherwise those that execute deployments.
def Authority.Guarded (D : Discipline) (a : Authority) (runID : String) : Prop := D.runs ∨ a.Backed runID

def Authority.nextAttempt (a : Authority) (runID : String) : Int :=
  max 1 ((a.nextAttemptByRun.lookup runID).getD 0)

-- A pending approval is the only one of its run, which executes no deployment and waits, unless it was
-- canceled.
structure Authority.Approved (a : Authority) : Prop where
  about : ∀ p ∈ a.approvals, p.status = .pending → ¬ a.Backed p.runID ∧
    ∃ r ∈ a.runs, r.id = p.runID ∧ (r.status = .waitingApproval ∨ r.status = .canceled)
  single : a.approvals.Pairwise (fun p q => p.status = .pending → q.status = .pending → p.runID ≠ q.runID)

structure Authority.Sound (D : Discipline) (a : Authority) : Prop where
  exclusive : Exclusive leasing (a.Guarded D) a.runs a.leases a.nextAttempt
  deploymentIDs : D.deployments → Keyed (fun d : Deployment => d.id) a.deployments
  backing : ∀ d ∈ a.deployments, ∃ r ∈ a.runs, d.taskRunID = some r.id
  approved : D.runs → a.Approved

variable {D : Discipline} {a : Authority} {d : Deployment} {l : List Deployment}

theorem Authority.Sound.formed (h : a.Sound D) : a.Formed where
  runs := h.exclusive.keyed
  leases := h.exclusive.known
  deployments := h.backing

theorem Authority.Formed.not_backed (h : a.Formed) {runID : String} (hFresh : ∀ r ∈ a.runs, r.id ≠ runID) :
    ¬ a.Backed runID := by
  intro hBacked
  obtain ⟨d, hd, hRun⟩ := List.mem_map.mp hBacked
  obtain ⟨r, hr, hBacks⟩ := h.deployments d hd
  rw [hRun, Option.some.injEq] at hBacks
  exact hFresh r hr hBacks.symm

def identity (d : Deployment) : Deployment :=
  { d with
    status := .queued
    confirmedBy := none
    updatedAt := 0
    finishedAt := none
    healthPassed := none
    failureCode := "" }

structure SameDeployment (d e : Deployment) : Prop where
  id : d.id = e.id
  environmentID : d.environmentID = e.environmentID
  desiredRevisionID : d.desiredRevisionID = e.desiredRevisionID
  previousHealthyRevisionID : d.previousHealthyRevisionID = e.previousHealthyRevisionID
  taskRunID : d.taskRunID = e.taskRunID
  idempotencyKey : d.idempotencyKey = e.idempotencyKey
  rollbackOfID : d.rollbackOfID = e.rollbackOfID

theorem sameDeployment_of_identity {e : Deployment} (h : identity d = identity e) : SameDeployment d e := by
  unfold identity at h
  injection h with hID hEnv hDesired hPrevious hRun hKey _ _ _ _ _ _ _ hRoot
  exact ⟨hID, hEnv, hDesired, hPrevious, hRun, hKey, hRoot⟩

theorem backed_iff {runID : String} :
    a.Backed runID ↔ some runID ∈ (a.deployments.map identity).map (fun d => d.taskRunID) := by
  unfold Authority.Backed
  rw [List.map_map]
  rfl

theorem identity_updateAll (p : Deployment → Bool) (f : Deployment → Deployment) (l : List Deployment)
    (hf : ∀ d, identity (f d) = identity d) :
    (updateAll p f l).map identity = l.map identity := by
  unfold updateAll
  rw [List.map_map]
  apply List.map_congr_left
  intro d _
  show identity (if p d then f d else d) = _
  split
  · exact hf d
  · rfl

section Finish

-- The writes to the deployments of a transition to a final status: the root, then the deployment.
variable {request : DeploymentTransitionRequest} {middle deployments : List Deployment} {now : Time}
  (hMiddle : middle = match d.rollbackOfID with
    | some rootID =>
      if request.targetStatus == .rolledBack || request.targetStatus == .rollbackFailed then
        updateFirst (rollingBackRoot rootID) (settledRoot request.targetStatus now) l
      else l
    | none => l)
  (hFound : l.find? (deploymentIs request.deploymentID) = some d)
  (hDeployments : deployments =
    updateFirst (deploymentIs request.deploymentID) (fun _ => transitioned request now d) middle)
  (hAllowed : deploymentRoleTransitionAllowed d.rollbackOfID.isSome d.status request.targetStatus = true)

include hMiddle hFound hDeployments hAllowed

theorem finish_replaces :
    (middle = l ∨ ∃ rootID root, d.rollbackOfID = some rootID ∧
      (request.targetStatus = .rolledBack ∨ request.targetStatus = .rollbackFailed) ∧
      l.find? (rollingBackRoot rootID) = some root ∧
      Replaces root (settledRoot request.targetStatus now root) l middle) ∧
    Replaces d (transitioned request now d) middle deployments := by
  have hOpen : d.status ≠ .rollingBack := by
    intro hEq
    rw [hEq] at hAllowed
    cases hRole : d.rollbackOfID.isSome <;> rw [hRole] at hAllowed <;>
      simp [deploymentRoleTransitionAllowed, rootDeploymentTransitionAllowed, rollbackChildTransitionAllowed,
        rootDeploymentTransitions, rollbackChildTransitions] at hAllowed
  have hRoot : middle = l ∨ ∃ rootID root, d.rollbackOfID = some rootID ∧
      (request.targetStatus = .rolledBack ∨ request.targetStatus = .rollbackFailed) ∧
      l.find? (rollingBackRoot rootID) = some root ∧
      Replaces root (settledRoot request.targetStatus now root) l middle := by
    cases hOf : d.rollbackOfID with
    | none =>
      rw [hOf] at hMiddle
      exact .inl hMiddle
    | some rootID =>
      simp only [hOf] at hMiddle
      split at hMiddle
      · rename_i hTarget
        cases hFind : l.find? (rollingBackRoot rootID) with
        | none =>
          rw [updateFirst_eq_self _ _ _ hFind] at hMiddle
          exact .inl hMiddle
        | some root =>
          refine .inr ⟨rootID, root, rfl, by simpa using hTarget, hFind, ?_⟩
          rw [hMiddle]
          exact replaces_updateFirst _ _ _ _ hFind
      · exact .inl hMiddle
  refine ⟨hRoot, ?_⟩
  -- the deployment itself is not rolling back, so it is still there
  have hStill : middle.find? (deploymentIs request.deploymentID) = some d := by
    rw [hMiddle]
    split
    · split
      · exact find?_updateFirst _ _ _ _ _ hFound (by simp [rollingBackRoot, hOpen]) (fun _ => rfl)
      · exact hFound
    · exact hFound
  rw [hDeployments]
  exact replaces_updateFirst _ _ _ _ hStill

theorem finish_identity : deployments.map identity = l.map identity := by
  obtain ⟨hRoot, hd⟩ := finish_replaces hMiddle hFound hDeployments hAllowed
  rw [hd.map_eq identity rfl]
  obtain hEq | ⟨_, _, _, _, _, hRoot⟩ := hRoot
  · rw [hEq]
  · exact hRoot.map_eq _ rfl

end Finish

theorem identity_more {d' : Deployment} {l' : List Deployment} (hd : Replaces d d' l l')
    (hIdentity : identity d' = identity d) (e : Deployment) :
    (l' ++ [e]).map identity = l.map identity ++ [identity e] := by
  rw [List.map_append, hd.map_eq _ hIdentity, List.map_singleton]

inductive DeploymentsAfter (D : Discipline) (a a' : Authority) : Prop
  | same (h : a'.deployments.map identity = a.deployments.map identity)
  | more (d : Deployment) (run : TaskRun)
      (h : a'.deployments.map identity = a.deployments.map identity ++ [identity d])
      (hFresh : D.deployments → ∀ e ∈ a.deployments, e.id ≠ d.id) (hBacks : d.taskRunID = some run.id)
      (hRunFresh : ∀ r ∈ a.runs, r.id ≠ run.id) (hRun : run ∈ a'.runs) (hTask : ComposeTask d.id run)

section

variable {D : Discipline} {a a' : Authority}

theorem Effect.deployments (h : Effect D a a') : DeploymentsAfter D a a' := by
  cases h with
  | addRun | addApproval | decide | decideAbsent | editRun | renew | expire | complete | cancelRun
  | addService | addEnvironment => exact .same rfl
  | claim => exact .same (identity_updateAll _ _ _ (fun _ => rfl))
  | addDeployment run d hRunFresh hFresh hBacks _ hTask =>
    exact .more d run (List.map_append ..) hFresh hBacks hRunFresh List.mem_cons_self hTask
  | confirm _ _ _ _ _ _ hd _ _ _ _ hd' =>
    exact .same (hd.map_eq _ (by rw [hd']; rfl))
  | failUnassigned _ _ _ _ _ _ _ hd _ _ hd' =>
    exact .same (hd.map_eq _ (by rw [hd']; rfl))
  | advance _ _ _ _ hd => exact .same (hd.map_eq _ rfl)
  | finish _ _ _ _ _ _ _ _ _ _ _ _ _ _ hMiddle hFound hDeployments _ _ _ hAllowed =>
      exact .same (finish_identity hMiddle hFound hDeployments hAllowed)
  | cancelNow _ _ _ _ _ _ hd => exact .same (hd.map_eq _ rfl)
  | cancelLater _ _ _ _ hd => exact .same (hd.map_eq _ rfl)
  | failSource _ _ _ _ _ _ _ _ _ _ _ _ hd => exact .same (hd.map_eq _ rfl)
  | rollBack req previous d _ _ _ _ _ _ _ _ run now hd _ _ _ _ _ _ _ _ _ _ _ _ _ hIDFresh hRunFresh hRunID _ hTask =>
      apply DeploymentsAfter.more (rollbackDeployment req d previous now) run
      · exact identity_more hd rfl _
      · exact hIDFresh
      · rw [hRunID]
        rfl
      · rw [hRunID]
        exact hRunFresh
      · exact List.mem_cons_self
      · exact hTask

theorem Effect.run_ids (h : Effect D a a') : ∀ r ∈ a.runs, ∃ r' ∈ a'.runs, r'.id = r.id := by
  intro x hx
  -- a record is replaced by one with the same ID
  have hKept {r r' : TaskRun} {runs : List TaskRun} (hr : Replaces r r' a.runs runs) (hID : r'.id = r.id) :
      ∃ x' ∈ runs, x'.id = x.id := hr.exists_key (fun r => r.id) hID ⟨x, hx, rfl⟩
  cases h with
  | addApproval | decideAbsent | renew | addService | addEnvironment | advance
  | cancelLater => exact ⟨x, hx, rfl⟩
  | addRun | addDeployment => exact ⟨x, List.mem_cons_of_mem _ hx, rfl⟩
  | decide _ _ _ _ _ _ _ _ _ hr hTask => exact hKept hr hTask.id
  | editRun _ _ _ hr hTask => exact hKept hr hTask.id
  | claim _ _ _ _ _ hr hTask => exact hKept hr hTask.id
  | expire _ _ _ _ _ _ _ _ hr hTask => exact hKept hr hTask.id
  | complete _ _ _ _ _ _ _ _ _ _ hr hTask => exact hKept hr hTask.id
  | cancelRun _ _ _ hr => exact hKept hr rfl
  | confirm _ _ _ _ _ _ _ _ _ _ _ _ hr hr' =>
    apply hKept hr
    obtain hEq | ⟨-, hEq⟩ := hr' <;> rw [hEq]
  | failUnassigned _ _ _ _ _ _ _ _ _ _ _ hr => exact hKept hr rfl
  | finish _ _ _ _ _ _ _ _ _ _ _ _ _ _ _ _ _ _ _ _ _ _ _ _ _ _ _ hr =>
      exact hKept hr rfl
  | cancelNow _ _ _ _ _ _ _ _ _ _ _ hr => exact hKept hr rfl
  | failSource _ _ _ _ _ _ _ _ _ _ _ _ _ _ _ _ _ _ _ _ hr => exact hKept hr rfl
  | rollBack _ _ _ _ _ _ _ _ _ _ _ _ _ _ _ _ _ _ _ _ _ hr =>
      obtain ⟨x', hx', hEq⟩ := hKept hr rfl
      exact ⟨x', List.mem_cons_of_mem _ hx', hEq⟩

theorem Effect.deploymentIDs (h : Effect D a a') (hSound : a.Sound D) (hD : D.deployments) :
    Keyed (fun d : Deployment => d.id) a'.deployments := by
  have hOld := (keyed_iff_nodup _ _).mp (hSound.deploymentIDs hD)
  have hIdentity (l : List Deployment) : l.map (fun d => d.id) = (l.map identity).map (fun d => d.id) := by
    rw [List.map_map]
    rfl
  rw [keyed_iff_nodup]
  cases h.deployments with
  | same hEq => rwa [hIdentity, hEq, ← hIdentity]
  | more d _ hEq hFresh =>
    rw [hIdentity, hEq, List.map_append, ← hIdentity, List.nodup_append]
    refine ⟨hOld, by simp, ?_⟩
    intro x hx y hy hxy
    obtain ⟨e, he, rfl⟩ := List.mem_map.mp hx
    have hyID : y = d.id := by simpa [identity] using hy
    exact hFresh hD e he (hxy.trans hyID)

theorem Effect.backing (h : Effect D a a') (hSound : a.Sound D) :
    ∀ d ∈ a'.deployments, ∃ r ∈ a'.runs, d.taskRunID = some r.id := by
  intro d hd
  have hMem : identity d ∈ a'.deployments.map identity := List.mem_map.mpr ⟨d, hd, rfl⟩
  have hOld (hMem : identity d ∈ a.deployments.map identity) :
      ∃ r ∈ a'.runs, d.taskRunID = some r.id := by
    obtain ⟨e, he, hEq⟩ := List.mem_map.mp hMem
    obtain ⟨r, hr, hBacks⟩ := hSound.backing e he
    obtain ⟨r', hr', hID⟩ := h.run_ids r hr
    exact ⟨r', hr', by rw [← (sameDeployment_of_identity hEq).taskRunID, hBacks, hID]⟩
  cases h.deployments with
  | same hEq => exact hOld (hEq ▸ hMem)
  | more _ run hEq _ hBacks _ hRun =>
    rw [hEq, List.mem_append, List.mem_singleton] at hMem
    cases hMem with
    | inl hMem => exact hOld hMem
    | inr hMem => exact ⟨run, hRun, (sameDeployment_of_identity hMem).taskRunID.trans hBacks⟩

theorem backed_same (h : a'.deployments.map identity = a.deployments.map identity) (k : String)
    (hk : a'.Backed k) : a.Backed k := by
  rwa [backed_iff, h, ← backed_iff] at hk

theorem backed_more {d : Deployment} {runID : String}
    (h : a'.deployments.map identity = a.deployments.map identity ++ [identity d])
    (hBacks : d.taskRunID = some runID) (k : String) (hk : a'.Backed k) : a.Backed k ∨ k = runID := by
  rw [backed_iff, h, List.map_append, List.mem_append, ← backed_iff] at hk
  refine hk.imp_right ?_
  intro hNew
  simpa [identity, hBacks] using hNew

theorem guarded_same (h : ∀ k, a'.Backed k → a.Backed k) (k : String) (hk : a'.Guarded D k) : a.Guarded D k :=
  hk.imp_right (h k)

theorem guarded_more {runID : String} (h : ∀ k, a'.Backed k → a.Backed k ∨ k = runID) (k : String)
    (hk : a'.Guarded D k) : a.Guarded D k ∨ k = runID := by
  obtain hRuns | hBacked := hk
  · exact .inl (.inl hRuns)
  · exact (h k hBacked).imp_left .inr

end

-- The changes of runs and leases that several effects share.
section

variable {guarded : String → Prop} {runs runs' : List TaskRun} {leases leases' : List RunLease}
  {next : String → Int}

theorem exclusive_ended (h : Exclusive leasing guarded runs leases next)
    {deploymentID runID leaseID runnerID fence : String} {attempt : Int} {l : RunLease} {t : DeploymentAttempt}
    {r : TaskRun} {now : Time} (leaseStatus : LeaseStatus) (runStatus : RunStatus)
    (hHeld : Held deploymentID runID leaseID runnerID attempt fence l t r)
    (hl : Replaces l (endedLease leaseStatus now l) leases leases')
    (hr : Replaces r (endedRun runStatus now r) runs runs') (hLease : leaseStatus ≠ .active)
    (hRun : runStatus ≠ .running) : Exclusive leasing guarded runs' leases' next := by
  have hSame : l.runID = r.id := by
    have hNamed := (leaseNamed_iff _ _ _ _ _ _).mp hHeld.lease
    have hHolds := (heldRun_iff _ _ _).mp hHeld.run
    rw [hNamed.2.1, hHolds.1]
  exact h.release hl hr rfl hSame ⟨rfl, rfl, rfl⟩ (fun _ => ⟨hHeld.active, hLease, hRun⟩)

theorem exclusive_canceled (h : Exclusive leasing guarded runs leases next) {r : TaskRun} {now : Time}
    (hr : Replaces r (canceledRun now r) runs runs') :
    Exclusive leasing guarded runs' (updateAll (activeLeaseOf r.id) (canceledLease now) leases) next := by
  apply h.releaseAll (fun l => if activeLeaseOf r.id l then canceledLease now l else l) hr rfl
  · show ¬ RunStatus.canceled = RunStatus.running
    decide
  · intro l
    split <;> exact ⟨rfl, rfl, rfl⟩
  · intro l hLive
    split at hLive
    · rename_i hl
      exact ((activeLeaseOf_iff r.id l).mp hl).2
    · exact hLive
  · intro l hRun hLive
    split at hLive
    · cases hLive
    · rename_i hl
      exact hl ((activeLeaseOf_iff r.id l).mpr ⟨hRun, hLive⟩)
  · intro l hRun
    rw [if_neg]
    intro hl
    exact hRun ((activeLeaseOf_iff r.id l).mp hl).1

theorem exclusive_added (h : Exclusive leasing guarded runs leases next) (guarded' : String → Prop)
    (run : TaskRun) (hFresh : ∀ r ∈ runs, r.id ≠ run.id) (hIdle : run.status ≠ .running)
    (hGuarded : ∀ k, guarded' k → guarded k ∨ k = run.id) :
    Exclusive leasing guarded' (run :: runs) leases next := by
  have hExtended : Exclusive leasing guarded' runs leases next := by
    apply h.extend
    intro k hk
    cases hGuarded k hk with
    | inl hOld => exact .inl hOld
    | inr hEq =>
      refine .inr ⟨?_, ?_⟩
      · intro l hl hRes
        obtain ⟨r, hr, hKey⟩ := h.known l hl
        exact hFresh r hr (hKey.trans (hRes.trans hEq))
      · intro r hr hKey
        exact absurd (hKey.trans hEq) (hFresh r hr)
  exact hExtended.add run hFresh (fun _ => hIdle)

end

theorem terminalOutcome_ended {status : DeploymentStatus} {attemptStatus : AttemptStatus}
    {leaseStatus : LeaseStatus} {runStatus : RunStatus}
    (h : deploymentTerminalOutcome status = some (attemptStatus, leaseStatus, runStatus)) :
    attemptStatus ≠ .active ∧ leaseStatus ≠ .active ∧ isTerminalRunStatus runStatus = true := by
  cases status <;> simp [deploymentTerminalOutcome] at h <;> obtain ⟨rfl, rfl, rfl⟩ := h <;>
    simp [isTerminalRunStatus]

section

variable {D : Discipline} {a a' : Authority}

-- A guarded run that executes no deployment is guarded because all runs are.
theorem Authority.Guarded.runs {runID : String} (h : a.Guarded D runID) (hFree : ¬ a.Backed runID) : D.runs :=
  h.resolve_right hFree

theorem waiting_not_running {status : RunStatus} (h : status = .queued ∨ status = .waitingApproval) :
    status ≠ .running := by
  obtain hStatus | hStatus := h <;> rw [hStatus] <;> decide

theorem Effect.exclusive (h : Effect D a a') (hSound : a.Sound D) :
    Exclusive leasing (a'.Guarded D) a'.runs a'.leases a'.nextAttempt := by
  have hOld := hSound.exclusive
  -- where the deployments keep their names, the same runs are guarded
  have hSame (hIdentity : a'.deployments.map identity = a.deployments.map identity) :
      ∀ k, a'.Guarded D k → a.Guarded D k := guarded_same (backed_same hIdentity)
  cases h with
  | addApproval | decideAbsent | addService | addEnvironment => exact hOld
  | addRun run _ hFresh hNew =>
    apply hOld.add run hFresh
    intro hGuarded
    apply waiting_not_running
    exact (hNew (hGuarded.runs (hSound.formed.not_backed hFresh))).imp And.left And.left
  | decide p _ _ r r' runs hp hPending _ hr hTask hAbout hFree hStatus =>
    apply hOld.edit hr hTask.id
    intro hGuarded
    obtain ⟨-, x, hx, hxID, hxStatus⟩ :=
      (hSound.approved (hGuarded.runs hFree)).about p hp.mem_old hPending
    have hxr : x = r := hOld.keyed.eq hx hr.mem_old (hxID.trans hAbout)
    rw [hxr] at hxStatus
    refine .inl ⟨?_, ?_⟩
    · show r.status ≠ .running
      obtain hEq | hEq := hxStatus <;> rw [hEq] <;> decide
    · show r'.status ≠ .running
      obtain ⟨-, hEq⟩ | hEq := hStatus <;> rw [hEq] <;> decide
  | editRun r r' runs hr hTask hSafe =>
    apply hOld.edit hr hTask.id
    intro hGuarded
    obtain ⟨hStatus, hRunner⟩ | ⟨hRuns, hFree⟩ := hSafe
    · refine .inr ⟨?_, hRunner⟩
      show r'.status = .running ↔ r.status = .running
      rw [hStatus]
    · exact absurd (hGuarded.runs hFree) hRuns
  | claim r _ runs lease _ hr hTask hQueued hRunning hHolder hRun hActive _ hAttempt =>
    have hIdle : r.status ≠ .running := by
      rw [hQueued]
      decide
    have hGranted : Exclusive leasing _ runs (a.leases ++ [lease])
        (Function.update a.nextAttempt r.id (lease.attempt + 1)) :=
      (hOld.mono _ (hSame (identity_updateAll _ _ _ (fun _ => rfl)))).grant hr hTask.id (fun _ => hIdle)
        hRunning hHolder hRun hActive (le_of_eq hAttempt.symm)
    -- the counter of the run is the one after the attempt
    have hNext : Function.update a.nextAttempt r.id (lease.attempt + 1) =
        fun k => max 1 (((a.nextAttemptByRun.insert r.id (lease.attempt + 1)).lookup k).getD 0) := by
      funext k
      by_cases hk : k = r.id
      · subst hk
        rw [Finmap.lookup_insert, Function.update_self, Option.getD_some]
        omega
      · rw [Finmap.lookup_insert_of_ne _ hk, Function.update_of_ne hk]
        rfl
    rw [hNext] at hGranted
    exact hGranted
  | renew _ _ _ _ hl => exact hOld.refresh hl ⟨rfl, rfl, rfl⟩ Iff.rfl
  | expire _ _ _ r' _ _ hl hActive hr hTask hRun _ hStatus =>
    apply hOld.release hl hr hTask.id hRun ⟨rfl, rfl, rfl⟩
    intro _
    refine ⟨hActive, LeaseStatus.noConfusion, ?_⟩
    show r'.status ≠ .running
    obtain hEq | hEq := hStatus <;> rw [hEq] <;> decide
  | complete _ _ _ _ _ runs hl hActive _ hLease hr hTask hRun hFree hClosed =>
    apply hOld.release hl hr hTask.id hRun ⟨hLease.2.1, hLease.2.2.1, hLease.2.2.2.1⟩
    intro hGuarded
    exact ⟨hActive, hClosed (hGuarded.runs hFree)⟩
  | cancelRun _ _ _ hr => exact exclusive_canceled hOld hr
  | addDeployment run _ hRunFresh _ hBacks hRun =>
    exact exclusive_added hOld _ run hRunFresh (waiting_not_running hRun)
      (guarded_more (backed_more (List.map_append ..) hBacks))
  | confirm _ _ _ _ _ _ hd _ _ _ _ hd' hr hr' =>
    apply (hOld.mono _ (hSame (hd.map_eq _ (by rw [hd']; rfl)))).edit hr
    · obtain hEq | ⟨-, hEq⟩ := hr'
      · rw [hEq]
      · rw [hEq]
        rfl
    · intro _
      obtain hEq | ⟨hOld, hEq⟩ := hr'
      · rw [hEq]
        exact .inr ⟨Iff.rfl, rfl⟩
      · rw [hEq]
        exact .inl ⟨waiting_not_running (.inr hOld), fun hRunning => by cases hRunning⟩
  | failUnassigned _ _ _ _ _ _ _ hd _ _ hd' hr hRun =>
    apply (hOld.mono _ (hSame (hd.map_eq _ (by rw [hd']; rfl)))).edit hr rfl
    intro _
    exact .inl ⟨waiting_not_running hRun, fun hRunning => by cases hRunning⟩
  | advance _ _ _ _ hd => exact hOld.mono _ (hSame (hd.map_eq _ rfl))
  | finish _ _ _ _ _ _ _ _ _ _ _ _ leaseStatus runStatus hMiddle hFound hDeployments _ _ _ hAllowed _ hOutcome _
      _ hHeld hl hr =>
      obtain ⟨-, hLease, hRun⟩ := terminalOutcome_ended hOutcome
      have hNotRunning : runStatus ≠ .running := by
        intro hEq
        rw [hEq] at hRun
        exact absurd hRun (by decide)
      have hIdentity := finish_identity hMiddle hFound hDeployments hAllowed
      exact exclusive_ended (hOld.mono _ (hSame hIdentity)) leaseStatus runStatus hHeld hl hr hLease hNotRunning
  | cancelNow _ _ _ _ _ _ hd _ _ _ _ hr =>
    exact exclusive_canceled (hOld.mono _ (hSame (hd.map_eq _ rfl))) hr
  | cancelLater _ _ _ _ hd => exact hOld.mono _ (hSame (hd.map_eq _ rfl))
  | failSource _ _ _ _ _ _ _ _ _ _ _ _ hd _ _ _ _ _ hHeld hl hr =>
      exact exclusive_ended (hOld.mono _ (hSame (hd.map_eq _ rfl))) .failed .failed hHeld hl hr (by decide)
        (by decide)
  | rollBack _ _ _ _ _ _ r _ _ _ _ run _ hd _ _ _ _ _ hHeld hl hr _ _ _ _ _ _ hRunFresh hRunID hRun =>
      have hEnded := exclusive_ended hOld .failed .failed hHeld hl hr (by decide) (by decide)
      apply exclusive_added hEnded _ run
      · rw [hRunID]
        exact hr.fresh_key (fun r => r.id) rfl hRunFresh
      · rw [hRun]
        decide
      · rw [hRunID]
        exact guarded_more (backed_more (identity_more hd rfl _) rfl)

variable {b : Authority}

theorem Authority.Approved.edit (h : a.Approved) {r r' : TaskRun} {runs : List TaskRun}
    (hr : Replaces r r' a.runs runs) (hID : r'.id = r.id) (hApprovals : b.approvals = a.approvals)
    (hRuns : b.runs = runs) (hBacked : ∀ k, b.Backed k → a.Backed k)
    (hSafe : (r'.status = .waitingApproval ∨ r'.status = .canceled) ∨
      ∀ p ∈ a.approvals, p.status = .pending → p.runID ≠ r.id) : b.Approved := by
  refine ⟨?_, hApprovals ▸ h.single⟩
  rw [hApprovals, hRuns]
  intro p hp hPending
  obtain ⟨hFree, x, hx, hxID, hxStatus⟩ := h.about p hp hPending
  refine ⟨fun hk => hFree (hBacked _ hk), ?_⟩
  by_cases hEq : x = r
  · subst hEq
    cases hSafe with
    | inl hStatus => exact ⟨r', hr.mem_new, hID.trans hxID, hStatus⟩
    | inr hOther => exact absurd hxID.symm (hOther p hp hPending)
  · exact ⟨x, hr.mem_of_ne x hx hEq, hxID, hxStatus⟩

theorem Authority.Approved.not_about (h : a.Approved) (hRuns : Keyed (fun r : TaskRun => r.id) a.runs)
    {r : TaskRun} (hr : r ∈ a.runs)
    (hOther : a.Backed r.id ∨ (r.status ≠ .waitingApproval ∧ r.status ≠ .canceled)) :
    ∀ p ∈ a.approvals, p.status = .pending → p.runID ≠ r.id := by
  intro p hp hPending hEq
  obtain ⟨hFree, x, hx, hxID, hxStatus⟩ := h.about p hp hPending
  have hxr : x = r := hRuns.eq hx hr (hxID.trans hEq)
  subst hxr
  obtain hBacked | hStatus := hOther
  · exact hFree (hxID ▸ hBacked)
  · exact hxStatus.elim hStatus.1 hStatus.2

theorem Authority.Approved.same (h : a.Approved) (hApprovals : b.approvals = a.approvals) (hRuns : b.runs = a.runs)
    (hBacked : ∀ k, b.Backed k → a.Backed k) : b.Approved := by
  refine ⟨?_, hApprovals ▸ h.single⟩
  rw [hApprovals, hRuns]
  intro p hp hPending
  obtain ⟨hFree, hRun⟩ := h.about p hp hPending
  exact ⟨fun hk => hFree (hBacked _ hk), hRun⟩

theorem Authority.Approved.decided (h : a.Approved) {p p' : Approval} (hp : Replaces p p' a.approvals b.approvals)
    (hDecided : p'.status ≠ .pending) (hRuns : b.runs = a.runs) (hBacked : b.deployments = a.deployments) :
    b.Approved ∧ ∀ q ∈ b.approvals, q.status = .pending → p.status = .pending → q.runID ≠ p.runID := by
  have hBackedEq (k : String) : b.Backed k → a.Backed k := by
    unfold Authority.Backed
    rw [hBacked]
    exact id
  refine ⟨⟨?_, ?_⟩, ?_⟩
  · rw [hRuns]
    intro q hq hPending
    cases hp.mem_or q hq with
    | inl hEq => exact absurd (hEq ▸ hPending) hDecided
    | inr hOld =>
      obtain ⟨hFree, hRun⟩ := h.about q hOld hPending
      exact ⟨fun hk => hFree (hBackedEq _ hk), hRun⟩
  · apply hp.pairwise _ h.single
    · intro z _ _ _ hPending
      exact absurd hPending hDecided
    · intro z _ _ hPending
      exact absurd hPending hDecided
  · intro q hq hPending hpPending
    cases hp.mem_cases _ h.single q hq with
    | inl hEq => exact absurd (hEq ▸ hPending) hDecided
    | inr hOld =>
      cases hOld.2 with
      | inl hBefore => exact hBefore hPending hpPending
      | inr hAfter => exact (hAfter hpPending hPending).symm

theorem Authority.Approved.more (h : a.Approved) (run : TaskRun) (hFresh : ∀ r ∈ a.runs, r.id ≠ run.id)
    (hApprovals : b.approvals = a.approvals) (hRuns : b.runs = run :: a.runs)
    (hBacked : ∀ k, b.Backed k → a.Backed k ∨ k = run.id) : b.Approved := by
  refine ⟨?_, hApprovals ▸ h.single⟩
  rw [hApprovals, hRuns]
  intro p hp hPending
  obtain ⟨hFree, x, hx, hxID, hxStatus⟩ := h.about p hp hPending
  refine ⟨?_, x, List.mem_cons_of_mem _ hx, hxID, hxStatus⟩
  intro hk
  cases hBacked _ hk with
  | inl hOld => exact hFree hOld
  | inr hNew => exact hFresh x hx (hxID.trans hNew)

theorem Effect.approved (h : Effect D a a') (hSound : a.Sound D) (hRuns : D.runs) : a'.Approved := by
  have hOld := hSound.approved hRuns
  have hKeyed := hSound.exclusive.keyed
  -- no approval is pending for a run that is queued, running, or executes a deployment
  have hOther {r : TaskRun} (hr : r ∈ a.runs)
      (hStatus : a.Backed r.id ∨ (r.status ≠ .waitingApproval ∧ r.status ≠ .canceled)) :=
    hOld.not_about hKeyed hr hStatus
  have hExecutes {d : Deployment} {runID : String} (hd : d ∈ a.deployments)
      (hBacks : d.taskRunID = some runID) : a.Backed runID := List.mem_map.mpr ⟨d, hd, hBacks⟩
  have hEnded {deploymentID runID leaseID runnerID fence : String} {attempt : Int} {l : RunLease}
      {t : DeploymentAttempt} {r : TaskRun}
      (hHeld : Held deploymentID runID leaseID runnerID attempt fence l t r) (hr : r ∈ a.runs) :
      ∀ p ∈ a.approvals, p.status = .pending → p.runID ≠ r.id := by
    apply hOther hr
    rw [((heldRun_iff _ _ _).mp hHeld.run).2.2]
    exact .inr (by decide)
  cases h with
  | addApproval _ hFree => exact absurd hRuns hFree
  | renew | addService | addEnvironment => exact ⟨hOld.about, hOld.single⟩
  | addRun run _ hFresh hNew =>
    obtain ⟨-, hEq⟩ | ⟨hStatus, p, hRun, hEq⟩ := hNew hRuns
    · exact hOld.more run hFresh hEq rfl (fun _ => .inl)
    · subst hEq
      have hMore := hOld.more (b := { a with runs := run :: a.runs }) run hFresh rfl rfl (fun _ => .inl)
      refine ⟨?_, List.pairwise_cons.mpr ⟨?_, hOld.single⟩⟩
      · intro q hq hPending
        cases List.mem_cons.mp hq with
        | inl hEq =>
          subst hEq
          refine ⟨hRun ▸ hSound.formed.not_backed hFresh, run, List.mem_cons_self, hRun.symm, .inl hStatus⟩
        | inr hq => exact hMore.about q hq hPending
      · intro q hq _ hPending hEq
        obtain ⟨-, x, hx, hxID, -⟩ := hOld.about q hq hPending
        exact hFresh x hx (hxID.trans (hEq.symm.trans hRun))
  | decide _ _ approvals _ _ _ hp hPending hDecided hr hTask hAbout =>
    have hLess := hOld.decided (b := { a with approvals := approvals }) hp hDecided rfl rfl
    refine hLess.1.edit hr hTask.id rfl rfl (fun _ => id) (.inr ?_)
    intro q hq hqPending hEq
    exact (hLess.2 q hq hqPending) hPending (hEq.trans hAbout.symm)
  | decideAbsent _ _ approvals hp hDecided =>
    exact (hOld.decided (b := { a with approvals := approvals }) hp hDecided rfl rfl).1
  | editRun r r' _ hr hTask hSafe =>
    have hStatus : r'.status = r.status := by
      obtain hSame | hFree := hSafe
      · exact hSame.1
      · exact absurd hRuns hFree.1
    refine hOld.edit hr hTask.id rfl rfl (fun _ => id) ?_
    rw [hStatus, or_iff_not_imp_left, not_or]
    intro hNot
    exact hOther hr.mem_old (.inr hNot)
  | claim _ _ _ _ _ hr hTask hQueued =>
    refine hOld.edit hr hTask.id rfl rfl (backed_same (identity_updateAll _ _ _ (fun _ => rfl)))
      (.inr (hOther hr.mem_old (.inr ?_)))
    rw [hQueued]
    decide
  | expire _ _ _ _ _ _ _ _ hr hTask _ hRunning =>
    refine hOld.edit hr hTask.id rfl rfl (fun _ => id) (.inr (hOther hr.mem_old (.inr ?_)))
    rw [hRunning]
    decide
  | complete l _ _ r _ _ hl hActive _ _ hr hTask hRun _ _ =>
    -- the run of an active lease is running
    have hRunning : r.status = .running :=
      (hSound.exclusive.held l hl.mem_old (.inl hRuns) hActive r hr.mem_old hRun.symm).1
    refine hOld.edit hr hTask.id rfl rfl (fun _ => id) (.inr (hOther hr.mem_old (.inr ?_)))
    rw [hRunning]
    decide
  | cancelRun _ _ _ hr => exact hOld.edit hr rfl rfl rfl (fun _ => id) (.inl (.inr rfl))
  | addDeployment run _ hRunFresh _ hBacks =>
    exact hOld.more run hRunFresh rfl rfl (backed_more (List.map_append ..) hBacks)
  | confirm _ _ _ _ _ _ hd _ hBacks _ _ hd' hr hr' =>
    refine hOld.edit hr ?_ rfl rfl (backed_same (hd.map_eq _ (by rw [hd']; rfl)))
      (.inr (hOther hr.mem_old (.inl (hExecutes hd.mem_old hBacks))))
    obtain hEq | ⟨-, hEq⟩ := hr' <;> rw [hEq]
  | failUnassigned _ _ _ _ _ _ _ hd _ hBacks hd' hr =>
    exact hOld.edit hr rfl rfl rfl (backed_same (hd.map_eq _ (by rw [hd']; rfl)))
      (.inr (hOther hr.mem_old (.inl (hExecutes hd.mem_old hBacks))))
  | advance _ _ _ _ hd => exact hOld.same rfl rfl (backed_same (hd.map_eq _ rfl))
  | finish _ _ _ _ _ _ _ _ _ _ _ _ _ _ hMiddle hFound hDeployments _ _ _ hAllowed _ _ _ _ hHeld _ hr =>
      have hIdentity := finish_identity hMiddle hFound hDeployments hAllowed
      exact hOld.edit hr rfl rfl rfl (backed_same hIdentity) (.inr (hEnded hHeld hr.mem_old))
  | cancelNow _ _ _ _ _ _ hd _ _ _ _ hr =>
    exact hOld.edit hr rfl rfl rfl (backed_same (hd.map_eq _ rfl)) (.inl (.inr rfl))
  | cancelLater _ _ _ _ hd => exact hOld.same rfl rfl (backed_same (hd.map_eq _ rfl))
  | failSource _ _ _ _ _ _ _ _ _ _ _ _ hd _ _ _ _ _ hHeld _ hr =>
      exact hOld.edit hr rfl rfl rfl (backed_same (hd.map_eq _ rfl)) (.inr (hEnded hHeld hr.mem_old))
  | rollBack _ _ _ _ _ _ r runs _ _ _ run _ hd _ _ _ _ _ hHeld _ hr _ _ _ _ _ _ hRunFresh hRunID _ =>
      have hSource := hOld.edit (b := { a with runs := runs }) hr rfl rfl rfl (fun _ => id)
        (.inr (hEnded hHeld hr.mem_old))
      refine hSource.more run ?_ rfl rfl (backed_more (identity_more hd rfl _) (by rw [hRunID]; rfl))
      rw [hRunID]
      exact hr.fresh_key (fun r => r.id) rfl hRunFresh

theorem Effect.sound (h : Effect D a a') (hSound : a.Sound D) : a'.Sound D where
  exclusive := h.exclusive hSound
  deploymentIDs := h.deploymentIDs hSound
  backing := h.backing hSound
  approved := h.approved hSound

end

theorem Authority.Sound.weaken {D' : Discipline} (h : a.Sound D) (hRuns : D'.runs → D.runs)
    (hDeployments : D'.deployments → D.deployments) : a.Sound D' where
  exclusive := h.exclusive.mono _ (fun _ => Or.imp_left hRuns)
  deploymentIDs := fun hD => h.deploymentIDs (hDeployments hD)
  backing := h.backing
  approved := fun hD => h.approved (hRuns hD)

theorem sound_newMemoryStore (D : Discipline) : newMemoryStore.authority.Sound D where
  exclusive := exclusive_nil _ _ _
  deploymentIDs := fun _ => List.Pairwise.nil
  backing := by simp [MemoryStore.authority, newMemoryStore]
  approved := fun _ => ⟨by simp [MemoryStore.authority, newMemoryStore], List.Pairwise.nil⟩

theorem perform_sound {s : MemoryStore} (op : Operation) (hSound : s.authority.Sound D) (hFresh : op.Fresh s)
    (hRuns : D.runs → op.KeepsRuns) (hDeployments : D.deployments → op.KeepsDeployments s)
    (hSome : D.runs ∨ D.deployments)
    (hTransitions : (perform op s).1.isOk = true → ∀ t, op.Records t → D.transitions t)
    (hCompletions : (perform op s).1.isOk = true → ∀ l, op.Completes l → D.completions l) :
    (perform op s).2.authority.Sound D :=
  (perform_effects op hSound.formed hFresh hRuns hDeployments hSome hTransitions hCompletions).keeps _
    (fun _ _ => Effect.sound) hSound

-- Runs are created and completed as the service does it, and nothing sets their status from outside.
def RunsAdmitted (s : MemoryStore) (op : Operation) : Prop := op.Fresh s ∧ op.KeepsRuns

theorem Reaches.sound {past : List Operation} {s : MemoryStore} (hReached : Reaches RunsAdmitted past s) :
    s.authority.Sound { runs := True, deployments := False } := by
  apply hReached.invariant (fun s => s.authority.Sound _) (sound_newMemoryStore _)
  intro s op hSound hAdmitted
  exact perform_sound op hSound hAdmitted.1 (fun _ => hAdmitted.2) False.elim (.inl trivial)
    (fun _ _ _ => trivial) (fun _ _ _ => trivial)

-- Claims are exclusive: a run has at most one active lease, it is running exactly while it has one and
-- then for the runner of that lease, and every new lease of a run has a higher attempt number.
theorem claims_exclusive {past : List Operation} {s : MemoryStore} (hReached : Reaches RunsAdmitted past s)
    (run : TaskRun) (hRun : run ∈ s.runs) :
    (s.leases.filter (activeLeaseOf run.id)).length ≤ 1 ∧
    (run.status = .running ↔
      ∃ l, s.leases.filter (activeLeaseOf run.id) = [l] ∧ run.runnerID = some l.runnerID) ∧
    ((s.leases.filter (fun l => l.runID == run.id)).map (fun l => l.attempt)).Pairwise (· < ·) := by
  have hSound := hReached.sound
  refine ⟨?_, ?_, ?_⟩
  · exact hSound.exclusive.live_le_one run.id (.inl trivial) _ (activeLeaseOf_iff run.id)
  · exact hSound.exclusive.held_iff run hRun (.inl trivial) _ (activeLeaseOf_iff run.id)
  · apply hSound.exclusive.generations run.id
    intro l hl
    exact beq_iff_eq.mp hl

-- A run that is claimed, loses its lease when that expires, and is claimed again.
def sampleRun : TaskRun :=
  { id := "run", projectID := "project", runSpec := { type := "process" }, status := .queued,
    requestedBy := "user", startedAt := 0 }

def sampleRunner : Runner :=
  { id := "runner", name := "runner", tags := [], capabilities := ["process"], tokenHash := "",
    status := .active, registeredAt := 0, lastHeartbeatAt := 0 }

def sampleClaimed : MemoryStore :=
  (perform (.claimRun "runner" 1 10 (some "lease") (some "fence") none)
    (perform (.registerRunner sampleRunner none) (perform (.createRun sampleRun) newMemoryStore).2).2).2

def sampleReclaimed : MemoryStore :=
  (perform (.claimRun "runner" 20 10 (some "other lease") (some "other fence") none) sampleClaimed).2

theorem sampleReclaimed_reached : ∃ past, Reaches RunsAdmitted past sampleReclaimed := by
  have hLeases : sampleClaimed.leases.map (fun l => (l.id, l.fence)) = [("lease", "fence")] := by decide +kernel
  refine ⟨_, .step _ _ _ (.step _ _ _ (.step _ _ _ (.step _ _ _ .start ?_) ?_) ?_) ?_⟩
  · exact ⟨by simp [Operation.Fresh, newMemoryStore], rfl⟩
  · exact ⟨trivial, trivial⟩
  · refine ⟨?_, trivial⟩
    intro l hl
    cases hl
  · refine ⟨?_, trivial⟩
    intro l hl
    have hMem : (l.id, l.fence) ∈ [("lease", "fence")] := hLeases ▸ List.mem_map.mpr ⟨l, hl, rfl⟩
    rw [List.mem_singleton, Prod.mk.injEq] at hMem
    rw [hMem.1, hMem.2]
    decide

theorem claims_exclusive_reclaimed :
    ∃ run ∈ sampleReclaimed.runs, run.status = .running ∧
      (∃ l, sampleReclaimed.leases.filter (activeLeaseOf run.id) = [l] ∧ run.runnerID = some l.runnerID) ∧
      (sampleReclaimed.leases.filter (fun l => l.runID == run.id)).map (fun l => l.attempt) = [1, 2] ∧
      ([1, 2] : List Int).Pairwise (· < ·) := by
  obtain ⟨past, hReached⟩ := sampleReclaimed_reached
  have hSome : (sampleReclaimed.runs.head?.map (fun run => (run.id, run.status))) = some ("run", .running) := by
    decide +kernel
  have hAttempts : (sampleReclaimed.leases.filter (fun l => l.runID == "run")).map (fun l => l.attempt) =
      [1, 2] := by
    decide +kernel
  obtain ⟨run, hHead, hEq⟩ := Option.map_eq_some_iff.mp hSome
  rw [Prod.mk.injEq] at hEq
  have hRun : run ∈ sampleReclaimed.runs := List.mem_of_head? hHead
  obtain ⟨-, hRunning, hIncrease⟩ := claims_exclusive hReached run hRun
  rw [hEq.1, hAttempts] at hIncrease
  refine ⟨run, hRun, hEq.2, hRunning.mp hEq.2, ?_, hIncrease⟩
  rw [hEq.1, hAttempts]

end NeroCD.Store
