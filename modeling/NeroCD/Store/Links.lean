import NeroCD.Store.Exclusivity

-- How the records refer to each other. A reported failure so never stops between settling its source and queueing the
-- rollback.

namespace NeroCD.Store

open NeroCD.Domain NeroCD.Records

structure Authority.Linkage (a : Authority) : Prop where
  runs : Keyed (fun d : Deployment => d.taskRunID) a.deployments
  tasks : ∀ d ∈ a.deployments, ∀ r ∈ a.runs, d.taskRunID = some r.id → ComposeTask d.id r
  environments : Keyed (fun e : Environment => e.id) a.environments
  projects : ∀ v ∈ a.services, v.projectID ≠ ""
  leases : ∀ l ∈ a.leases, ∀ d ∈ a.deployments, d.taskRunID = some l.runID → a.Linked d

inductive EnvironmentsAfter (a a' : Authority) : Prop
  | same (h : a'.environments.map (fun e => (e.id, e.serviceID)) =
      a.environments.map (fun e => (e.id, e.serviceID)))
  | more (v : Environment) (hFresh : ∀ e ∈ a.environments, e.id ≠ v.id)
      (h : a'.environments.map (fun e => (e.id, e.serviceID)) =
        a.environments.map (fun e => (e.id, e.serviceID)) ++ [(v.id, v.serviceID)])

section

variable {D : Discipline} {a a' : Authority}

theorem Effect.environments (h : Effect D a a') : EnvironmentsAfter a a' := by
  cases h with
  | addRun | addApproval | decide | decideAbsent | editRun | claim | renew | expire | complete | cancelRun
  | addService | addDeployment | confirm | failUnassigned | advance | cancelNow | cancelLater | failSource
  | rollBack => exact .same rfl
  | addEnvironment v hFresh => exact .more v hFresh (List.map_append ..)
  | finish =>
    apply EnvironmentsAfter.same
    show (if _ then updateAll _ _ a.environments else a.environments).map _ = _
    split
    · unfold updateAll
      rw [List.map_map]
      apply List.map_congr_left
      intro e _
      show ((if _ then _ else e : Environment).id, (if _ then _ else e : Environment).serviceID) = _
      split <;> rfl
    · rfl

theorem Effect.services (h : Effect D a a') : ∃ added, a'.services = a.services ++ added ∧
    (D.deployments → ∀ v ∈ added, v.projectID ≠ "") := by
  cases h with
  | addService v hProject =>
    refine ⟨[v], rfl, ?_⟩
    intro hD w hw
    rw [List.mem_singleton.mp hw]
    exact hProject hD
  | addRun | addApproval | decide | decideAbsent | editRun | claim | renew | expire | complete | cancelRun
  | addEnvironment | addDeployment | confirm | failUnassigned | advance | finish
  | cancelNow | cancelLater | failSource | rollBack => exact ⟨[], by simp, by simp⟩

theorem Effect.linked (h : Effect D a a') {d d' : Deployment} (hSame : d'.environmentID = d.environmentID)
    (hLinked : a.Linked d) : a'.Linked d' := by
  obtain ⟨e, he, hID, v, hv, hService⟩ := hLinked
  have hPair : (e.id, e.serviceID) ∈ a'.environments.map (fun e => (e.id, e.serviceID)) := by
    have hOld : (e.id, e.serviceID) ∈ a.environments.map (fun e => (e.id, e.serviceID)) :=
      List.mem_map.mpr ⟨e, he, rfl⟩
    cases h.environments with
    | same hEq => rwa [hEq]
    | more _ _ hEq =>
      rw [hEq]
      exact List.mem_append_left _ hOld
  obtain ⟨e', he', hEq⟩ := List.mem_map.mp hPair
  rw [Prod.mk.injEq] at hEq
  obtain ⟨added, hServices, -⟩ := h.services
  refine ⟨e', he', by rw [hEq.1, hID, hSame], v, ?_, by rw [hEq.2, hService]⟩
  rw [hServices]
  exact List.mem_append_left _ hv

theorem Effect.run_tasks (h : Effect D a a') :
    ∀ r' ∈ a'.runs, (∃ r ∈ a.runs, SameTask r r') ∨ ∀ r ∈ a.runs, r.id ≠ r'.id := by
  intro x hx
  have hSelf (r : TaskRun) : SameTask r r := ⟨rfl, rfl⟩
  have hKept {r r' : TaskRun} {runs : List TaskRun} (hr : Replaces r r' a.runs runs) (hTask : SameTask r r')
      (hx : x ∈ runs) : (∃ r ∈ a.runs, SameTask r x) ∨ ∀ r ∈ a.runs, r.id ≠ x.id := by
    cases hr.mem_or x hx with
    | inl hEq =>
      subst hEq
      exact .inl ⟨r, hr.mem_old, hTask⟩
    | inr hOld => exact .inl ⟨x, hOld, hSelf x⟩
  have hAdded {run : TaskRun} (hFresh : ∀ r ∈ a.runs, r.id ≠ run.id) (hEq : x = run) :
      (∃ r ∈ a.runs, SameTask r x) ∨ ∀ r ∈ a.runs, r.id ≠ x.id := .inr (hEq ▸ hFresh)
  cases h with
  | addApproval | decideAbsent | renew | addService | addEnvironment | advance
  | cancelLater => exact .inl ⟨x, hx, hSelf x⟩
  | addRun _ _ hFresh =>
    cases List.mem_cons.mp hx with
    | inl hEq => exact hAdded hFresh hEq
    | inr hx => exact .inl ⟨x, hx, hSelf x⟩
  | addDeployment _ _ hRunFresh =>
    cases List.mem_cons.mp hx with
    | inl hEq => exact hAdded hRunFresh hEq
    | inr hx => exact .inl ⟨x, hx, hSelf x⟩
  | decide _ _ _ _ _ _ _ _ _ hr hTask => exact hKept hr hTask hx
  | editRun _ _ _ hr hTask => exact hKept hr hTask hx
  | claim _ _ _ _ _ hr hTask => exact hKept hr hTask hx
  | expire _ _ _ _ _ _ _ _ hr hTask => exact hKept hr hTask hx
  | complete _ _ _ _ _ _ _ _ _ _ hr hTask => exact hKept hr hTask hx
  | cancelRun _ _ _ hr => exact hKept hr ⟨rfl, rfl⟩ hx
  | confirm _ _ _ _ _ _ _ _ _ _ _ _ hr hr' =>
    apply hKept hr _ hx
    obtain hEq | ⟨-, hEq⟩ := hr' <;> rw [hEq] <;> exact ⟨rfl, rfl⟩
  | failUnassigned _ _ _ _ _ _ _ _ _ _ _ hr =>
    exact hKept hr ⟨rfl, rfl⟩ hx
  | finish _ _ _ _ _ _ _ _ _ _ _ _ _ _ _ _ _ _ _ _ _ _ _ _ _ _ _ hr =>
      exact hKept hr ⟨rfl, rfl⟩ hx
  | cancelNow _ _ _ _ _ _ _ _ _ _ _ hr => exact hKept hr ⟨rfl, rfl⟩ hx
  | failSource _ _ _ _ _ _ _ _ _ _ _ _ _ _ _ _ _ _ _ _ hr => exact hKept hr ⟨rfl, rfl⟩ hx
  | rollBack _ _ _ _ _ _ _ _ _ _ _ _ _ _ _ _ _ _ _ _ _ hr _ _ _ _ _ _ hRunFresh hRunID =>
      cases List.mem_cons.mp hx with
      | inl hEq => exact hAdded (hRunID ▸ hRunFresh) hEq
      | inr hx => exact hKept hr ⟨rfl, rfl⟩ hx

def leaseIdentity (l : RunLease) : String × String × String × Int × String :=
  (l.id, l.runID, l.runnerID, l.attempt, l.fence)

inductive LeaseStep (D : Discipline) (l : RunLease) : RunLease → Prop
  | kept : LeaseStep D l l
  | changed (l' : RunLease) (hActive : l.status = .active) (hSame : leaseIdentity l' = leaseIdentity l)
      (hKey : l'.completionKey = l.completionKey ∨ D.completions l') : LeaseStep D l l'

theorem LeaseStep.identity {l l' : RunLease} (h : LeaseStep D l l') : leaseIdentity l' = leaseIdentity l := by
  cases h with
  | kept => rfl
  | changed _ _ hSame => exact hSame

inductive LeasesAfter (D : Discipline) (a a' : Authority) : Prop
  | same (h : List.Forall₂ (LeaseStep D) a.leases a'.leases)
  | claimed (lease : RunLease) (r : TaskRun) (h : a'.leases = a.leases ++ [lease])
      (hFresh : ∀ l ∈ a.leases, l.id ≠ lease.id) (hKey : lease.completionKey = "") (hr : r ∈ a.runs)
      (hRun : lease.runID = r.id)
      (hAllowed : r.runSpec.type = runTypeComposeDeploy → ∃ d ∈ a.deployments,
        r.runSpec.inputs.lookup "deployment_id" = some (.text d.id) ∧ d.taskRunID = some r.id ∧ a.Linked d)

theorem Effect.leases (h : Effect D a a') : LeasesAfter D a a' := by
  have hSelf : List.Forall₂ (LeaseStep D) a.leases a.leases := List.forall₂_same.mpr (fun _ _ => .kept)
  have hEnded {l : RunLease} {leases : List RunLease} {status : LeaseStatus} {now : Time}
      (hl : Replaces l (endedLease status now l) a.leases leases) (hActive : l.status = .active) :
      List.Forall₂ (LeaseStep D) a.leases leases :=
    hl.forall₂ _ (fun _ => .kept) (.changed _ hActive rfl (.inl rfl))
  have hCanceled (runID : String) (now : Time) : List.Forall₂ (LeaseStep D) a.leases
      (updateAll (activeLeaseOf runID) (canceledLease now) a.leases) := by
    apply forall₂_updateAll _ _ _ _ (fun _ => .kept)
    intro l hl
    exact .changed _ ((activeLeaseOf_iff runID l).mp hl).2 rfl (.inl rfl)
  cases h with
  | addApproval | decideAbsent | addService | addEnvironment | advance | cancelLater
  | addRun | addDeployment | decide | editRun | confirm | failUnassigned => exact .same hSelf
  | claim r _ _ lease _ hr _ _ _ _ hRun _ hKey _ hFresh hAllowed =>
    exact .claimed lease r rfl hFresh hKey hr.mem_old hRun hAllowed
  | renew _ _ _ hActive hl =>
    exact .same (hl.forall₂ _ (fun _ => .kept) (.changed _ hActive rfl (.inl rfl)))
  | expire _ _ _ _ _ _ hl hActive => exact .same (hEnded hl hActive)
  | complete _ _ _ _ _ _ hl hActive hCompletes hSame =>
    refine .same (hl.forall₂ _ (fun _ => .kept) (.changed _ hActive ?_ (.inr hCompletes)))
    unfold leaseIdentity
    rw [hSame.1, hSame.2.1, hSame.2.2.1, hSame.2.2.2.1, hSame.2.2.2.2]
  | cancelRun | cancelNow => exact .same (hCanceled _ _)
  | finish _ _ _ _ _ _ _ _ _ _ _ _ _ _ _ _ _ _ _ _ _ _ _ _ _ hHeld hl =>
      exact .same (hEnded hl hHeld.active)
  | failSource _ _ _ _ _ _ _ _ _ _ _ _ _ _ _ _ _ _ hHeld hl => exact .same (hEnded hl hHeld.active)
  | rollBack _ _ _ _ _ _ _ _ _ _ _ _ _ _ _ _ _ _ _ hHeld hl => exact .same (hEnded hl hHeld.active)

theorem Effect.lease_runs (h : Effect D a a') :
    ∀ l' ∈ a'.leases, (∃ l ∈ a.leases, l.runID = l'.runID) ∨
      ∃ r ∈ a.runs, r.id = l'.runID ∧ (r.runSpec.type = runTypeComposeDeploy → ∃ d ∈ a.deployments,
        r.runSpec.inputs.lookup "deployment_id" = some (.text d.id) ∧ d.taskRunID = some r.id ∧
          a.Linked d) := by
  intro l' hl'
  cases h.leases with
  | same hLeases =>
    obtain ⟨l, hl, hStep⟩ := exists_of_forall₂_right hLeases l' hl'
    have hSame := hStep.identity
    unfold leaseIdentity at hSame
    simp only [Prod.mk.injEq] at hSame
    exact .inl ⟨l, hl, hSame.2.1.symm⟩
  | claimed _ r hLeases _ _ hr hRun hAllowed =>
    rw [hLeases] at hl'
    cases List.mem_append.mp hl' with
    | inl hOld => exact .inl ⟨l', hOld, rfl⟩
    | inr hNew =>
      rw [List.mem_singleton.mp hNew]
      exact .inr ⟨r, hr, hRun.symm, hAllowed⟩

theorem Effect.deployment_cases (h : Effect D a a') :
    ∀ d' ∈ a'.deployments, (∃ d ∈ a.deployments, SameDeployment d d') ∨
      ∃ run ∈ a'.runs, d'.taskRunID = some run.id ∧ (∀ r ∈ a.runs, r.id ≠ run.id) ∧ ComposeTask d'.id run := by
  intro d' hd'
  have hMem : identity d' ∈ a'.deployments.map identity := List.mem_map.mpr ⟨d', hd', rfl⟩
  have hOld (hMem : identity d' ∈ a.deployments.map identity) : ∃ d ∈ a.deployments, SameDeployment d d' := by
    obtain ⟨d, hd, hEq⟩ := List.mem_map.mp hMem
    exact ⟨d, hd, sameDeployment_of_identity hEq⟩
  cases h.deployments with
  | same hEq => exact .inl (hOld (hEq ▸ hMem))
  | more _ run hEq _ hBacks hRunFresh hRun hTask =>
    rw [hEq, List.mem_append, List.mem_singleton] at hMem
    cases hMem with
    | inl hMem => exact .inl (hOld hMem)
    | inr hMem =>
      have hSame := sameDeployment_of_identity hMem
      exact .inr ⟨run, hRun, hSame.taskRunID.trans hBacks, hRunFresh, hSame.id ▸ hTask⟩

theorem Effect.keyed_runs (h : Effect D a a') (hSound : a.Sound D)
    (hOld : Keyed (fun d : Deployment => d.taskRunID) a.deployments) :
    Keyed (fun d : Deployment => d.taskRunID) a'.deployments := by
  have hRuns (l : List Deployment) :
      l.map (fun d => d.taskRunID) = (l.map identity).map (fun d => d.taskRunID) := by
    rw [List.map_map]
    rfl
  rw [keyed_iff_nodup] at hOld ⊢
  cases h.deployments with
  | same hEq => rwa [hRuns, hEq, ← hRuns]
  | more _ run hEq _ hBacks hRunFresh =>
    rw [hRuns, hEq, List.map_append, ← hRuns, List.nodup_append]
    refine ⟨hOld, by simp, ?_⟩
    intro x hx y hy hxy
    have hy' : y = some run.id := by simpa [identity, hBacks] using hy
    rw [hxy, hy'] at hx
    exact hSound.formed.not_backed hRunFresh hx

theorem Effect.linkage (h : Effect D a a') (hSound : a.Sound D) (hLinks : a.Linkage) (hD : D.deployments) :
    a'.Linkage where
  runs := h.keyed_runs hSound hLinks.runs
  tasks := by
    intro d' hd' r' hr' hBacks
    cases h.deployment_cases d' hd' with
    | inl hOld =>
      obtain ⟨d, hd, hSame⟩ := hOld
      rw [← hSame.taskRunID] at hBacks
      cases h.run_tasks r' hr' with
      | inl hTask =>
        obtain ⟨r, hr, hTask⟩ := hTask
        rw [hTask.id] at hBacks
        have hCompose := hLinks.tasks d hd r hr hBacks
        rw [← hSame.id]
        unfold ComposeTask at hCompose ⊢
        rwa [hTask.runSpec]
      | inr hFresh => exact absurd (List.mem_map.mpr ⟨d, hd, hBacks⟩) (hSound.formed.not_backed hFresh)
    | inr hNew =>
      obtain ⟨run, hRun, hRunBacks, -, hTask⟩ := hNew
      rw [hRunBacks, Option.some.injEq] at hBacks
      rwa [(h.exclusive hSound).keyed.eq hr' hRun hBacks.symm]
  environments := by
    have hIDs (l : List Environment) :
        l.map (fun e => e.id) = (l.map (fun e => (e.id, e.serviceID))).map Prod.fst := by
      rw [List.map_map]
      rfl
    have hOld := hLinks.environments
    rw [keyed_iff_nodup] at hOld ⊢
    cases h.environments with
    | same hEq => rwa [hIDs, hEq, ← hIDs]
    | more v hFresh hEq =>
      rw [hIDs, hEq, List.map_append, ← hIDs, List.nodup_append]
      refine ⟨hOld, by simp, ?_⟩
      intro x hx y hy hxy
      obtain ⟨e, he, rfl⟩ := List.mem_map.mp hx
      exact hFresh e he (hxy.trans (by simpa using hy))
  projects := by
    obtain ⟨added, hServices, hAdded⟩ := h.services
    rw [hServices]
    intro v hv
    exact (List.mem_append.mp hv).elim (hLinks.projects v) (hAdded hD v)
  leases := by
    intro l' hl' d' hd' hBacks
    -- the run of a lease is no new one
    have hKnown : ∃ r ∈ a.runs, r.id = l'.runID := by
      obtain ⟨l, hl, hRun⟩ | ⟨r, hr, hID, -⟩ := h.lease_runs l' hl'
      · obtain ⟨r, hr, hID⟩ := hSound.formed.leases l hl
        exact ⟨r, hr, hID.trans hRun⟩
      · exact ⟨r, hr, hID⟩
    obtain ⟨d, hd, hSame⟩ | ⟨run, -, hRunBacks, hFresh, -⟩ := h.deployment_cases d' hd'
    · rw [← hSame.taskRunID] at hBacks
      apply h.linked hSame.environmentID.symm
      obtain ⟨l, hl, hRun⟩ | ⟨r, hr, hID, hAllowed⟩ := h.lease_runs l' hl'
      · exact hLinks.leases l hl d hd (hRun ▸ hBacks)
      · rw [← hID] at hBacks
        obtain ⟨e, he, -, heBacks, heLinked⟩ := hAllowed (hLinks.tasks d hd r hr hBacks).1
        rwa [hLinks.runs.eq hd he (hBacks.trans heBacks.symm)]
    · rw [hRunBacks, Option.some.injEq] at hBacks
      obtain ⟨r, hr, hID⟩ := hKnown
      exact absurd (hID.trans hBacks.symm) (hFresh r hr)

theorem Authority.Linkage.project (hLinks : a.Linkage) {l : RunLease} {d : Deployment} {e : Environment}
    (hl : l ∈ a.leases) (hd : d ∈ a.deployments) (hBacks : d.taskRunID = some l.runID)
    (he : e ∈ a.environments) (hEnv : e.id = d.environmentID) :
    ∃ v, a.services.find? (fun service => service.id == e.serviceID) = some v ∧ v.projectID ≠ "" := by
  obtain ⟨f, hf, hfID, w, hw, hService⟩ := hLinks.leases l hl d hd hBacks
  have hef : e = f := hLinks.environments.eq he hf (hEnv.trans hfID.symm)
  cases hFind : a.services.find? (fun service => service.id == e.serviceID) with
  | none => exact absurd (List.find?_eq_none.mp hFind w hw) (by simp [hef, hService])
  | some v => exact ⟨v, rfl, hLinks.projects v (List.mem_of_find?_eq_some hFind)⟩

end

theorem linkage_newMemoryStore : newMemoryStore.authority.Linkage where
  runs := List.Pairwise.nil
  tasks := by simp [MemoryStore.authority, newMemoryStore]
  environments := List.Pairwise.nil
  projects := by simp [MemoryStore.authority, newMemoryStore]
  leases := by simp [MemoryStore.authority, newMemoryStore]

end NeroCD.Store
