import Mathlib.Data.Countable.Basic
import Mathlib.Data.String.Basic
import NeroCD.HostingProxy
import NeroCD.Digests

-- Compilation is canonical: the order of the routes does not matter, and the validator accepts only compiled plans.

namespace NeroCD.HostingProxy

open NeroCD.Checks NeroCD.Sorting

variable {lib : Library} {choices other : Choices} {s s' : Snapshot} {previous : Int} {daemon : String} {p : Plan}

section Targets

def RouteTarget.binding (r : RouteTarget) : String := r.hostname ++ " " ++ r.pathPrefix

theorem checkTarget_eq_ok {managementPort : Nat} {ids bindings : List String} {r : RouteTarget} :
    checkTarget lib managementPort ids bindings r = .ok () ↔
      checkTarget lib managementPort [] [] r = .ok () ∧ r.routeID ∉ ids ∧ r.binding ∉ bindings := by
  simp only [checkTarget, RouteTarget.binding, bind_eq_ok, exists_unit, refuse_eq_ok, Bool.or_eq_false_iff,
    List.contains_eq_mem, decide_eq_false_iff_not, List.not_mem_nil, not_false_eq_true, and_true]
  tauto

theorem checkTargets_eq_ok {managementPort : Nat} {targets : List RouteTarget} {ids bindings : List String} :
    checkTargets lib managementPort ids bindings targets = .ok () ↔
      (∀ r ∈ targets, checkTarget lib managementPort [] [] r = .ok ()) ∧
        ((targets.map (·.routeID)).Nodup ∧ ∀ r ∈ targets, r.routeID ∉ ids) ∧
        (targets.map (·.binding)).Nodup ∧ ∀ r ∈ targets, r.binding ∉ bindings := by
  induction targets generalizing ids bindings with
  | nil => simp [checkTargets]
  | cons r rest ih =>
    rw [checkTargets, bind_eq_ok, exists_unit, checkTarget_eq_ok]
    change _ ∧ checkTargets lib managementPort (r.routeID :: ids) (r.binding :: bindings) rest = .ok () ↔ _
    simp only [ih, List.forall_mem_cons, List.map_cons, List.nodup_cons]
    simp only [List.mem_cons, List.mem_map, not_or, not_exists, not_and]
    constructor
    · rintro ⟨⟨hCheck, hID, hBinding⟩, hChecks, ⟨hIDs, hNew⟩, hBindings, hFresh⟩
      exact ⟨⟨hCheck, hChecks⟩, ⟨⟨fun t ht => (hNew t ht).1, hIDs⟩, hID, fun t ht => (hNew t ht).2⟩,
        ⟨fun t ht => (hFresh t ht).1, hBindings⟩, hBinding, fun t ht => (hFresh t ht).2⟩
    · rintro ⟨⟨hCheck, hChecks⟩, ⟨⟨hNew, hIDs⟩, hID, hOther⟩, ⟨hFresh, hBindings⟩, hBinding, hRest⟩
      exact ⟨⟨hCheck, hID, hBinding⟩, hChecks, ⟨hIDs, fun t ht => ⟨hNew t ht, hOther t ht⟩⟩, hBindings,
        fun t ht => ⟨hFresh t ht, hRest t ht⟩⟩

structure VerifiedSwitchRoute.Selectable (managementPort : Nat) (targets : List RouteTarget)
    (r : VerifiedSwitchRoute) (candidate : RouteTarget) : Prop where
  found : lookupTarget targets r.routeID = some candidate
  named : r.priorTarget.routeID = r.routeID
  unprivileged : 1024 ≤ r.priorTarget.hostPort
  unmanaged : r.priorTarget.hostPort ≠ managementPort
  moves : candidate.moved r.priorTarget = r.priorTarget

theorem checkSelection_ok {managementPort : Nat} {targets : List RouteTarget} {selection : List VerifiedSwitchRoute}
    {before : Option String} {first : Option RouteTarget}
    (h : checkSelection managementPort targets before first selection = .ok ()) :
    (∀ r ∈ selection, ∃ candidate, r.Selectable managementPort targets candidate) ∧
      (selection.map (·.routeID)).IsChain (· ≠ ·) ∧
      ∀ r ∈ selection.head?, before ≠ some r.routeID := by
  induction selection generalizing before first with
  | nil => exact ⟨nofun, .nil, nofun⟩
  | cons r rest ih =>
    rw [checkSelection] at h
    split at h
    · cases h
    · rename_i candidate hFound
      simp only [bind_eq_ok, exists_unit, refuse_eq_ok, Bool.or_eq_false_iff, bne_eq_false_iff_eq,
        beq_eq_false_iff_ne, decide_eq_false_iff_not, Nat.not_lt] at h
      obtain ⟨⟨⟨⟨⟨⟨hNamed, -⟩, hBefore⟩, -⟩, hPort⟩, hManaged⟩, -, hMoves, hRest⟩ := h
      obtain ⟨hSelectable, hChain, hHead⟩ := ih hRest
      refine ⟨List.forall_mem_cons.mpr ⟨⟨candidate, hFound, hNamed, hPort, hManaged, hMoves⟩, hSelectable⟩, ?_, ?_⟩
      · cases rest with
        | nil => exact .singleton _
        | cons next _ =>
          refine .cons_cons (fun hEq => ?_) hChain
          exact hHead next rfl (congrArg some hEq)
      · intro _ hHead
        cases hHead
        exact hBefore

-- Sorted and never twice in a row: no ID comes back.
theorem nodup_of_chain {ids : List String} (hSorted : ids.Pairwise (· ≤ ·)) (hChain : ids.IsChain (· ≠ ·)) :
    ids.Nodup := by
  induction ids with
  | nil => exact .nil
  | cons id rest ih =>
    obtain ⟨hFirst, hRest⟩ := List.pairwise_cons.mp hSorted
    refine List.nodup_cons.mpr ⟨fun hMem => ?_, ih hRest hChain.of_cons⟩
    cases rest with
    | nil => cases hMem
    | cons next _ =>
      -- The ID lies between itself and its neighbour.
      have hNext : next ≤ id := by
        cases List.mem_cons.mp hMem with
        | inl hEq => exact hEq ▸ le_rfl
        | inr hMem => exact (List.pairwise_cons.mp hRest).1 id hMem
      exact (List.isChain_cons_cons.mp hChain).1 (le_antisymm (hFirst next List.mem_cons_self) hNext)

end Targets

section Orders

theorem byRouteID : ByKey (fun a b : RouteTarget => decide (a.routeID < b.routeID)) (·.routeID) :=
  fun _ _ => decide_eq_true_iff

theorem bySelectedID : ByKey (fun a b : VerifiedSwitchRoute => decide (a.routeID < b.routeID)) (·.routeID) :=
  fun _ _ => decide_eq_true_iff

structure Shuffled (s s' : Snapshot) : Prop where
  targets : s.targets.Perm s'.targets
  verified : Option.Rel (fun v v' : VerifiedSwitch => v.routes.Perm v'.routes ∧
    { v with routes := [] } = { v' with routes := [] }) s.verifiedSwitch s'.verifiedSwitch
  rest : { s with routes := none, verifiedSwitch := none } = { s' with routes := none, verifiedSwitch := none }

structure DistinctIDs (s : Snapshot) : Prop where
  targets : (s.targets.map (·.routeID)).Nodup
  verified : ∀ v ∈ s.verifiedSwitch, (v.routes.map (·.routeID)).Nodup

theorem Shuffled.symm (h : Shuffled s s') : Shuffled s' s where
  targets := h.targets.symm
  verified := by
    have hVerified := h.verified
    generalize s.verifiedSwitch = v at hVerified ⊢
    generalize s'.verifiedSwitch = v' at hVerified ⊢
    cases hVerified with
    | some hRel => exact .some ⟨hRel.1.symm, hRel.2.symm⟩
    | none => exact .none
  rest := h.rest.symm

theorem Shuffled.distinctIDs (h : Shuffled s s') (hDistinct : DistinctIDs s') : DistinctIDs s where
  targets := ((h.targets.map _).nodup_iff).mpr hDistinct.targets
  verified := by
    intro v hv
    have hVerified := h.verified
    rw [Option.mem_def.mp hv] at hVerified
    generalize hSwitch : s'.verifiedSwitch = switch at hVerified
    cases hVerified with
    | some hRel => exact ((hRel.1.map _).nodup_iff).mpr (hDistinct.verified _ hSwitch)

theorem eq_of_key {α : Type} {key : α → String} {l : List α} (h : (l.map key).Nodup) :
    ∀ a ∈ l, ∀ b ∈ l, key a = key b → a = b :=
  fun _ ha _ hb hEq => List.inj_on_of_nodup_map h ha hb hEq

end Orders

section Compilation

def sorted (choices : Choices) (s : Snapshot) : Snapshot :=
  { s with routes := some (choices.sort (fun a b => a.routeID < b.routeID) s.targets) }

theorem sorted_verifiedSwitch (choices : Choices) (s : Snapshot) :
    (sorted choices s).verifiedSwitch = s.verifiedSwitch := rfl

theorem sorted_configuration (choices : Choices) (s : Snapshot) :
    (sorted choices s).configuration = s.configuration := rfl

def finished (lib : Library) (s : Snapshot) (previous : Int) (daemon : String) : Except String Plan := do
  refuse (s.storageSwitch.any fun storage => fails (storage.validate lib s previous)) "invalid hosting storage"
  refuse (lib.encodedLength (sealed lib s previous daemon) > 48 * 1024) "proxy plan exceeds journal document limit"
  pure (sealed lib s previous daemon)

theorem compile_eq :
    compile lib choices s previous daemon = (do
      checkHeader lib s previous daemon
      checkTargets lib s.configuration.managementPort [] [] (sorted choices s).targets
      let v ← canonicalVerifiedSwitch choices (sorted choices s) previous
      finished lib { sorted choices s with verifiedSwitch := v } previous daemon) := rfl

theorem compile_eq_ok :
    compile lib choices s previous daemon = .ok p ↔
      checkHeader lib s previous daemon = .ok () ∧
      checkTargets lib s.configuration.managementPort [] [] (sorted choices s).targets = .ok () ∧
      ∃ v, canonicalVerifiedSwitch choices (sorted choices s) previous = .ok v ∧
        finished lib { sorted choices s with verifiedSwitch := v } previous daemon = .ok p := by
  simp only [compile_eq, bind_eq_ok, exists_unit]

theorem finished_ok (h : finished lib s previous daemon = .ok p) : sealed lib s previous daemon = p := by
  simp only [finished, bind_eq_ok, exists_unit, refuse_eq_ok, pure_eq_ok] at h
  exact h.2.2

theorem sorted_targets (choices : Choices) (s : Snapshot) : (sorted choices s).targets.Perm s.targets :=
  choices.sort_perm _ _

theorem canonicalVerifiedSwitch_ok {v : Option VerifiedSwitch}
    (h : canonicalVerifiedSwitch choices s previous = .ok v) :
    (s.verifiedSwitch = none ∧ v = none) ∨
      ∃ w routes, s.verifiedSwitch = some w ∧ v = some { w with routes := routes } ∧ routes.Perm w.routes ∧
        routes.Pairwise (·.routeID ≤ ·.routeID) ∧ 1 ≤ previous ∧ routes ≠ [] ∧
        routes.length ≤ s.targets.length ∧
        checkSelection s.configuration.managementPort s.targets none none routes = .ok () := by
  unfold canonicalVerifiedSwitch at h
  split at h
  · rename_i hNone
    exact .inl ⟨hNone, (Except.ok.inj h).symm⟩
  · rename_i w hSome
    simp only [bind_eq_ok, exists_unit, refuse_eq_ok, pure_eq_ok, Bool.or_eq_false_iff, decide_eq_false_iff_not,
      beq_eq_false_iff_ne, gt_iff_lt, Nat.not_lt, Int.not_lt] at h
    obtain ⟨⟨⟨⟨⟨⟨-, hPrevious⟩, -⟩, -⟩, hLength⟩, hScope⟩, hSelection, rfl⟩ := h
    have hPerm := choices.sort_perm (fun a b : VerifiedSwitchRoute => decide (a.routeID < b.routeID)) w.routes
    refine .inr ⟨w, _, hSome, rfl, hPerm, choices.sort_sorted bySelectedID _, hPrevious, ?_, ?_, hSelection⟩
    · intro hNil
      rw [hNil] at hPerm
      exact hLength (congrArg List.length hPerm.nil_eq.symm)
    · rwa [hPerm.length_eq]

theorem distinctIDs_of_compile (h : compile lib choices s previous daemon = .ok p) : DistinctIDs s := by
  obtain ⟨-, hTargets, v, hVerified, -⟩ := compile_eq_ok.mp h
  constructor
  · have hNodup := (checkTargets_eq_ok.mp hTargets).2.1.1
    exact ((sorted_targets choices s).map _).nodup_iff.mp hNodup
  · intro w hw
    obtain ⟨hNone, -⟩ | ⟨w', routes, hSome, -, hPerm, hSorted, -, -, -, hSelection⟩ :=
      canonicalVerifiedSwitch_ok hVerified
    · cases hNone.symm.trans (Option.mem_def.mp hw)
    · cases hSome.symm.trans (Option.mem_def.mp hw)
      have hChain := (checkSelection_ok hSelection).2.1
      have hIDs : (routes.map (·.routeID)).Pairwise (· ≤ ·) := List.pairwise_map.mpr hSorted
      exact (hPerm.map _).nodup_iff.mp (nodup_of_chain hIDs hChain)

-- With distinct IDs both sorts have one result, so nothing that follows can tell the orders apart.
theorem compile_congr (hShuffled : Shuffled s s') (hDistinct : DistinctIDs s') :
    compile lib choices s previous daemon = compile lib other s' previous daemon := by
  obtain ⟨hTargets, hVerified, hRest⟩ := hShuffled
  have hSort : choices.sort (fun a b => decide (a.routeID < b.routeID)) s.targets =
      other.sort (fun a b => decide (a.routeID < b.routeID)) s'.targets :=
    Choices.sort_congr choices other byRouteID hTargets (eq_of_key hDistinct.targets)
  have hChecked : (sorted choices s).targets = (sorted other s').targets := hSort
  have hConfiguration : s.configuration = s'.configuration := congrArg (·.configuration) hRest
  have hHeader : checkHeader lib s previous daemon = checkHeader lib s' previous daemon := by
    simp only [Snapshot.mk.injEq, and_true] at hRest
    obtain ⟨-, hProxy, hServer, hDestination, hRunner, hGeneration, hConfiguration⟩ := hRest
    simp only [checkHeader, hProxy, hServer, hDestination, hRunner, hGeneration, hConfiguration, hTargets.length_eq]
  have hSwitch : canonicalVerifiedSwitch choices (sorted choices s) previous =
      canonicalVerifiedSwitch other (sorted other s') previous := by
    simp only [canonicalVerifiedSwitch, sorted_verifiedSwitch, sorted_configuration, hChecked, hConfiguration]
    generalize hv : s.verifiedSwitch = v at hVerified
    generalize hv' : s'.verifiedSwitch = v' at hVerified
    cases hVerified with
    | none => rfl
    | @some w w' hRel =>
      obtain ⟨hPerm, hFields⟩ := hRel
      have hRoutes : choices.sort (fun a b => decide (a.routeID < b.routeID)) w.routes =
          other.sort (fun a b => decide (a.routeID < b.routeID)) w'.routes :=
        Choices.sort_congr choices other bySelectedID hPerm (eq_of_key (hDistinct.verified _ hv'))
      obtain ⟨version, generation, operation, routes⟩ := w
      obtain ⟨version', generation', operation', routes'⟩ := w'
      simp only [VerifiedSwitch.mk.injEq, and_true] at hFields
      obtain ⟨rfl, rfl, rfl⟩ := hFields
      simp only [hRoutes, hPerm.length_eq]
  have hSorted : ∀ v : Option VerifiedSwitch,
      { sorted choices s with verifiedSwitch := v } = { sorted other s' with verifiedSwitch := v } := by
    intro v
    simp only [Snapshot.mk.injEq, and_true] at hRest
    obtain ⟨hStorage, hProxy, hServer, hDestination, hRunner, hGeneration, hConfiguration⟩ := hRest
    simp only [sorted, hSort, hStorage, hProxy, hServer, hDestination, hRunner, hGeneration, hConfiguration]
  rw [compile_eq, compile_eq, hHeader, hSwitch, hConfiguration, hChecked]
  simp only [hSorted]

-- A list that compiles has distinct IDs, in whatever order it stands.
theorem compile_shuffled (hShuffled : Shuffled s s') (h : compile lib choices s previous daemon = .ok p) :
    compile lib other s' previous daemon = .ok p := by
  rw [← h]
  exact compile_congr hShuffled.symm (distinctIDs_of_compile h)

theorem compile_toOption (hShuffled : Shuffled s s') :
    (compile lib choices s previous daemon).toOption = (compile lib other s' previous daemon).toOption := by
  cases h : compile lib choices s previous daemon with
  | ok p => rw [compile_shuffled hShuffled h]
  | error e =>
    cases h' : compile lib other s' previous daemon with
    | ok p => cases h.symm.trans (compile_shuffled hShuffled.symm h')
    | error _ => rfl

theorem compile_snapshot (h : compile lib choices s previous daemon = .ok p) :
    Shuffled s p.snapshot ∧ p.previousGeneration = previous ∧ p.daemonID = daemon := by
  obtain ⟨-, -, v, hVerified, hFinished⟩ := compile_eq_ok.mp h
  obtain rfl := finished_ok hFinished
  refine ⟨⟨(sorted_targets choices s).symm, ?_, rfl⟩, rfl, rfl⟩
  obtain ⟨hNone, rfl⟩ | ⟨w, routes, hSome, rfl, hPerm, -⟩ := canonicalVerifiedSwitch_ok hVerified
  · change Option.Rel _ s.verifiedSwitch none
    rw [show s.verifiedSwitch = none from hNone]
    exact .none
  · change Option.Rel _ s.verifiedSwitch (some { w with routes := routes })
    rw [show s.verifiedSwitch = some w from hSome]
    exact .some ⟨hPerm.symm, rfl⟩

theorem compile_compiled (h : compile lib choices s previous daemon = .ok p) :
    compile lib other p.snapshot p.previousGeneration p.daemonID = .ok p := by
  obtain ⟨hShuffled, hPrevious, hDaemon⟩ := compile_snapshot h
  rw [hPrevious, hDaemon]
  exact compile_shuffled hShuffled h

theorem validate_eq_ok (hHash : Function.Injective lib.planHash) :
    validate lib choices p = .ok () ↔ compile lib choices p.snapshot p.previousGeneration p.daemonID = .ok p := by
  simp only [validate, bind_eq_ok, refuse_eq_ok, Bool.or_eq_false_iff, bne_eq_false_iff_eq]
  constructor
  · rintro ⟨expected, hCompile, -, hSame⟩
    rw [hCompile, hHash hSame]
  · intro h
    exact ⟨p, h, ⟨rfl, rfl⟩, rfl⟩

end Compilation

-- Compilation is canonical, for any two ways of sorting equal IDs, and the validator accepts exactly the compilations
-- of their own snapshots.
theorem compilation_canonical (lib : Library) (choices other : Choices) (hHash : Function.Injective lib.planHash) :
    (∀ s s' previous daemon, Shuffled s s' →
      (compile lib choices s previous daemon).toOption = (compile lib other s' previous daemon).toOption ∧
        (DistinctIDs s → compile lib choices s previous daemon = compile lib other s' previous daemon)) ∧
    (∀ s previous daemon p, compile lib choices s previous daemon = .ok p →
      compile lib other p.snapshot p.previousGeneration p.daemonID = .ok p) ∧
    (∀ p, validate lib choices p = .ok () ↔
      compile lib other p.snapshot p.previousGeneration p.daemonID = .ok p) ∧
    ∀ p q, validate lib choices p = .ok () → validate lib other q = .ok () → Shuffled p.snapshot q.snapshot →
      p.previousGeneration = q.previousGeneration → p.daemonID = q.daemonID → p = q := by
  refine ⟨fun s s' previous daemon hShuffled => ⟨compile_toOption hShuffled, ?_⟩, ?_, ?_, ?_⟩
  · intro hDistinct
    exact compile_congr hShuffled (hShuffled.symm.distinctIDs hDistinct)
  · intro s previous daemon p h
    exact compile_compiled h
  · intro p
    rw [validate_eq_ok hHash]
    exact ⟨compile_compiled, compile_compiled⟩
  · intro p q hp hq hShuffled hPrevious hDaemon
    have hCompile : compile lib other q.snapshot p.previousGeneration p.daemonID = .ok p :=
      compile_shuffled hShuffled ((validate_eq_ok hHash).mp hp)
    rw [hPrevious, hDaemon, (validate_eq_ok hHash).mp hq] at hCompile
    exact (Except.ok.inj hCompile).symm

deriving instance Countable for Configuration

deriving instance Countable for RouteTarget

deriving instance Countable for VerifiedSwitchRoute

deriving instance Countable for VerifiedSwitch

deriving instance Countable for StorageRef

deriving instance Countable for StorageSwitch

deriving instance Countable for Snapshot

deriving instance Countable for Plan

noncomputable def sampleLibrary : Library where
  lookup := some
  email _ := true
  planHash := Injections.distinctText
  routesHash _ := ""
  storageSwitchHash _ := ""
  encodedLength _ := 0

def sampleTarget (id release : String) (hostPort : Nat) : RouteTarget :=
  ⟨id, "project", "resource", "binding", release, id ++ ".example.org", "/", hostPort⟩

-- Route `a` moves to the new release, route `b` stays.
def sampleSnapshot (targets : List RouteTarget) : Snapshot where
  storageSwitch := none
  proxyID := "proxy"
  serverID := "server"
  destinationID := "destination"
  runnerID := "runner"
  generation := 2
  configuration := ⟨"ops@example.org", "letsencrypt", 9000, ""⟩
  routes := some targets
  verifiedSwitch := some ⟨1, 1, "before", [⟨"a", 1, sampleTarget "a" "old" 8001⟩]⟩

def sampleTargets : List RouteTarget := [sampleTarget "b" "other" 8003, sampleTarget "a" "new" 8002]

theorem sample_canonical :
    (compile sampleLibrary .plain (sampleSnapshot sampleTargets) 1 "daemon").isOk = true ∧
      (compile sampleLibrary .plain (sampleSnapshot sampleTargets) 1 "daemon").toOption =
        (compile sampleLibrary .plain (sampleSnapshot sampleTargets.reverse) 1 "daemon").toOption := by
  refine ⟨by decide +kernel, ?_⟩
  have hCanonical := compilation_canonical sampleLibrary .plain .plain Injections.distinctText_injective
  have hShuffled : Shuffled (sampleSnapshot sampleTargets) (sampleSnapshot sampleTargets.reverse) :=
    ⟨(List.reverse_perm sampleTargets).symm, .some ⟨.refl _, rfl⟩, rfl⟩
  exact (hCanonical.1 _ _ 1 "daemon" hShuffled).1

end NeroCD.HostingProxy
