import Mathlib.Data.List.GetD
import NeroCD.HostingProxy.Canonical

-- What the controller's compiler accepts, the agent's engine prepares, and its plan follows the plan before.

namespace NeroCD.HostingProxy

open NeroCD.Checks NeroCD.GoStrings NeroCD.Sorting

variable {lib : Library} {choices : Choices} {s : Snapshot} {previous : Int} {daemon : String} {p : Plan}

section Compiled

structure Compiled (lib : Library) (p : Plan) : Prop where
  header : checkHeader lib p.snapshot p.previousGeneration p.daemonID = .ok ()
  sorted : p.snapshot.targets.Pairwise (·.routeID < ·.routeID)
  checked : ∀ r ∈ p.snapshot.targets, checkTarget lib p.snapshot.configuration.managementPort [] [] r = .ok ()
  bindings : (p.snapshot.targets.map (·.binding)).Nodup

theorem strictly_sorted {α : Type} {key : α → String} {l : List α} (hSorted : l.Pairwise (key · ≤ key ·))
    (hNodup : (l.map key).Nodup) : l.Pairwise (key · < key ·) :=
  (hSorted.and (List.pairwise_map.mp hNodup)).imp fun h => lt_of_le_of_ne h.1 h.2

theorem compile_facts (h : compile lib choices s previous daemon = .ok p) : Compiled lib p := by
  have hSelf : compile lib choices p.snapshot p.previousGeneration p.daemonID = .ok p := compile_compiled h
  obtain ⟨hHeader, hTargets, v, -, hFinished⟩ := compile_eq_ok.mp hSelf
  have hSame : p.snapshot.targets = (sorted choices p.snapshot).targets :=
    congrArg (·.snapshot.targets) (finished_ok hFinished).symm
  obtain ⟨hChecked, ⟨hIDs, -⟩, hBindings, -⟩ := checkTargets_eq_ok.mp hTargets
  rw [← hSame] at hChecked hIDs hBindings
  refine ⟨hHeader, ?_, hChecked, hBindings⟩
  have hSorted : (sorted choices p.snapshot).targets.Pairwise (·.routeID ≤ ·.routeID) :=
    choices.sort_sorted byRouteID _
  exact strictly_sorted (hSame ▸ hSorted) hIDs

structure Selects (p : Plan) (v : VerifiedSwitch) : Prop where
  loaded : 1 ≤ p.previousGeneration
  some_route : v.routes ≠ []
  length_le : v.routes.length ≤ p.snapshot.targets.length
  sorted : v.routes.Pairwise (·.routeID < ·.routeID)
  selectable : ∀ r ∈ v.routes,
    ∃ candidate, r.Selectable p.snapshot.configuration.managementPort p.snapshot.targets candidate

theorem compile_selects (h : compile lib choices s previous daemon = .ok p) {v : VerifiedSwitch}
    (hv : p.snapshot.verifiedSwitch = some v) : Selects p v := by
  obtain ⟨-, -, w, hVerified, hFinished⟩ := compile_eq_ok.mp h
  obtain rfl := finished_ok hFinished
  obtain ⟨-, rfl⟩ | ⟨w, routes, -, rfl, -, hSorted, hLoaded, hSome, hLength, hSelection⟩ :=
    canonicalVerifiedSwitch_ok hVerified
  · cases hv
  · cases hv
    obtain ⟨hSelectable, hChain, -⟩ := checkSelection_ok hSelection
    have hIDs : (routes.map (·.routeID)).Pairwise (· ≤ ·) := List.pairwise_map.mpr hSorted
    exact ⟨hLoaded, hSome, hLength, strictly_sorted hSorted (nodup_of_chain hIDs hChain), hSelectable⟩

end Compiled

section Maps

theorem find_reverse {α : Type} {key : α → String} {l : List α} (hl : l.Pairwise (key · < key ·)) {a : α}
    (ha : a ∈ l) : (l.reverse.find? fun b => key b == key a) = some a := by
  have hNodup : (l.map key).Nodup := List.pairwise_map.mpr (hl.imp fun h => h.ne)
  cases hFind : l.reverse.find? fun b => key b == key a with
  | none =>
    have hNone := List.find?_eq_none.mp hFind a (List.mem_reverse.mpr ha)
    exact absurd (beq_self_eq_true _) hNone
  | some b =>
    have hKey : key b = key a := by simpa using List.find?_some hFind
    exact congrArg some (eq_of_key hNodup b (List.mem_reverse.mp (List.mem_of_find?_eq_some hFind)) a ha hKey)

theorem lookupTarget_some {targets : List RouteTarget} {id : String} {r : RouteTarget}
    (h : lookupTarget targets id = some r) : r ∈ targets ∧ r.routeID = id :=
  ⟨List.mem_reverse.mp (List.mem_of_find?_eq_some h), by simpa using List.find?_some h⟩

theorem priorTarget_eq_none {v : VerifiedSwitch} {id : String} (h : id ∉ v.routeIDs) : priorTarget v id = none := by
  have hNone : (v.routes.reverse.find? fun r => r.routeID == id) = none := by
    refine List.find?_eq_none.mpr fun r hr hEq => h ?_
    exact List.mem_map.mpr ⟨r, List.mem_reverse.mp hr, by simpa using hEq⟩
  rw [priorTarget, hNone]
  rfl

theorem priorTarget_eq_some {v : VerifiedSwitch} (hSorted : v.routes.Pairwise (·.routeID < ·.routeID))
    {r : VerifiedSwitchRoute} (hr : r ∈ v.routes) : priorTarget v r.routeID = some r.priorTarget := by
  have hFind : (v.routes.reverse.find? fun b => b.routeID == r.routeID) = some r := find_reverse hSorted hr
  rw [priorTarget, hFind]
  rfl

end Maps

section Prior

def Preceded (v : VerifiedSwitch) (managementPort : Nat) (r prior : RouteTarget) : Prop :=
  (r.routeID ∉ v.routeIDs ∧ prior = r) ∨
    (r.routeID ∈ v.routeIDs ∧ r.moved prior = prior ∧ 1024 ≤ prior.hostPort ∧ prior.hostPort ≠ managementPort)

theorem Selects.preceded {v : VerifiedSwitch} (h : Selects p v) (hSorted : Compiled lib p) {r : RouteTarget}
    (hr : r ∈ p.snapshot.targets) :
    Preceded v p.snapshot.configuration.managementPort r ((priorTarget v r.routeID).getD r) := by
  by_cases hSelected : r.routeID ∈ v.routeIDs
  · obtain ⟨selected, hMem, hID⟩ := List.mem_map.mp hSelected
    obtain ⟨candidate, hSelectable⟩ := h.selectable selected hMem
    have hFound : lookupTarget p.snapshot.targets r.routeID = some r := find_reverse hSorted.sorted hr
    have hCandidate : candidate = r := by
      have hEq := hSelectable.found
      rw [hID, hFound] at hEq
      exact (Option.some.inj hEq).symm
    rw [← hID, priorTarget_eq_some h.sorted hMem, Option.getD_some]
    exact .inr ⟨hSelected, hCandidate ▸ hSelectable.moves, hSelectable.unprivileged, hSelectable.unmanaged⟩
  · rw [priorTarget_eq_none hSelected, Option.getD_none]
    exact .inl ⟨hSelected, rfl⟩

theorem Preceded.engineRoute {v : VerifiedSwitch} {managementPort : Nat} {r prior : RouteTarget}
    (h : Preceded v managementPort r prior) :
    prior.engineRoute = { r.engineRoute with hostPort := prior.hostPort } := by
  obtain ⟨-, rfl⟩ | ⟨-, hMoved, -⟩ := h
  · rfl
  · rw [← hMoved]
    rfl

end Prior

section Engine

open Proxy

variable {id : String} {settings : Settings} {ids : List String}

theorem idPattern_of_hostingProxyID (h : hostingProxyID id = true) (hLength : id.length ≤ 80) :
    idPattern id = true := by
  unfold hostingProxyID at h
  unfold idPattern
  rw [← String.length_toList] at hLength
  generalize id.toList = text at h hLength ⊢
  cases text with
  | nil => cases h
  | cons _ _ =>
    simp only [Bool.and_eq_true, decide_eq_true_iff] at h ⊢
    rw [List.length_cons] at hLength
    exact ⟨⟨h.1.1, by omega⟩, h.2⟩

theorem canonicalHostname_pattern {host : String} (h : canonicalHostname lib host = true) :
    hostPattern host = true ∧ host.utf8ByteSize ≤ 253 := by
  unfold canonicalHostname at h
  split at h
  · rename_i host' hNormal
    obtain rfl : host' = host := by simpa using h
    simp only [normalizeHostname, bind_eq_ok, exists_unit, refuse_eq_ok] at hNormal
    obtain ⟨-, hLookup⟩ := hNormal
    split at hLookup
    · cases hLookup
    · simp only [bind_eq_ok, exists_unit, refuse_eq_ok, pure_eq_ok, Bool.or_eq_false_iff,
        decide_eq_false_iff_not, Bool.not_eq_false', gt_iff_lt, Nat.not_lt, proxyHostname] at hLookup
      obtain ⟨⟨hSize, hPattern⟩, rfl⟩ := hLookup
      exact ⟨hPattern, hSize⟩
  · cases h

theorem checkRoute_engineRoute {r : RouteTarget} (h : checkTarget lib settings.managementPort [] [] r = .ok ())
    (hID : r.routeID.length ≤ 80) : checkRoute settings r.engineRoute = .ok () := by
  simp only [checkTarget, bind_eq_ok, exists_unit, refuse_eq_ok, forEach_eq_ok, List.forall_mem_cons,
    Bool.or_eq_false_iff, Bool.not_eq_false', decide_eq_false_iff_not, fails_eq_false] at h
  obtain ⟨⟨hRouteID, -⟩, ⟨⟨⟨⟨hHost, hPath⟩, -⟩, hPort⟩, hManaged⟩, -⟩ := h
  obtain ⟨hPattern, hSize⟩ := canonicalHostname_pattern hHost
  simp only [validateRoutePath, bind_eq_ok, exists_unit, refuse_eq_ok, forEach_eq_ok, List.forall_mem_cons] at hPath
  obtain ⟨hLiteral, hWellKnown, hDashboard, hReserved, -⟩ := hPath
  simp only [checkRoute, RouteTarget.engineRoute, bind_eq_ok, exists_unit, refuse_eq_ok]
  refine ⟨?_, hLiteral, ?_⟩
  · simp only [idPattern_of_hostingProxyID hRouteID hID, hPattern, Bool.not_true, Bool.false_or, Bool.or_eq_false_iff,
      decide_eq_false_iff_not, gt_iff_lt, Nat.not_lt]
    exact ⟨⟨hSize, decide_eq_false hPort⟩, hManaged⟩
  · simp only [hWellKnown, hDashboard, hReserved, Bool.or_false]

-- The checks read the port only to compare it.
theorem checkRoute_moved {r : Route} {port : Nat} (h : checkRoute settings r = .ok ()) (hPort : 1024 ≤ port)
    (hManaged : port ≠ settings.managementPort) : checkRoute settings { r with hostPort := port } = .ok () := by
  simp only [checkRoute, bind_eq_ok, exists_unit, refuse_eq_ok, Bool.or_eq_false_iff, decide_eq_false_iff_not,
    Nat.not_lt, beq_eq_false_iff_ne] at h ⊢
  exact ⟨⟨⟨h.1.1.1, hPort⟩, hManaged⟩, h.2⟩

def Route.binding (r : Route) : String := r.hostname ++ " " ++ r.pathPrefix

theorem checkRoutes_ok {routes : List Route} {bindings : List String}
    (hRoutes : ∀ r ∈ routes, checkRoute settings r = .ok ()) (hIDs : (routes.map (·.id)).Nodup)
    (hNew : ∀ r ∈ routes, r.id ∉ ids) (hBindings : (routes.map Route.binding).Nodup)
    (hFresh : ∀ r ∈ routes, Route.binding r ∉ bindings) : checkRoutes settings ids bindings routes = .ok () := by
  induction routes generalizing ids bindings with
  | nil => rfl
  | cons _ _ ih =>
    obtain ⟨hRoute, hRest⟩ := List.forall_mem_cons.mp hRoutes
    obtain ⟨hID, hNew⟩ := List.forall_mem_cons.mp hNew
    obtain ⟨hBinding, hFresh⟩ := List.forall_mem_cons.mp hFresh
    obtain ⟨hFirst, hIDs⟩ := List.nodup_cons.mp hIDs
    obtain ⟨hApart, hBindings⟩ := List.nodup_cons.mp hBindings
    simp only [checkRoutes, bind_eq_ok, exists_unit, refuse_eq_ok, Bool.or_eq_false_iff, List.contains_eq_mem,
      decide_eq_false_iff_not]
    refine ⟨hRoute, ⟨hID, hBinding⟩, ih hRest hIDs ?_ hBindings ?_⟩
    · intro t ht hMem
      cases List.mem_cons.mp hMem with
      | inl hEq => exact hFirst (List.mem_map.mpr ⟨t, ht, hEq⟩)
      | inr hMem => exact hNew t ht hMem
    · intro t ht hMem
      cases List.mem_cons.mp hMem with
      | inl hEq => exact hApart (List.mem_map.mpr ⟨t, ht, hEq⟩)
      | inr hMem => exact hFresh t ht hMem

-- Digests are thirty-two bytes in lower-case hexadecimal.
def HexDigest (digest : Digest) : Prop :=
  ∀ input, (digest input).utf8ByteSize = 64 ∧ lowerHex (digest input) = true

variable {digest : Digest} {email : EmailCheck} {i : Identity} {settings : Settings} {generation before : Nat}
  {routes : List Route}

def preparedPlan (digest : Digest) (i : Identity) (settings : Settings) (generation before : Nat)
    (routes : List Route) : Proxy.Plan :=
  ⟨i, settings, generation, before, routes, "", digest (.static i settings image), 1, none⟩

structure Placeable (email : EmailCheck) (i : Identity) (settings : Settings) : Prop where
  settings : validateSettings email settings = .ok ()
  ids : ∀ id ∈ [i.proxyID, i.serverID, i.destinationID, i.runnerID], idPattern id = true
  daemon : (i.daemonID == "" || i.daemonID.utf8ByteSize > 128 || containsAny i.daemonID ['\n', '\r', '\x00']) = false

theorem prepare_ok (hPlace : Placeable email i settings) (hGeneration : before < generation)
    (hLength : routes.length ≤ 1000) (hRoutes : checkRoutes settings [] [] routes = .ok ())
    (hSorted : routes.Pairwise (·.id ≤ ·.id)) :
    prepare digest email i settings generation before routes =
      .ok (rehash digest (preparedPlan digest i settings generation before routes)) := by
  have hGenerations : (generation == 0 || decide (generation ≤ before) || decide (routes.length > 1000)) = false := by
    simp only [Bool.or_eq_false_iff, beq_eq_false_iff_ne, decide_eq_false_iff_not]
    omega
  have hSort : (routes.insertionSort fun a b => a.id ≤ b.id) = routes := hSorted.insertionSort_eq
  simp only [prepare, bind_eq_ok, exists_unit, refuse_eq_ok, pure_eq_ok, forEach_eq_ok]
  refine ⟨hPlace.settings, fun id hID => ?_, hPlace.daemon, hGenerations, hRoutes, ?_⟩
  · rw [hPlace.ids id hID]
    rfl
  · rw [hSort]
    rfl

theorem checkSelected_ok {routeIDs : List String} (hIDs : ∀ id ∈ ids, id ∈ routeIDs)
    (hSorted : ids.Pairwise (· < ·)) {last : Option String} (hLast : ∀ id ∈ ids, last ≠ some id) :
    checkSelected routeIDs last ids = .ok () := by
  induction ids generalizing last with
  | nil => rfl
  | cons id _ ih =>
    obtain ⟨hFirst, hRest⟩ := List.pairwise_cons.mp hSorted
    obtain ⟨hID, hIDs⟩ := List.forall_mem_cons.mp hIDs
    simp only [checkSelected, bind_eq_ok, exists_unit, refuse_eq_ok, Bool.or_eq_false_iff, Bool.not_eq_false',
      List.contains_eq_mem, decide_eq_true_iff, beq_eq_false_iff_ne]
    refine ⟨⟨hID, hLast id List.mem_cons_self⟩, ih hIDs hRest fun next hNext hEq => ?_⟩
    exact (hFirst next hNext).ne (Option.some.inj hEq)

theorem prepareVerifiedSwitch_ok (hPlace : Placeable email i settings) (hGeneration : before < generation)
    (hBefore : 1 ≤ before) (hLength : routes.length ≤ 1000) (hRoutes : checkRoutes settings [] [] routes = .ok ())
    (hSorted : routes.Pairwise (·.id ≤ ·.id)) (hSome : ids ≠ []) (hIDs : ∀ id ∈ ids, id ∈ routes.map (·.id))
    (hOrder : ids.Pairwise (· < ·)) (hCount : ids.length ≤ routes.length) :
    prepareVerifiedSwitch digest email i settings generation before routes ids =
      .ok (rehash digest
        { preparedPlan digest i settings generation before routes with
          hash := rehashed digest (preparedPlan digest i settings generation before routes)
          verification := some ⟨1, ids⟩ }) := by
  have hSort : ids.insertionSort (· ≤ ·) = ids := (hOrder.imp fun h => h.le).insertionSort_eq
  have hScope : (before == 0 || ids.isEmpty || decide (ids.length > routes.length)) = false := by
    simp only [Bool.or_eq_false_iff, beq_eq_false_iff_ne, decide_eq_false_iff_not, List.isEmpty_eq_false_iff]
    exact ⟨⟨by omega, hSome⟩, by omega⟩
  simp only [prepareVerifiedSwitch, prepare_ok hPlace hGeneration hLength hRoutes hSorted, bind_eq_ok, exists_unit,
    refuse_eq_ok, pure_eq_ok, hSort, Except.ok.injEq]
  exact ⟨_, rfl, hScope, checkSelected_ok hIDs hOrder (by simp), rfl⟩

theorem searchStrings_eq {fuel low high : Nat} :
    searchStrings ids id fuel low high =
      Sorting.search (fun i => !decide (ids.getD i "" < id)) fuel low high := by
  induction fuel generalizing low high with
  | zero => rfl
  | succ _ ih =>
    simp only [searchStrings, Sorting.search, ih, Bool.not_eq_true', decide_eq_false_iff_not]
    by_cases hLess : ids.getD ((low + high) / 2) "" < id
    · rw [if_pos hLess, if_neg (not_not_intro hLess)]
    · rw [if_neg hLess, if_pos hLess]

theorem required_of_mem {p : Proxy.Plan} {policy : VerificationPolicy} (hPolicy : p.verification = some policy)
    (hSorted : policy.requiredRouteIDs.Pairwise (· < ·)) (hID : id ∈ policy.requiredRouteIDs) :
    p.required id = true := by
  obtain ⟨index, hIndex, rfl⟩ := List.getElem_of_mem hID
  have hOrder := List.pairwise_iff_getElem.mp hSorted
  have hFound : searchStrings policy.requiredRouteIDs policy.requiredRouteIDs[index]
      policy.requiredRouteIDs.length 0 policy.requiredRouteIDs.length = index := by
    rw [searchStrings_eq]
    refine Sorting.search_eq (Nat.le_refl _) (Nat.zero_le _) hIndex.le (fun k hk => ?_) fun k hk hLength => ?_
    · rw [List.getD_eq_getElem _ _ (hk.trans hIndex), decide_eq_true (hOrder k index _ hIndex hk)]
      rfl
    · rw [List.getD_eq_getElem _ _ hLength, Bool.not_eq_true', decide_eq_false_iff_not]
      cases Nat.eq_or_lt_of_le hk with
      | inl hEq =>
        subst hEq
        exact lt_irrefl _
      | inr hLess => exact not_lt_of_gt (hOrder index k hIndex hLength hLess)
  simp only [Proxy.Plan.required, hPolicy, hFound, List.getElem?_eq_getElem hIndex, beq_self_eq_true]

end Engine

section Agreement

open Proxy

variable {settings : Settings} {v : VerifiedSwitch}

structure Short (p : Plan) : Prop where
  placement : ∀ id ∈ [p.snapshot.proxyID, p.snapshot.serverID, p.snapshot.destinationID, p.snapshot.runnerID],
    id.length ≤ 80
  routes : ∀ r ∈ p.snapshot.targets, r.routeID.length ≤ 80

theorem priorRoutes_eq (hv : p.snapshot.verifiedSwitch = some v) :
    priorRoutes p.snapshot = p.snapshot.targets.map fun r => (priorTarget v r.routeID).getD r := by
  rw [priorRoutes, hv]

theorem priorRoutes_preceded (hCompiled : Compiled lib p) (hSelects : Selects p v)
    (hv : p.snapshot.verifiedSwitch = some v) :
    List.Forall₂ (Preceded v p.snapshot.configuration.managementPort) p.snapshot.targets
      (priorRoutes p.snapshot) := by
  rw [priorRoutes_eq hv, List.forall₂_map_right_iff, List.forall₂_same]
  intro r hr
  exact hSelects.preceded hCompiled hr

theorem placeable_of_compiled (hCompiled : Compiled lib p) (hShort : Short p) (hDaemon : p.daemonID ≠ "")
    (hSettings : validateSettings lib.email settings = .ok ()) :
    Placeable lib.email p.engineIdentity settings := by
  have hHeader := hCompiled.header
  simp only [checkHeader, bind_eq_ok, exists_unit, refuse_eq_ok, forEach_eq_ok, Bool.not_eq_false'] at hHeader
  obtain ⟨-, hIDs, hText⟩ := hHeader
  simp only [Bool.or_eq_false_iff, decide_eq_false_iff_not, List.any_eq_false, Bool.or_eq_true, not_or] at hText
  refine ⟨hSettings, fun id hID => idPattern_of_hostingProxyID (hIDs id hID) (hShort.placement id hID), ?_⟩
  simp only [Bool.or_eq_false_iff, beq_eq_false_iff_ne, decide_eq_false_iff_not, containsAny, List.any_eq_false]
  refine ⟨⟨hDaemon, hText.1⟩, fun c hc hContains => ?_⟩
  -- The three characters are control characters.
  refine (hText.2 c hc).1 ?_
  simp only [List.contains_eq_mem, decide_eq_true_iff, List.mem_cons, List.not_mem_nil, or_false] at hContains
  obtain rfl | rfl | rfl := hContains
  · rfl
  · rfl
  · rfl

theorem checkRoutes_targets (hCompiled : Compiled lib p) (hShort : Short p)
    (hPort : settings.managementPort = p.snapshot.configuration.managementPort) :
    checkRoutes settings [] [] (p.snapshot.targets.map RouteTarget.engineRoute) = .ok () := by
  refine checkRoutes_ok ?_ ?_ (fun _ _ => List.not_mem_nil) ?_ (fun _ _ => List.not_mem_nil)
  · rw [List.forall_mem_map]
    intro r hr
    exact checkRoute_engineRoute (hPort ▸ hCompiled.checked r hr) (hShort.routes r hr)
  · rw [List.map_map]
    exact List.pairwise_map.mpr (hCompiled.sorted.imp fun h => h.ne)
  · rw [List.map_map]
    exact hCompiled.bindings

theorem checkRoutes_prior (hCompiled : Compiled lib p) (hSelects : Selects p v) (hShort : Short p)
    (hPort : settings.managementPort = p.snapshot.configuration.managementPort)
    (hv : p.snapshot.verifiedSwitch = some v) :
    checkRoutes settings [] [] ((priorRoutes p.snapshot).map RouteTarget.engineRoute) = .ok () := by
  have hEngine : ∀ r ∈ p.snapshot.targets, ((priorTarget v r.routeID).getD r).engineRoute =
      { r.engineRoute with hostPort := ((priorTarget v r.routeID).getD r).hostPort } :=
    fun r hr => (hSelects.preceded hCompiled hr).engineRoute
  rw [priorRoutes_eq hv, List.map_map]
  refine checkRoutes_ok ?_ ?_ (fun _ _ => List.not_mem_nil) ?_ (fun _ _ => List.not_mem_nil)
  · rw [List.forall_mem_map]
    intro r hr
    have hRoute := checkRoute_engineRoute (hPort ▸ hCompiled.checked r hr) (hShort.routes r hr)
    rw [Function.comp_apply]
    obtain ⟨-, hSame⟩ | ⟨-, -, hUnprivileged, hUnmanaged⟩ := hSelects.preceded hCompiled hr
    · rw [hSame]
      exact hRoute
    · rw [hEngine r hr]
      exact checkRoute_moved hRoute hUnprivileged (hPort ▸ hUnmanaged)
  · have hIDs : (p.snapshot.targets.map (RouteTarget.engineRoute ∘ fun r => (priorTarget v r.routeID).getD r)).map
        (·.id) = p.snapshot.targets.map (·.routeID) := by
      rw [List.map_map]
      exact List.map_congr_left fun r hr => congrArg Route.id (hEngine r hr)
    rw [hIDs]
    exact List.pairwise_map.mpr (hCompiled.sorted.imp fun h => h.ne)
  · have hBindings : (p.snapshot.targets.map (RouteTarget.engineRoute ∘ fun r =>
        (priorTarget v r.routeID).getD r)).map Route.binding = p.snapshot.targets.map (·.binding) := by
      rw [List.map_map]
      exact List.map_congr_left fun r hr => congrArg Route.binding (hEngine r hr)
    rw [hBindings]
    exact hCompiled.bindings

theorem sameScope_prior {after : Proxy.Plan} (hCompiled : Compiled lib p) (hSelects : Selects p v)
    (hv : p.snapshot.verifiedSwitch = some v)
    (hRoutes : after.routes = p.snapshot.targets.map RouteTarget.engineRoute)
    (hPolicy : after.verification = some ⟨1, v.routeIDs⟩) :
    sameScope after ((priorRoutes p.snapshot).map RouteTarget.engineRoute) = true := by
  have hSorted : v.routeIDs.Pairwise (· < ·) := List.pairwise_map.mpr hSelects.sorted
  rw [priorRoutes_eq hv, List.map_map, sameScope, hRoutes, List.length_map, List.length_map, beq_self_eq_true,
    Bool.true_and, List.all_eq_true]
  intro pair hPair
  rw [List.zip_map', List.mem_map] at hPair
  obtain ⟨r, hr, rfl⟩ := hPair
  have hPreceded := hSelects.preceded hCompiled hr
  rw [beq_iff_eq, Function.comp_apply]
  by_cases hRequired : after.required r.engineRoute.id = true
  · rw [if_pos hRequired, hPreceded.engineRoute]
  · rw [if_neg hRequired]
    obtain ⟨-, hSame⟩ | ⟨hSelected, -⟩ := hPreceded
    · rw [hSame]
    · exact absurd (required_of_mem hPolicy hSorted hSelected) hRequired

theorem switchPredecessor_ok {before after : Proxy.Plan} {policy : VerificationPolicy}
    (hPolicy : after.verification = some policy)
    (hGeneration : before.generation = after.previous) (hLoaded : 1 ≤ after.previous)
    (hHash : before.hash.utf8ByteSize = 64 ∧ lowerHex before.hash = true)
    (hScope : sameScope after before.routes = true) :
    after.switchPredecessor (before.receipt .committed) false = .ok () := by
  have hLength : before.routes.length = after.routes.length := by
    simp only [sameScope, Bool.and_eq_true, beq_iff_eq] at hScope
    exact hScope.1
  unfold Proxy.Plan.switchPredecessor
  rw [hPolicy, Option.isNone_some, if_neg Bool.false_ne_true]
  simp only [bind_eq_ok, exists_unit, refuse_eq_ok, Proxy.Plan.receipt, hGeneration, hLength, hHash.1, hHash.2,
    hScope, bne_self_eq_false, Bool.not_true, Bool.or_false, Bool.false_or, beq_eq_false_iff_ne, and_true]
  omega

theorem engine_accepts {digest : Digest} (hHex : HexDigest digest) (hCompiled : Compiled lib p)
    (hSelects : Selects p v) (hv : p.snapshot.verifiedSwitch = some v) (hShort : Short p) (hDaemon : p.daemonID ≠ "")
    (hSettings : validateSettings lib.email settings = .ok ())
    (hPort : settings.managementPort = p.snapshot.configuration.managementPort) {earlier : Nat}
    (hEarlier : earlier < p.previousGeneration.toNat) :
    ∃ before after,
      prepare digest lib.email p.engineIdentity settings p.previousGeneration.toNat earlier
        ((priorRoutes p.snapshot).map RouteTarget.engineRoute) = .ok before ∧
      prepareVerifiedSwitch digest lib.email p.engineIdentity settings p.snapshot.generation.toNat
        p.previousGeneration.toNat (p.snapshot.targets.map RouteTarget.engineRoute) v.routeIDs = .ok after ∧
      after.switchPredecessor (before.receipt .committed) false = .ok () := by
  have hPlace : Placeable lib.email p.engineIdentity settings :=
    placeable_of_compiled hCompiled hShort hDaemon hSettings
  have hHeader := hCompiled.header
  simp only [checkHeader, bind_eq_ok, exists_unit, refuse_eq_ok, Bool.or_eq_false_iff, decide_eq_false_iff_not]
    at hHeader
  obtain ⟨⟨⟨⟨hNewer, -⟩, hMany⟩, -⟩, -⟩ := hHeader
  have hFew : p.snapshot.targets.length ≤ 32 := Nat.not_lt.mp hMany
  have hLoaded := hSelects.loaded
  have hSorted : (p.snapshot.targets.map RouteTarget.engineRoute).Pairwise (·.id ≤ ·.id) :=
    List.pairwise_map.mpr (hCompiled.sorted.imp fun h => le_of_lt h)
  have hSortedPrior : ((priorRoutes p.snapshot).map RouteTarget.engineRoute).Pairwise (·.id ≤ ·.id) := by
    rw [priorRoutes_eq hv, List.map_map, List.pairwise_map]
    refine hCompiled.sorted.imp_of_mem fun {a b} ha hb hLess => ?_
    rw [Function.comp_apply, Function.comp_apply, (hSelects.preceded hCompiled ha).engineRoute,
      (hSelects.preceded hCompiled hb).engineRoute]
    exact le_of_lt hLess
  have hPriorLength : (priorRoutes p.snapshot).length = p.snapshot.targets.length := by
    rw [priorRoutes_eq hv, List.length_map]
  have hMembers : ∀ id ∈ v.routeIDs, id ∈ (p.snapshot.targets.map RouteTarget.engineRoute).map (·.id) := by
    intro id hID
    obtain ⟨r, hr, rfl⟩ := List.mem_map.mp hID
    obtain ⟨candidate, hSelectable⟩ := hSelects.selectable r hr
    obtain ⟨hMem, hSame⟩ := lookupTarget_some hSelectable.found
    rw [List.map_map]
    exact List.mem_map.mpr ⟨candidate, hMem, hSame⟩
  refine ⟨_, _, prepare_ok hPlace hEarlier ?_ (checkRoutes_prior hCompiled hSelects hShort hPort hv) hSortedPrior,
    prepareVerifiedSwitch_ok hPlace ?_ ?_ ?_ (checkRoutes_targets hCompiled hShort hPort) hSorted ?_ hMembers
      (List.pairwise_map.mpr hSelects.sorted) ?_, ?_⟩
  · rw [List.length_map, hPriorLength]
    omega
  · omega
  · omega
  · rw [List.length_map]
    omega
  · exact fun hNil => hSelects.some_route (List.map_eq_nil_iff.mp hNil)
  · rw [VerifiedSwitch.routeIDs, List.length_map, List.length_map]
    exact hSelects.length_le
  · refine switchPredecessor_ok rfl rfl ?_ (hHex _) (sameScope_prior hCompiled hSelects hv rfl rfl)
    change 1 ≤ p.previousGeneration.toNat
    omega

theorem checkObservations_ok {targets : List RouteTarget} {selected seen : List String} {acceptedAt : Int}
    {observations : List RouteObservation}
    (h : checkObservations targets selected acceptedAt seen observations = .ok ()) :
    (∀ o ∈ observations, (∃ r ∈ targets, r.routeID = o.routeID ∧ r.hostname = o.certificate.hostname) ∧
      (o.routeID ∈ selected → o.trusted acceptedAt = true)) ∧
      (observations.map (·.routeID)).Nodup ∧ ∀ o ∈ observations, o.routeID ∉ seen := by
  induction observations generalizing seen with
  | nil => exact ⟨nofun, .nil, nofun⟩
  | cons _ _ ih =>
    rw [checkObservations] at h
    split at h
    · cases h
    · rename_i target hFound
      simp only [bind_eq_ok, exists_unit, refuse_eq_ok, Bool.or_eq_false_iff, List.contains_eq_mem,
        decide_eq_false_iff_not, bne_eq_false_iff_eq, Bool.and_eq_false_iff, Bool.not_eq_false'] at h
      obtain ⟨⟨hNew, hHost⟩, hTrusted, hRest⟩ := h
      obtain ⟨hEach, hNodup, hSeen⟩ := ih hRest
      obtain ⟨hMem, hID⟩ := lookupTarget_some hFound
      refine ⟨List.forall_mem_cons.mpr ⟨⟨⟨target, hMem, hID, hHost.symm⟩, ?_⟩, hEach⟩, ?_, ?_⟩
      · intro hSelected
        exact hTrusted.resolve_left (not_not_intro hSelected)
      · refine List.nodup_cons.mpr ⟨fun hMem => ?_, hNodup⟩
        obtain ⟨other, hOther, hSame⟩ := List.mem_map.mp hMem
        exact hSeen other hOther (hSame ▸ List.mem_cons_self)
      · refine List.forall_mem_cons.mpr ⟨hNew, fun other hOther hMem => ?_⟩
        exact hSeen other hOther (List.mem_cons_of_mem _ hMem)

-- As many observations as routes, each of a route and none twice: every route is named.
theorem result_complete {result : Result} {acceptedAt : Int} (hv : p.snapshot.verifiedSwitch = some v)
    (hOutcome : result.outcome = .applied ∨ result.outcome = .rolledBack)
    (h : validateVerifiedSwitchResult p result acceptedAt = .ok ()) :
    (result.routes.map fun o => (o.routeID, o.certificate.hostname)).Perm
        (p.snapshot.targets.map fun r => (r.routeID, r.hostname)) ∧
      ∀ o ∈ result.routes, o.routeID ∈ v.routeIDs → o.trusted acceptedAt = true := by
  have hRoutes : checkCompleteRoutes p v result acceptedAt = .ok () := by
    rw [validateVerifiedSwitchResult, hv] at h
    simp only [bind_eq_ok, exists_unit, refuse_eq_ok] at h
    obtain ⟨-, hMatch⟩ := h
    cases hOutcome with
    | inl hApplied =>
      rw [hApplied] at hMatch
      simp only [bind_eq_ok, exists_unit, refuse_eq_ok] at hMatch
      exact hMatch.2
    | inr hRolledBack =>
      rw [hRolledBack] at hMatch
      simp only [bind_eq_ok, exists_unit, refuse_eq_ok] at hMatch
      exact hMatch.2
  simp only [checkCompleteRoutes, bind_eq_ok, exists_unit, refuse_eq_ok, bne_eq_false_iff_eq] at hRoutes
  obtain ⟨hLength, hObservations⟩ := hRoutes
  obtain ⟨hEach, hNodup, -⟩ := checkObservations_ok hObservations
  refine ⟨?_, fun o ho => (hEach o ho).2⟩
  have hPairs : (result.routes.map fun o => (o.routeID, o.certificate.hostname)).Nodup := by
    refine List.Nodup.of_map Prod.fst ?_
    rw [List.map_map]
    exact hNodup
  refine (hPairs.subperm fun pair hPair => ?_).perm_of_length_le ?_
  · obtain ⟨o, ho, rfl⟩ := List.mem_map.mp hPair
    obtain ⟨⟨r, hr, hID, hHost⟩, -⟩ := hEach o ho
    exact List.mem_map.mpr ⟨r, hr, by rw [hID, hHost]⟩
  · rw [List.length_map, List.length_map, hLength]

-- The switch that the controller compiled is the switch that the agent carries out, and a settled result accounts for
-- every route, the selected ones with trusted HTTPS.
theorem verified_switch_agreement {digest : Digest} (hHex : HexDigest digest)
    (hCompile : compile lib choices s previous daemon = .ok p) (hv : p.snapshot.verifiedSwitch = some v)
    (hShort : Short p) (hDaemon : daemon ≠ "") (hSettings : validateSettings lib.email settings = .ok ())
    (hPort : settings.managementPort = p.snapshot.configuration.managementPort) :
    List.Forall₂ (fun r prior => (r.routeID ∈ v.routeIDs → r.moved prior = prior) ∧
        (r.routeID ∉ v.routeIDs → r = prior)) p.snapshot.targets (priorRoutes p.snapshot) ∧
    (∀ earlier < previous.toNat, ∃ before after,
      prepare digest lib.email p.engineIdentity settings previous.toNat earlier
        ((priorRoutes p.snapshot).map RouteTarget.engineRoute) = .ok before ∧
      prepareVerifiedSwitch digest lib.email p.engineIdentity settings p.snapshot.generation.toNat previous.toNat
        (p.snapshot.targets.map RouteTarget.engineRoute) v.routeIDs = .ok after ∧
      after.switchPredecessor (before.receipt .committed) false = .ok ()) ∧
    ∀ result acceptedAt, (result.outcome = .applied ∨ result.outcome = .rolledBack) →
      validateVerifiedSwitchResult p result acceptedAt = .ok () →
      (result.routes.map fun o => (o.routeID, o.certificate.hostname)).Perm
          (p.snapshot.targets.map fun r => (r.routeID, r.hostname)) ∧
        ∀ o ∈ result.routes, o.routeID ∈ v.routeIDs →
          o.httpReady = true ∧ o.httpsReady = true ∧ o.certificate.status = "trusted" ∧
            (acceptedAt ≠ 0 → acceptedAt < o.certificate.expiresAt) := by
  obtain ⟨-, hPrevious, hSame⟩ := compile_snapshot hCompile
  have hCompiled := compile_facts hCompile
  have hSelects := compile_selects hCompile hv
  refine ⟨?_, ?_, ?_⟩
  · refine (priorRoutes_preceded hCompiled hSelects hv).imp fun r prior hPreceded => ?_
    obtain ⟨hUnselected, rfl⟩ | ⟨hSelected, hMoved, -⟩ := hPreceded
    · exact ⟨fun hSelected => absurd hSelected hUnselected, fun _ => rfl⟩
    · exact ⟨fun _ => hMoved, fun hUnselected => absurd hSelected hUnselected⟩
  · intro earlier hEarlier
    rw [← hPrevious] at hEarlier ⊢
    exact engine_accepts hHex hCompiled hSelects hv hShort (hSame ▸ hDaemon) hSettings hPort hEarlier
  · intro result acceptedAt hOutcome hValid
    obtain ⟨hPerm, hTrusted⟩ := result_complete hv hOutcome hValid
    refine ⟨hPerm, fun o ho hSelected => ?_⟩
    have h := hTrusted o ho hSelected
    simp only [RouteObservation.trusted, Bool.and_eq_true, beq_iff_eq, Bool.or_eq_true, decide_eq_true_iff] at h
    obtain ⟨⟨⟨⟨⟨⟨hHTTP, hHTTPS⟩, hStatus⟩, -⟩, -⟩, -⟩, hExpires⟩ := h
    exact ⟨hHTTP, hHTTPS, hStatus, hExpires.resolve_left⟩

end Agreement

def constantLibrary : Library where
  lookup := some
  email _ := true
  planHash _ := "plan"
  routesHash _ := "routes"
  storageSwitchHash _ := "switch"
  encodedLength _ := 1024

def zeroDigest : Proxy.Digest := fun _ => String.ofList (List.replicate 64 '0')

def sampleSettings : Proxy.Settings :=
  ⟨"/srv/proxy", "/usr/bin/docker", "/var/run/docker.sock", "ops@example.org", .letsEncrypt, 9000⟩

-- The sample in order, sealed.
def samplePlan : Plan := sealed constantLibrary (sampleSnapshot sampleTargets.reverse) 1 "daemon"

theorem sample_agreement :
    compile constantLibrary .plain (sampleSnapshot sampleTargets) 1 "daemon" = .ok samplePlan ∧
      ∃ before after,
        Proxy.prepare zeroDigest constantLibrary.email samplePlan.engineIdentity sampleSettings 1 0
          ((priorRoutes samplePlan.snapshot).map RouteTarget.engineRoute) = .ok before ∧
        Proxy.prepareVerifiedSwitch zeroDigest constantLibrary.email samplePlan.engineIdentity sampleSettings 2 1
          (samplePlan.snapshot.targets.map RouteTarget.engineRoute) ["a"] = .ok after ∧
        after.switchPredecessor (before.receipt .committed) false = .ok () := by
  have hCompile : compile constantLibrary .plain (sampleSnapshot sampleTargets) 1 "daemon" = .ok samplePlan := rfl
  have hHex : HexDigest zeroDigest := by
    intro input
    constructor
    · rfl
    · change Proxy.lowerHex (String.ofList (List.replicate 64 '0')) = true
      decide
  refine ⟨hCompile, ?_⟩
  exact (verified_switch_agreement hHex hCompile rfl ⟨by decide, by decide⟩ (by decide) rfl rfl).2.1 0 Nat.one_pos

end NeroCD.HostingProxy
