import NeroCD.Proxy.Recovery
import Mathlib.Data.Finset.Max

-- The configuration of a plan as Traefik reads it: which route serves a request.

namespace NeroCD.Proxy

open NeroCD.Checks
open NeroCD.Traefik

variable {digest : Digest} {email : EmailCheck} {p : Plan}

def Route.Under (r : Route) (path : String) : Prop :=
  path = r.pathPrefix ∨ (r.pathPrefix ++ "/").toList <+: path.toList

def Route.Covers (r : Route) (request : Request) : Prop :=
  request.host = r.hostname ∧ (r.pathPrefix = "/" ∨ r.Under request.path)

instance (r : Route) (path : String) : Decidable (r.Under path) := inferInstanceAs (Decidable (_ ∨ _))

instance (r : Route) (request : Request) : Decidable (r.Covers request) := inferInstanceAs (Decidable (_ ∧ _))

section Checked

structure Route.Plain (r : Route) : Prop where
  hostname : '\x60' ∉ r.hostname.toList
  path : '\x60' ∉ r.pathPrefix.toList
  rooted : ∃ rest, r.pathPrefix.toList = '/' :: rest

theorem mem_splitOn {c sep : Char} {text : List Char} (hc : c ∈ text) (hSep : c ≠ sep) :
    ∃ part ∈ text.splitOn sep, c ∈ part := by
  induction text with
  | nil => cases hc
  | cons x rest ih =>
    rw [List.splitOn, List.splitOnP_cons_eq_if_modifyHead]
    split
    · rename_i hx
      obtain rfl | hRest := List.mem_cons.mp hc
      · exact absurd (by simpa using hx) hSep
      · obtain ⟨part, hPart, hMem⟩ := ih hRest
        exact ⟨part, List.mem_cons_of_mem _ hPart, hMem⟩
    · obtain ⟨first, parts, hParts⟩ := List.exists_cons_of_ne_nil (List.splitOnP_ne_nil (· == sep) rest)
      simp only [List.splitOn, hParts] at ih
      rw [hParts, List.modifyHead_cons]
      obtain rfl | hRest := List.mem_cons.mp hc
      · exact ⟨_, List.mem_cons_self, List.mem_cons_self⟩
      · obtain ⟨part, hPart, hMem⟩ := ih hRest
        obtain rfl | hLater := List.mem_cons.mp hPart
        · exact ⟨_, List.mem_cons_self, List.mem_cons_of_mem _ hMem⟩
        · exact ⟨part, List.mem_cons_of_mem _ hLater, hMem⟩

theorem hostPattern_plain {text : String} (h : hostPattern text = true) : '\x60' ∉ text.toList := by
  intro hMem
  simp only [hostPattern, Bool.and_eq_true, List.all_eq_true] at h
  obtain ⟨label, hLabel, hChar⟩ := mem_splitOn hMem (show '\x60' ≠ '.' by decide)
  have hLabel := h.2 label hLabel
  simp only [hostLabel, Bool.and_eq_true, List.all_eq_true] at hLabel
  exact absurd (hLabel.2 _ hChar) (by decide)

theorem pathPattern_plain {text : String} (h : pathPattern text = true) :
    '\x60' ∉ text.toList ∧ ∃ rest, text.toList = '/' :: rest := by
  unfold pathPattern at h
  split at h
  · rename_i rest hText
    refine ⟨fun hMem => ?_, rest, hText⟩
    rw [hText] at hMem
    obtain hHead | hRest := List.mem_cons.mp hMem
    · exact absurd hHead (by decide)
    · exact absurd (List.all_eq_true.mp h _ hRest) (by decide)
  · cases h

variable {s : Settings} {routes : List Route}

theorem checkRoute_plain {r : Route} (h : checkRoute s r = .ok ()) : r.Plain := by
  simp only [checkRoute, bind_eq_ok, exists_unit, refuse_eq_ok, Bool.or_eq_false_iff, Bool.not_eq_false'] at h
  obtain ⟨hIdentity, hPath, -⟩ := h
  obtain ⟨hFree, hRooted⟩ := pathPattern_plain hPath.1.1.1.2
  exact ⟨hostPattern_plain hIdentity.1.1.1.2, hFree, hRooted⟩

structure Routable (routes : List Route) : Prop where
  plain : ∀ r ∈ routes, r.Plain
  ids : (routes.map (·.id)).Nodup
  bindings : (routes.map fun r => (r.hostname, r.pathPrefix)).Nodup

theorem checkRoutes_routable {ids bindings : List String} (h : checkRoutes s ids bindings routes = .ok ()) :
    Routable routes ∧ (∀ r ∈ routes, r.id ∉ ids) ∧
      ∀ r ∈ routes, r.hostname ++ " " ++ r.pathPrefix ∉ bindings := by
  induction routes generalizing ids bindings with
  | nil => exact ⟨⟨nofun, .nil, .nil⟩, nofun, nofun⟩
  | cons _ _ ih =>
    simp only [checkRoutes, bind_eq_ok, exists_unit, refuse_eq_ok, Bool.or_eq_false_iff,
      List.contains_eq_mem, decide_eq_false_iff_not] at h
    obtain ⟨hRoute, ⟨hId, hBinding⟩, hRest⟩ := h
    obtain ⟨hRoutable, hIds, hBindings⟩ := ih hRest
    refine ⟨⟨?_, ?_, ?_⟩, ?_, ?_⟩
    · exact List.forall_mem_cons.mpr ⟨checkRoute_plain hRoute, hRoutable.plain⟩
    · refine List.nodup_cons.mpr ⟨fun hMem => ?_, hRoutable.ids⟩
      obtain ⟨other, hOther, hSame⟩ := List.mem_map.mp hMem
      exact hIds other hOther (hSame ▸ List.mem_cons_self)
    · refine List.nodup_cons.mpr ⟨fun hMem => ?_, hRoutable.bindings⟩
      obtain ⟨other, hOther, hSame⟩ := List.mem_map.mp hMem
      obtain ⟨hHost, hPath⟩ := Prod.mk.inj hSame
      refine hBindings other hOther ?_
      rw [hHost, hPath]
      exact List.mem_cons_self
    · refine List.forall_mem_cons.mpr ⟨hId, fun other hOther hMem => ?_⟩
      exact hIds other hOther (List.mem_cons_of_mem _ hMem)
    · refine List.forall_mem_cons.mpr ⟨hBinding, fun other hOther hMem => ?_⟩
      exact hBindings other hOther (List.mem_cons_of_mem _ hMem)

theorem Routable.perm {sorted : List Route} (hPerm : sorted.Perm routes) (h : Routable routes) : Routable sorted :=
  ⟨fun r hr => h.plain r (hPerm.subset hr), (hPerm.map _).nodup_iff.mpr h.ids,
    (hPerm.map _).nodup_iff.mpr h.bindings⟩

theorem prepare_routable {i : Identity} {generation previous : Nat}
    (h : prepare digest email i s generation previous routes = .ok p) : Routable p.routes := by
  simp only [prepare, bind_eq_ok, exists_unit, refuse_eq_ok, pure_eq_ok] at h
  obtain ⟨-, -, -, -, hRoutes, rfl⟩ := h
  exact (checkRoutes_routable hRoutes).1.perm (List.perm_insertionSort _ _)

theorem Prepared.routable (h : Prepared digest email p) : Routable p.routes := by
  induction h with
  | plain h => exact prepare_routable h
  | verified h =>
    simp only [prepareVerifiedSwitch, bind_eq_ok, exists_unit, refuse_eq_ok, pure_eq_ok] at h
    obtain ⟨q, hq, -, -, rfl⟩ := h
    exact (prepare_routable hq : Routable q.routes)
  | @recorded p _ _ _ h ih =>
    simp only [matchRecordedHash, bind_eq_ok, exists_unit, refuse_eq_ok] at h
    split at h
    · simp only [pure_eq_ok] at h
      exact h.2 ▸ ih
    · simp only [bind_eq_ok, exists_unit, refuse_eq_ok, pure_eq_ok] at h
      obtain ⟨-, -, rfl⟩ := h
      exact (ih : Routable p.routes)

end Checked

section Rules

theorem rule_root {r : Route} (h : r.pathPrefix = "/") :
    r.rule.toList = "Host(`".toList ++ (r.hostname.toList ++ "`)".toList ++ []) := by
  simp [Route.rule, h]

theorem rule_below {r : Route} (h : r.pathPrefix ≠ "/") :
    r.rule.toList = "Host(`".toList ++ (r.hostname.toList ++ "`)".toList ++ (" && ".toList ++ ("(".toList ++
      ("Path(`".toList ++ (r.pathPrefix.toList ++ "`)".toList ++ (" || ".toList ++
        ("PathPrefix(`".toList ++ ((r.pathPrefix ++ "/").toList ++ "`)".toList ++ (")".toList ++ [])))))))))  := by
  simp [Route.rule, h]

theorem rule_accepts {r : Route} (hr : r.Plain) (request : Request) :
    accepts r.rule.toList request = true ↔ r.Covers request := by
  by_cases hRoot : r.pathPrefix = "/"
  · have hReads : Reads r.rule.toList [.host r.hostname.toList] := by
      rw [rule_root hRoot]
      exact .next (nextToken_host hr.hostname _) (by simp) .done
    simp [hReads.accepts, evaluate, Route.Covers, hRoot, String.toList_inj]
  · have hPath : '\x60' ∉ (r.pathPrefix ++ "/").toList := by
      simp [hr.path]
    have hReads : Reads r.rule.toList [.host r.hostname.toList, .both, .opening, .path r.pathPrefix.toList, .either,
        .pathPrefix (r.pathPrefix ++ "/").toList, .closing] := by
      rw [rule_below hRoot]
      refine .next (nextToken_host hr.hostname _) (by simp; omega) ?_
      refine .next (nextToken_both _) (by simp) (.next (nextToken_opening _) (by simp) ?_)
      refine .next (nextToken_path hr.path _) (by simp; omega) (.next (nextToken_either _) (by simp) ?_)
      exact .next (nextToken_pathPrefix hPath _) (by simp) (.next (nextToken_closing _) (by simp) .done)
    simp [hReads.accepts, evaluate, Route.Covers, Route.Under, hRoot, String.toList_inj]

end Rules

section Names

def suffix (secure : Bool) : String := if secure then "-https" else "-http"

theorem routeName_inj {r r' : Route} (h : p.routeName r = p.routeName r') : r.id = r'.id := by
  simpa [Plan.routeName, String.ext_iff] using h

theorem suffix_inj {name name' : String} {secure secure' : Bool} (h : name ++ suffix secure = name' ++ suffix secure') :
    name = name' ∧ secure = secure' := by
  -- The last letter tells the two suffixes apart.
  have hSecure : secure = secure' := by
    have hLast := congrArg (fun text : String => text.toList.getLast?) h
    cases secure <;> cases secure' <;> simp [suffix] at hLast ⊢
  subst hSecure
  exact ⟨by simpa [String.ext_iff] using h, rfl⟩

theorem generation_ne (name : String) (secure : Bool) : p.marker ++ "-generation" ≠ name ++ suffix secure := by
  intro h
  have hLast := congrArg (fun text : String => text.toList.getLast?) h
  cases secure <;> simp [suffix] at hLast

theorem marker_ne (r : Route) : p.marker ≠ p.routeName r := by
  intro h
  have hLength := congrArg (fun text : String => text.toList.length) h
  simp only [Plan.routeName, String.toList_append, List.length_append, show "-".toList.length = 1 from rfl] at hLength
  omega

theorem routers_names (p : Plan) : names p.dynamic "routers" =
    (p.marker ++ "-generation") ::
      p.routes.flatMap fun r => [p.routeName r ++ suffix false, p.routeName r ++ suffix true] := by
  show p.routers.map Prod.fst = _
  simp only [Plan.routers, List.map_cons, List.map_flatMap]
  rfl

theorem services_names (p : Plan) : names p.dynamic "services" = p.routes.map p.routeName := by
  cases hRoutes : p.routes with
  | nil => simp [names, members, Plan.dynamic, Json.get, Json.memberOf, Json.members, hRoutes, List.lookup_cons]
  | cons _ _ =>
    simp [names, members, Plan.dynamic, Json.get, Json.memberOf, Json.members, hRoutes, Plan.service,
      List.lookup_cons]

theorem middlewares_names (p : Plan) : names p.dynamic "middlewares" = p.marker :: p.routes.map p.routeName := by
  show p.middlewares.map Prod.fst = _
  simp only [Plan.middlewares, List.map_cons, List.map_map]
  rfl

theorem routeNames_nodup (h : Routable p.routes) : (p.routes.map p.routeName).Nodup := by
  have hIds : p.routes.Pairwise (·.id ≠ ·.id) := List.pairwise_map.mp h.ids
  exact List.pairwise_map.mpr (hIds.imp fun hId hName => hId (routeName_inj hName))

theorem routers_nodup (h : Routable p.routes) : (names p.dynamic "routers").Nodup := by
  rw [routers_names]
  refine List.nodup_cons.mpr ⟨fun hMem => ?_, List.nodup_flatMap.mpr ⟨fun r _ => ?_, ?_⟩⟩
  · obtain ⟨r, -, hName⟩ := List.mem_flatMap.mp hMem
    simp only [List.mem_cons, List.not_mem_nil, or_false] at hName
    obtain hName | hName := hName
    · exact generation_ne _ _ hName
    · exact generation_ne _ _ hName
  · simp only [List.nodup_cons, List.mem_singleton, List.not_mem_nil, not_false_eq_true, List.nodup_nil, and_true]
    exact fun hName => absurd (suffix_inj hName).2 (by decide)
  · have hNames : p.routes.Pairwise (p.routeName · ≠ p.routeName ·) := List.pairwise_map.mp (routeNames_nodup h)
    refine hNames.imp fun {r r'} hName name hMem hMem' => ?_
    simp only [List.mem_cons, List.not_mem_nil, or_false] at hMem hMem'
    obtain rfl | rfl := hMem
    · obtain hEq | hEq := hMem'
      · exact hName (suffix_inj hEq).1
      · exact hName (suffix_inj hEq).1
    · obtain hEq | hEq := hMem'
      · exact hName (suffix_inj hEq).1
      · exact hName (suffix_inj hEq).1

theorem middlewares_nodup (h : Routable p.routes) : (names p.dynamic "middlewares").Nodup := by
  rw [middlewares_names]
  refine List.nodup_cons.mpr ⟨fun hMem => ?_, routeNames_nodup h⟩
  obtain ⟨r, -, hName⟩ := List.mem_map.mp hMem
  exact marker_ne r hName.symm

end Names

section Winners

def entryPoint (secure : Bool) : String := if secure then "websecure" else "web"

def Plan.routerOf (p : Plan) (r : Route) (secure : Bool) : Router where
  name := p.routeName r ++ suffix secure
  rule := r.rule
  entryPoints := [entryPoint secure]
  service := p.routeName r
  priority := 100 + r.pathPrefix.length

theorem readRouter_router (p : Plan) (r : Route) (secure : Bool) :
    readRouter (p.router r secure) = some (p.routerOf r secure) := by
  cases secure with
  | false => rfl
  | true => rfl

variable {r : Route} {request : Request}

theorem serves_iff (hr : r.Plain) {secure secure' : Bool} :
    (p.routerOf r secure').serves (entryPoint secure) request = true ↔ secure' = secure ∧ r.Covers request := by
  rw [Router.serves, Bool.and_eq_true, Plan.routerOf, rule_accepts hr]
  cases secure <;> cases secure' <;> simp [entryPoint]

theorem mem_matching (h : Routable p.routes) {secure : Bool} {router : Router} :
    router ∈ matching p.dynamic (entryPoint secure) request ↔
      ∃ r ∈ p.routes, r.Covers request ∧ router = p.routerOf r secure := by
  have hMembers : members p.dynamic "routers" = p.routers := rfl
  simp only [matching, routers, hMembers, List.mem_filter, List.mem_filterMap, Plan.routers, List.mem_cons,
    List.mem_flatMap, List.not_mem_nil, or_false]
  constructor
  · rintro ⟨⟨member, rfl | ⟨r, hr, hMember⟩, hRead⟩, hServes⟩
    · -- The router of the generation marker has an entry point of its own.
      obtain rfl := Option.some.inj hRead
      cases secure <;> simp [Router.serves, entryPoint] at hServes
    · obtain ⟨secure', rfl⟩ : ∃ secure', member = p.router r secure' := by
        obtain rfl | rfl := hMember
        · exact ⟨false, rfl⟩
        · exact ⟨true, rfl⟩
      obtain rfl := Option.some.inj ((readRouter_router p r secure').symm.trans hRead)
      obtain ⟨rfl, hCovers⟩ := (serves_iff (h.plain r hr)).mp hServes
      exact ⟨r, hr, hCovers, rfl⟩
  · rintro ⟨r, hr, hCovers, rfl⟩
    refine ⟨⟨p.router r secure, .inr ⟨r, hr, ?_⟩, readRouter_router p r secure⟩,
      (serves_iff (h.plain r hr)).mpr ⟨rfl, hCovers⟩⟩
    cases secure with
    | false => exact .inl rfl
    | true => exact .inr rfl

theorem Route.Covers.isPrefix (h : r.Covers request) (hRoot : r.pathPrefix ≠ "/") :
    r.pathPrefix.toList <+: request.path.toList := by
  obtain hPath | hUnder := h.2.resolve_left hRoot
  · rw [hPath]
  · rw [String.toList_append] at hUnder
    exact (List.prefix_append _ _).trans hUnder

theorem Route.Plain.root_of_length (hr : r.Plain) (h : r.pathPrefix.length ≤ 1) : r.pathPrefix = "/" := by
  obtain ⟨rest, hRest⟩ := hr.rooted
  rw [← String.length_toList, hRest, List.length_cons] at h
  obtain rfl : rest = [] := List.eq_nil_of_length_eq_zero (by omega)
  exact String.toList_inj.mp hRest

theorem covers_length (h : Routable p.routes) {r' : Route} (hr : r ∈ p.routes) (hr' : r' ∈ p.routes)
    (hCovers : r.Covers request) (hCovers' : r'.Covers request)
    (hLength : r.pathPrefix.length = r'.pathPrefix.length) : r = r' := by
  have hPath : r.pathPrefix = r'.pathPrefix := by
    by_cases hRoot : r.pathPrefix = "/"
    · rw [hRoot] at hLength ⊢
      exact ((h.plain r' hr').root_of_length (Nat.le_of_eq hLength.symm)).symm
    · by_cases hRoot' : r'.pathPrefix = "/"
      · rw [hRoot'] at hLength
        exact absurd ((h.plain r hr).root_of_length (Nat.le_of_eq hLength)) hRoot
      · rw [← String.length_toList, ← String.length_toList] at hLength
        exact String.toList_inj.mp ((List.prefix_of_prefix_length_le (hCovers.isPrefix hRoot)
          (hCovers'.isPrefix hRoot') (Nat.le_of_eq hLength)).eq_of_length hLength)
  refine List.inj_on_of_nodup_map h.bindings hr hr' ?_
  rw [Prod.mk.injEq]
  exact ⟨hCovers.1.symm.trans hCovers'.1, hPath⟩

def Plan.Longest (p : Plan) (request : Request) (r : Route) : Prop :=
  r ∈ p.routes ∧ r.Covers request ∧
    ∀ r' ∈ p.routes, r'.Covers request → r' ≠ r → r'.pathPrefix.length < r.pathPrefix.length

theorem exists_longest (h : Routable p.routes) (hSome : ∃ r ∈ p.routes, r.Covers request) :
    ∃ r, p.Longest request r := by
  obtain ⟨found, hMem, hCovers⟩ := hSome
  obtain ⟨r, hr, hMax⟩ := (p.routes.filter fun r : Route => decide (r.Covers request)).toFinset.exists_max_image
    (·.pathPrefix.length) ⟨found, by simp [hMem, hCovers]⟩
  simp only [List.mem_toFinset, List.mem_filter, decide_eq_true_eq] at hr hMax
  refine ⟨r, hr.1, hr.2, fun r' hr' hCovers' hNe => lt_of_le_of_ne (hMax r' ⟨hr', hCovers'⟩) fun hLength => ?_⟩
  exact hNe (covers_length h hr' hr.1 hCovers' hr.2 hLength)

end Winners

-- The names of the configuration are distinct, and on each of the two entry points the matching router of the
-- highest priority is that of the route with the longest path; without such a route no router matches.
theorem longest_path_wins (digest : Digest) (email : EmailCheck) (p : Plan) (hPlan : Prepared digest email p)
    (secure : Bool) (request : Request) :
    (names p.dynamic "routers").Nodup ∧ (names p.dynamic "services").Nodup ∧
    (names p.dynamic "middlewares").Nodup ∧
    ((∃ r router, p.Longest request r ∧ router ∈ matching p.dynamic (entryPoint secure) request ∧
        router.name = p.routeName r ++ suffix secure ∧ router.service = p.routeName r ∧
        ∀ other ∈ matching p.dynamic (entryPoint secure) request, other ≠ router →
          other.priority < router.priority) ∨
      ((∀ r ∈ p.routes, ¬r.Covers request) ∧ matching p.dynamic (entryPoint secure) request = [])) := by
  have hRoutes := hPlan.routable
  refine ⟨routers_nodup hRoutes, services_names p ▸ routeNames_nodup hRoutes, middlewares_nodup hRoutes, ?_⟩
  by_cases hSome : ∃ r ∈ p.routes, r.Covers request
  · obtain ⟨r, hr, hCovers, hShorter⟩ := exists_longest hRoutes hSome
    refine .inl ⟨r, p.routerOf r secure, ⟨hr, hCovers, hShorter⟩,
      (mem_matching hRoutes).mpr ⟨r, hr, hCovers, rfl⟩, rfl, rfl, ?_⟩
    intro other hOther hNe
    obtain ⟨r', hr', hCovers', rfl⟩ := (mem_matching hRoutes).mp hOther
    have hLength := hShorter r' hr' hCovers' fun hEq => hNe (hEq ▸ rfl)
    simp only [Plan.routerOf]
    omega
  · refine .inr ⟨fun r hr hCovers => hSome ⟨r, hr, hCovers⟩, List.eq_nil_iff_forall_not_mem.mpr fun router hMem => ?_⟩
    obtain ⟨r, hr, hCovers, -⟩ := (mem_matching hRoutes).mp hMem
    exact hSome ⟨r, hr, hCovers⟩

theorem priorPlan_prepared : Prepared hexDigest sampleEmail priorPlan :=
  .plain (getD_prepared (by decide +kernel))

-- The root path serves `/about`, although no path of the plan equals it or is followed in it by a slash; and a service
-- has the name of a middleware.
theorem root_route_matches :
    Prepared hexDigest sampleEmail priorPlan ∧ (∀ r ∈ priorPlan.routes, ¬r.Under "/about") ∧
      matching priorPlan.dynamic "web" ⟨"example.com", "/about"⟩ ≠ [] ∧
      ∃ name ∈ names priorPlan.dynamic "services", name ∈ names priorPlan.dynamic "middlewares" :=
  ⟨priorPlan_prepared, by decide +kernel, by decide +kernel, by decide +kernel⟩

theorem root_route_wins :
    ∃ r router, priorPlan.Longest ⟨"example.com", "/about"⟩ r ∧
      router ∈ matching priorPlan.dynamic "web" ⟨"example.com", "/about"⟩ ∧ router.service = priorPlan.routeName r := by
  obtain ⟨-, -, -, ⟨r, router, hLongest, hRouter, -, hService, -⟩ | ⟨hNone, -⟩⟩ :=
    longest_path_wins hexDigest sampleEmail priorPlan priorPlan_prepared false ⟨"example.com", "/about"⟩
  · exact ⟨r, router, hLongest, hRouter, hService⟩
  · exact absurd hNone (by decide +kernel)

end NeroCD.Proxy
