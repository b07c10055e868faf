import Mathlib.Data.String.Basic
import NeroCD.HostingStack

-- Which stacks are admitted: the conditions on the dependencies that the recursive visit decides, for every order
-- in which the maps are walked.

namespace NeroCD.HostingStack

open NeroCD.Checks NeroCD.GoStrings NeroCD.Sorting Relation

variable {lib : Library} {settings : Option (Node → Except Error Build)} {source : Source} {services : List Service}
  {volumes : List String}

@[simp] theorem refuse_eq_ok (bad : Bool) (location reason : String) (u : Unit) :
    refuse bad location reason = .ok u ↔ bad = false := by
  unfold refuse
  cases bad <;> simp

section Names

theorem forM_eq_ok {α : Type} {f : α → Except Error Unit} {l : List α} :
    l.forM f = .ok () ↔ ∀ a ∈ l, f a = .ok () := by
  induction l with
  | nil => simp [pure, Except.pure]
  | cons a rest ih =>
    change (f a >>= fun _ => rest.forM f) = .ok () ↔ _
    rw [bind_eq_ok, exists_unit, ih, List.forall_mem_cons]

theorem checkKeys_nodup {location : String} {entries : List (Node × Node)} {seen : List String}
    (h : checkKeys location seen entries = .ok ()) :
    (entries.map (·.1.value)).Nodup ∧ ∀ entry ∈ entries, entry.1.value ∉ seen := by
  induction entries generalizing seen with
  | nil => exact ⟨.nil, nofun⟩
  | cons _ _ ih =>
    simp only [checkKeys, bind_eq_ok, exists_unit, refuse_eq_ok, Bool.or_eq_false_iff, List.contains_eq_mem,
      decide_eq_false_iff_not] at h
    obtain ⟨⟨-, hNew⟩, hRest⟩ := h
    obtain ⟨hNodup, hSeen⟩ := ih hRest
    refine ⟨List.nodup_cons.mpr ⟨fun hMem => ?_, hNodup⟩, List.forall_mem_cons.mpr ⟨hNew, fun other hOther hMem => ?_⟩⟩
    · obtain ⟨other, hOther, hSame⟩ := List.mem_map.mp hMem
      exact hSeen other hOther (hSame ▸ List.mem_cons_self)
    · exact hSeen other hOther (List.mem_cons_of_mem _ hMem)

theorem stackYAML_ok {location : String} {depth : Nat} {node : Node}
    (h : stackYAML location (depth + 1) node = .ok ()) :
    (node.kind = .mapping → (node.entries.map (·.1.value)).Nodup) ∧
      ∀ child ∈ node.content, stackYAML location depth child = .ok () := by
  rw [stackYAML, bind_eq_ok, exists_unit] at h
  obtain ⟨-, hRest⟩ := h
  split at hRest
  · rw [bind_eq_ok, exists_unit, forM_eq_ok] at hRest
    exact ⟨fun _ => (checkKeys_nodup hRest.1).1, hRest.2⟩
  · rename_i hKind
    exact ⟨fun hMapping => absurd hMapping hKind, forM_eq_ok.mp hRest⟩

theorem mem_content {content : List Node} {entry : Node × Node} (h : entry ∈ pairs content) :
    entry.2 ∈ content := by
  fun_induction pairs content with
  | case1 _ _ _ ih =>
    cases List.mem_cons.mp h with
    | inl hEq =>
      subst hEq
      exact List.mem_cons_of_mem _ List.mem_cons_self
    | inr hMem => exact List.mem_cons_of_mem _ (List.mem_cons_of_mem _ (ih hMem))
  | case2 => cases h

theorem mem_of_lookup {β : Type} {l : List (String × β)} {key : String} {value : β} (h : l.lookup key = some value) :
    (key, value) ∈ l := by
  induction l with
  | nil => cases h
  | cons entry _ ih =>
    obtain ⟨k, v⟩ := entry
    rw [List.lookup_cons] at h
    split at h
    · rename_i hKey
      cases h
      rw [eq_of_beq hKey]
      exact List.mem_cons_self
    · exact List.mem_cons_of_mem _ (ih h)

theorem parseStackService_name {name : String} {node : Node} {result : Service × List String}
    (h : parseStackService lib settings name node volumes = .ok result) : result.1.name = name := by
  simp only [parseStackService, bind_eq_ok, pure_eq_ok] at h
  obtain ⟨_, _, _, _, _, _, _, _, _, _, _, _, _, _, _, _, rfl⟩ := h
  rfl

theorem parseServices_names {node : Node} {result : List Service × List String}
    (h : parseServices lib settings node volumes = .ok result) :
    result.1.map (·.name) = node.entries.map (·.1.value) := by
  let P : List (Node × Node) → List Service × List String → Prop := fun done s =>
    s.1.map (·.name) = done.map (·.1.value)
  have hAll : P ([] ++ node.entries) result := by
    refine DepthFirst.foldlM_holds (P := P) ?_ h [] rfl
    rintro done ⟨key, value⟩ ⟨parsed, volumes⟩ s' hs hStep
    simp only [bind_eq_ok, exists_unit, refuse_eq_ok, pure_eq_ok] at hStep
    obtain ⟨-, ⟨service, volumes'⟩, hService, rfl⟩ := hStep
    have hName : service.name = key.value := parseStackService_name hService
    change (parsed ++ [service]).map (·.name) = (done ++ [(key, value)]).map (·.1.value)
    have hs : parsed.map (·.name) = done.map (·.1.value) := hs
    rw [List.map_append, List.map_append, hs, List.map_singleton, List.map_singleton, hName]
  exact hAll

theorem names_nodup (h : parseDocument lib settings source = .ok (services, volumes)) :
    (services.map (·.name)).Nodup := by
  simp only [parseDocument, bind_eq_ok, exists_unit, refuse_eq_ok] at h
  obtain ⟨-, h⟩ := h
  split at h
  · cases h
  · cases h
  · rename_i root _
    simp only [bind_eq_ok, exists_unit] at h
    obtain ⟨hYAML, top, hTop, h⟩ := h
    split at h
    · cases h
    · rename_i node hServices
      simp only [bind_eq_ok, exists_unit, refuse_eq_ok, Bool.or_eq_false_iff, bne_eq_false_iff_eq] at h
      obtain ⟨⟨⟨hMapping, -⟩, -⟩, _, -, hParsed⟩ := h
      simp only [stackFields, bind_eq_ok, exists_unit, pure_eq_ok] at hTop
      obtain ⟨-, -, rfl⟩ := hTop
      obtain ⟨⟨key, value⟩, hMem, hEntry⟩ := List.mem_map.mp (mem_of_lookup hServices)
      obtain rfl : value = node := congrArg Prod.snd hEntry
      have hNode := (stackYAML_ok hYAML).2 value (mem_content hMem)
      have hNames := parseServices_names hParsed
      rw [hNames]
      exact (stackYAML_ok hNode).1 hMapping

end Names

section Dependencies

variable {walks : Walks} {choices : Choices} {publicComponent : String}

def DependsOn (services : List Service) (a b : String) : Prop :=
  ∃ s ∈ services, s.name = a ∧ ∃ d ∈ s.dependsOn, d.1 = b

structure Admissible (publicComponent : String) (services : List Service) (volumes : List String) : Prop where
  few : volumes.length ≤ 32
  selected : ∃ s ∈ services, s.name = publicComponent
  known : ∀ s ∈ services, ∀ d ∈ s.dependsOn, ∃ t ∈ services, t.name = d.1
  acyclic : ∀ s ∈ services, ¬TransGen (DependsOn services) s.name s.name
  healthy : ∀ s ∈ services, ∀ d ∈ s.dependsOn, d.2 = .serviceHealthy →
    ∀ t ∈ services, t.name = d.1 → t.healthcheck.isSome = true
  running : ∀ s ∈ services, ∀ d ∈ s.dependsOn, d.1 = publicComponent → d.2 ≠ .serviceCompletedSuccessfully

theorem byName_eq_some (hNodup : (services.map (·.name)).Nodup) {name : String} {s : Service} :
    byName services name = some s ↔ s ∈ services ∧ s.name = name := by
  constructor
  · intro h
    exact ⟨List.mem_reverse.mp (List.mem_of_find?_eq_some h), by simpa using List.find?_some h⟩
  · rintro ⟨hMem, rfl⟩
    cases hFind : byName services s.name with
    | none =>
      have hNone := List.find?_eq_none.mp hFind s (List.mem_reverse.mpr hMem)
      exact absurd (beq_self_eq_true s.name) hNone
    | some t =>
      have hName : t.name = s.name := by simpa using List.find?_some hFind
      have ht : t ∈ services := List.mem_reverse.mp (List.mem_of_find?_eq_some hFind)
      exact congrArg some (List.inj_on_of_nodup_map hNodup ht hMem hName)

theorem mem_dependsOn (hNodup : (services.map (·.name)).Nodup) {s : Service} (hs : s ∈ services) :
    dependsOn services s.name = s.dependsOn := by
  rw [dependsOn, (byName_eq_some hNodup).mpr ⟨hs, rfl⟩]
  rfl

theorem mem_edges (hNodup : (services.map (·.name)).Nodup) {s : Service} (hs : s ∈ services)
    {d : String × Condition} :
    d ∈ (dependencyGraph walks publicComponent services).edges s.name ↔ d ∈ s.dependsOn := by
  change d ∈ walks.walk s.name (dependsOn services s.name) ↔ _
  rw [(walks.perm _ _).mem_iff, mem_dependsOn hNodup hs]

theorem checkDependency_eq_ok (hNodup : (services.map (·.name)).Nodup) {name : String} {d : String × Condition} :
    checkDependency publicComponent services name d = .ok () ↔
      (d.1 = publicComponent → d.2 ≠ .serviceCompletedSuccessfully) ∧ (∃ t ∈ services, t.name = d.1) ∧
        (d.2 = .serviceHealthy → ∀ t ∈ services, t.name = d.1 → t.healthcheck.isSome = true) := by
  simp only [checkDependency, bind_eq_ok, exists_unit, refuse_eq_ok, Bool.and_eq_false_imp, beq_iff_eq,
    beq_eq_false_iff_ne]
  refine and_congr_right fun _ => ?_
  cases hFind : byName services d.1 with
  | none =>
    have hNone : ¬∃ t ∈ services, t.name = d.1 := by
      rintro ⟨t, ht, hName⟩
      cases hFind.symm.trans ((byName_eq_some hNodup).mpr ⟨ht, hName⟩)
    simp [hNone]
  | some target =>
    obtain ⟨hMem, hName⟩ := (byName_eq_some hNodup).mp hFind
    simp only [refuse_eq_ok, Bool.and_eq_false_imp, beq_iff_eq, Option.isNone_eq_false_iff]
    constructor
    · intro h
      refine ⟨⟨target, hMem, hName⟩, fun hHealthy t ht hSame => ?_⟩
      obtain rfl : t = target := List.inj_on_of_nodup_map hNodup ht hMem (hSame.trans hName.symm)
      exact h hHealthy
    · intro h hHealthy
      exact h.2 hHealthy target hMem hName

theorem edge_iff (hNodup : (services.map (·.name)).Nodup) {a b : String} :
    (dependencyGraph walks publicComponent services).Edge a b ↔ DependsOn services a b := by
  constructor
  · rintro ⟨d, hd, rfl⟩
    have hd : d ∈ dependsOn services a := (walks.perm _ _).mem_iff.mp hd
    rw [dependsOn] at hd
    cases hFind : byName services a with
    | none =>
      rw [hFind] at hd
      cases hd
    | some s =>
      rw [hFind] at hd
      obtain ⟨hMem, hName⟩ := (byName_eq_some hNodup).mp hFind
      exact ⟨s, hMem, hName, d, hd, rfl⟩
  · rintro ⟨s, hs, rfl, d, hd, rfl⟩
    exact ⟨d, (mem_edges hNodup hs).mpr hd, rfl⟩

theorem target_mem (hNodup : (services.map (·.name)).Nodup) :
    ∀ n ∈ services.map (·.name), ∀ e ∈ (dependencyGraph walks publicComponent services).edges n,
      checkDependency publicComponent services n e = .ok () → e.1 ∈ services.map (·.name) := by
  intro n _ e _ hCheck
  obtain ⟨-, ⟨t, ht, hName⟩, -⟩ := (checkDependency_eq_ok hNodup).mp hCheck
  exact List.mem_map.mpr ⟨t, ht, hName⟩

theorem checkDependencies_eq_ok (hNodup : (services.map (·.name)).Nodup) :
    checkDependencies walks publicComponent services = .ok () ↔
      (∀ s ∈ services, ∀ d ∈ s.dependsOn, checkDependency publicComponent services s.name d = .ok ()) ∧
        ∀ s ∈ services, ¬TransGen (DependsOn services) s.name s.name := by
  have hFuel : (services.map (·.name)).length < services.length + 1 := by
    rw [List.length_map]
    exact Nat.lt_succ_self _
  have hEdge : (dependencyGraph walks publicComponent services).Edge = DependsOn services := by
    funext a b
    exact propext (edge_iff hNodup)
  have hAccepts := DepthFirst.visitAll_accepts (g := dependencyGraph walks publicComponent services)
    (target_mem hNodup) hFuel
  rw [hEdge, List.forall_mem_map, List.forall_mem_map] at hAccepts
  rw [checkDependencies, bind_eq_ok]
  simp only [pure_eq_ok, and_true]
  rw [hAccepts]
  refine and_congr_left fun _ => forall₂_congr fun s hs => ?_
  simp only [mem_edges hNodup hs]
  rfl

def sortedServices (choices : Choices) (services : List Service) : List Service :=
  choices.sort (fun a b => decide (a.name < b.name)) services

theorem byServiceName : ByKey (fun a b : Service => decide (a.name < b.name)) (·.name) :=
  fun _ _ => decide_eq_true_iff

theorem byText : ByKey (fun a b : String => decide (a < b)) id := fun _ _ => decide_eq_true_iff

theorem mem_sortedServices {s : Service} : s ∈ sortedServices choices services ↔ s ∈ services :=
  choices.mem_sort

theorem sortedServices_nodup (choices : Choices) (hNodup : (services.map (·.name)).Nodup) :
    ((sortedServices choices services).map (·.name)).Nodup :=
  ((choices.sort_perm _ services).map _).nodup_iff.mpr hNodup

-- The conditions speak of the services only as a set, so sorting does not change them.
theorem checkSorted_eq_ok (hNodup : (services.map (·.name)).Nodup) :
    checkDependencies walks publicComponent (sortedServices choices services) = .ok () ↔
      (∀ s ∈ services, ∀ d ∈ s.dependsOn,
        (d.1 = publicComponent → d.2 ≠ .serviceCompletedSuccessfully) ∧ (∃ t ∈ services, t.name = d.1) ∧
          (d.2 = .serviceHealthy → ∀ t ∈ services, t.name = d.1 → t.healthcheck.isSome = true)) ∧
        ∀ s ∈ services, ¬TransGen (DependsOn services) s.name s.name := by
  have hSorted := sortedServices_nodup choices hNodup
  have hDepends : DependsOn (sortedServices choices services) = DependsOn services := by
    funext a b
    simp only [DependsOn, mem_sortedServices]
  rw [checkDependencies_eq_ok hSorted, hDepends]
  simp only [checkDependency_eq_ok hSorted, mem_sortedServices]

def accepted (choices : Choices) (source : Source) (services : List Service) (volumes : List String) : Definition where
  version := stackVersion
  originalHash := "sha256:" ++ Sha256.hex (Sha256.sum256 (utf8 source.original))
  publicComponent := source.publicComponent
  containerPort := source.containerPort
  services := sortedServices choices services
  volumes := choices.sort (fun a b => decide (a < b)) (choices.walk volumes)

theorem parseHostingStack_eq_ok (h : parseDocument lib settings source = .ok (services, volumes)) {d : Definition} :
    parseHostingStack lib settings walks choices source = .ok d ↔
      Admissible source.publicComponent services volumes ∧ d = accepted choices source services volumes := by
  have hNodup := names_nodup h
  rw [parseHostingStack, h, ok_bind]
  change (refuse _ _ _ >>= fun _ => refuse _ _ _ >>= fun _ =>
    checkDependencies walks source.publicComponent (sortedServices choices services) >>= fun _ =>
      pure (accepted choices source services volumes)) = _ ↔ _
  simp only [bind_eq_ok, exists_unit, refuse_eq_ok, pure_eq_ok, checkSorted_eq_ok hNodup, decide_eq_false_iff_not,
    gt_iff_lt, Nat.not_lt, Bool.not_eq_false', List.any_eq_true, beq_iff_eq]
  constructor
  · rintro ⟨hFew, hSelected, ⟨hChecks, hAcyclic⟩, rfl⟩
    exact ⟨⟨hFew, hSelected, fun s hs d hd => (hChecks s hs d hd).2.1, hAcyclic,
      fun s hs d hd => (hChecks s hs d hd).2.2, fun s hs d hd => (hChecks s hs d hd).1⟩, rfl⟩
  · rintro ⟨hAdmissible, rfl⟩
    exact ⟨hAdmissible.few, hAdmissible.selected, ⟨fun s hs d hd => ⟨hAdmissible.running s hs d hd,
      hAdmissible.known s hs d hd, hAdmissible.healthy s hs d hd⟩, hAdmissible.acyclic⟩, rfl⟩

theorem accepted_eq (hNodup : (services.map (·.name)).Nodup) (choices other : Choices) :
    accepted choices source services volumes = accepted other source services volumes := by
  have hServices : sortedServices choices services = sortedServices other services :=
    choices.sort_congr other byServiceName (.refl _) fun _ ha _ hb => List.inj_on_of_nodup_map hNodup ha hb
  have hVolumes : choices.sort (fun a b => decide (a < b)) (choices.walk volumes) =
      other.sort (fun a b => decide (a < b)) (other.walk volumes) :=
    choices.sort_congr other byText ((choices.walk_perm _).trans (other.walk_perm _).symm) fun _ _ _ _ h => h
  rw [accepted, accepted, hServices, hVolumes]

end Dependencies

-- A source whose document and services parse is accepted exactly when its dependencies are admissible, and in one
-- result for every order of walking the maps and of sorting.
theorem dependency_admission (h : parseDocument lib settings source = .ok (services, volumes)) (walks : Walks)
    (choices : Choices) :
    ((∃ d, parseHostingStack lib settings walks choices source = .ok d) ↔
      Admissible source.publicComponent services volumes) ∧
    ∀ d, parseHostingStack lib settings walks choices source = .ok d →
      d.services.Perm services ∧ d.services.Pairwise (·.name < ·.name) ∧
        ∀ walks' choices', parseHostingStack lib settings walks' choices' source = .ok d := by
  have hNodup := names_nodup h
  simp only [parseHostingStack_eq_ok h]
  refine ⟨⟨fun ⟨_, hAdmissible, _⟩ => hAdmissible, fun hAdmissible => ⟨_, hAdmissible, rfl⟩⟩, ?_⟩
  rintro d ⟨hAdmissible, rfl⟩
  refine ⟨choices.sort_perm _ services, ?_, fun _ other => ⟨hAdmissible, accepted_eq hNodup choices other⟩⟩
  have hOrder : (sortedServices choices services).Pairwise (·.name ≤ ·.name) := choices.sort_sorted byServiceName _
  have hDistinct : (sortedServices choices services).Pairwise (·.name ≠ ·.name) :=
    List.pairwise_map.mp (sortedServices_nodup choices hNodup)
  exact (hOrder.and hDistinct).imp fun hPair => lt_of_le_of_ne hPair.1 hPair.2

section Sample

def textNode (text : String) : Node := .mk .scalar "!!str" text "" []

def mappingNode (entries : List (String × Node)) : Node :=
  .mk .mapping "!!map" "" "" (entries.flatMap fun (key, value) => [textNode key, value])

def sampleText : String :=
  "services:\n  web:\n    image: nginx\n    depends_on: [database]\n  database:\n    image: postgres\n"

def sampleDocument : Node :=
  mappingNode [("services", mappingNode
    [("web", mappingNode [("image", textNode "nginx"),
      ("depends_on", .mk .sequence "!!seq" "" "" [textNode "database"])]),
    ("database", mappingNode [("image", textNode "postgres")])])]

def sampleLibrary : Library where
  decode text := if text = sampleText then .single sampleDocument else .invalid
  normalizeImage image := some ("docker.io/library/" ++ image)
  parseDuration _ := none
  decodeInt _ := none

def sampleSource : Source := ⟨sampleText, "web", 8080⟩

def plainWalks : Walks := ⟨fun _ l => l, fun _ _ => .refl _⟩

theorem sample_admitted :
    ∃ services volumes, parseDocument sampleLibrary none sampleSource = .ok (services, volumes) ∧
      Admissible "web" services volumes := by
  have hParsed : (parseDocument sampleLibrary none sampleSource).isOk = true := by decide +kernel
  obtain ⟨⟨services, volumes⟩, h⟩ := ok_of_isOk hParsed
  refine ⟨services, volumes, h, (dependency_admission h plainWalks .plain).1.mp ?_⟩
  exact ok_of_isOk (by decide +kernel)

end Sample

end NeroCD.HostingStack
