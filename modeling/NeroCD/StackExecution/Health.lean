import NeroCD.HostingStack.Admission
import NeroCD.StackExecution

-- What the check of an observed state establishes about the whole stack.

namespace NeroCD.StackExecution

open NeroCD.Checks
open NeroCD.HostingStack (Condition Definition Service)

section Specification

def Awaited (definition : Definition) (name : String) : Prop :=
  ∃ consumer ∈ definition.services, consumer.dependsOn.lookup name = some .serviceCompletedSuccessfully

def AwaitedByOther (definition : Definition) (name : String) : Prop :=
  ∃ consumer ∈ definition.services, consumer.name ≠ name ∧
    consumer.dependsOn.lookup name = some .serviceCompletedSuccessfully

def Outcome (awaited : String → Prop) (service : Service) (c : Component) : Prop :=
  (awaited service.name → c.running = false ∧ c.exitCode = 0) ∧
    (¬awaited service.name → c.running = true ∧ (service.healthcheck.isSome = true → c.health = .healthy))

structure VolumeMatches (observed planned : Volume) : Prop where
  name : observed.name = planned.name
  volumeName : observed.volumeName = planned.volumeName
  operation : observed.creationOperationID = planned.creationOperationID
  nonce : observed.creationNonce = planned.creationNonce
  created : planned.createdAt ≠ "" → observed.createdAt = planned.createdAt
  known : observed.createdAt ≠ ""

structure WholeStack (awaited : String → Prop) (stack : StackPlan) (operation : String) (state : State) : Prop where
  only : ∀ c ∈ state.components, ∃ service ∈ stack.definition.services, service.name = c.component
  each : ∀ service ∈ stack.definition.services, ∃ c image,
    state.components.filter (·.component == service.name) = [c] ∧
      stack.images.filter (·.component == service.name) = [image] ∧ c.imageID = image.release.imageID ∧
        c.operationID = operation ∧ Outcome awaited service c
  volumes : List.Forall₂ VolumeMatches state.volumes stack.volumes

end Specification

section Compiled

variable {evidence : Evidence} {definition : Definition} {daemon : String}

theorem checkImages_ok {images : List StackImage} {services : List Service} {last : Option String}
    (hLength : images.length = services.length)
    (h : checkImages evidence definition daemon last images services = .ok ()) :
    images.map (·.component) = services.map (·.name) ∧
      (last.toList ++ images.map (·.component)).IsChain (· < ·) := by
  induction images generalizing services last with
  | nil =>
    cases services with
    | nil => cases last <;> simp
    | cons _ _ => cases hLength
  | cons _ _ ih =>
    cases services with
    | nil => cases hLength
    | cons _ _ =>
      simp only [checkImages, bind_eq_ok, exists_unit, refuse_eq_ok, Bool.or_eq_false_iff,
        bne_eq_false_iff_eq] at h
      obtain ⟨⟨⟨⟨⟨hName, hLast⟩, -⟩, -⟩, -⟩, -, hRest⟩ := h
      obtain ⟨hNames, hChain⟩ := ih (Nat.succ.inj hLength) hRest
      refine ⟨by rw [List.map_cons, List.map_cons, hName, hNames], ?_⟩
      cases last with
      | none => exact hChain
      | some _ =>
        refine List.isChain_cons_cons.mpr ⟨?_, hChain⟩
        simpa using hLast

theorem compiled_images {snapshot : Snapshot} {release : Release} {previous : Option Healthy} {stack : StackPlan}
    {stopped : List (Option Stopped)} {plan : ApplyPlan}
    (h : compileStackPlan evidence snapshot release previous stack stopped = .ok plan) :
    plan.stack = some stack ∧ stack.images.map (·.component) = stack.definition.services.map (·.name) ∧
      (stack.images.map (·.component)).Pairwise (· < ·) := by
  simp only [compileStackPlan, bind_eq_ok, exists_unit, refuse_eq_ok, pure_eq_ok, Bool.or_eq_false_iff,
    fails_eq_false] at h
  obtain ⟨-, ⟨-, hImages⟩, -, -, -, -, _, -, rfl⟩ := h
  simp only [validateStackImages, bind_eq_ok, exists_unit, refuse_eq_ok, Bool.or_eq_false_iff,
    bne_eq_false_iff_eq] at hImages
  obtain ⟨⟨-, hLength⟩, hImages⟩ := hImages
  obtain ⟨hNames, hChain⟩ := checkImages_ok hLength hImages
  exact ⟨rfl, hNames, List.isChain_iff_pairwise.mp hChain⟩

end Compiled

section Observed

variable {stack : StackPlan} {operation : String}

structure Passes (stack : StackPlan) (operation : String) (c : Component) (index : Nat) (image : StackImage)
    (service : Service) : Prop where
  imageAt : stack.images[index]? = some image
  serviceAt : stack.definition.services[index]? = some service
  name : image.component = c.component
  operation : c.operationID = operation
  imageID : c.imageID = image.release.imageID
  outcome : checkOutcome stack.definition service c = .ok ()

theorem checkComponent_ok {seen : List String} {c : Component}
    (h : checkComponent stack operation seen c = .ok ()) :
    c.component ∉ seen ∧ ∃ index image service, Passes stack operation c index image service := by
  rw [checkComponent] at h
  cases hImage : stack.images[imageIndex stack.images c.component]? with
  | none =>
    simp only [hImage, reduceCtorEq] at h
  | some image =>
    simp only [hImage, bind_eq_ok, exists_unit, refuse_eq_ok, Bool.or_eq_false_iff, bne_eq_false_iff_eq,
      List.contains_eq_mem, decide_eq_false_iff_not] at h
    obtain ⟨⟨⟨⟨hName, hNew⟩, hOperation⟩, hID⟩, hService⟩ := h
    cases hAt : stack.definition.services[imageIndex stack.images c.component]? with
    | none => simp only [hAt, reduceCtorEq] at hService
    | some service =>
      rw [hAt] at hService
      exact ⟨hNew, _, image, service, hImage, hAt, hName, hOperation, hID, hService⟩

theorem checkComponents_ok {seen seen' : List String} {components : List Component}
    (h : checkComponents stack operation true seen components = .ok seen') :
    seen' = (components.map (·.component)).reverse ++ seen ∧ (components.map (·.component)).Nodup ∧
      (∀ c ∈ components, c.component ∉ seen) ∧
        ∀ c ∈ components, ∃ index image service, Passes stack operation c index image service := by
  induction components generalizing seen with
  | nil =>
    cases h
    exact ⟨rfl, List.nodup_nil, nofun, nofun⟩
  | cons _ _ ih =>
    simp only [checkComponents, bind_eq_ok, exists_unit, if_true] at h
    obtain ⟨-, hComponent, hRest⟩ := h
    obtain ⟨hNew, hPasses⟩ := checkComponent_ok hComponent
    obtain ⟨rfl, hNodup, hApart, hAll⟩ := ih hRest
    refine ⟨by simp, List.nodup_cons.mpr ⟨?_, hNodup⟩, ?_, List.forall_mem_cons.mpr ⟨hPasses, hAll⟩⟩
    · intro hMem
      obtain ⟨other, hOther, hSame⟩ := List.mem_map.mp hMem
      exact hApart other hOther (hSame ▸ List.mem_cons_self)
    · exact List.forall_mem_cons.mpr ⟨hNew, fun other hOther hSeen =>
        hApart other hOther (List.mem_cons_of_mem _ hSeen)⟩

theorem checkOutcome_ok {definition : Definition} {service : Service} {c : Component}
    (hName : service.name = c.component) (h : checkOutcome definition service c = .ok ()) :
    Outcome (Awaited definition) service c := by
  have hAwaited : definition.services.any (waitsFor · c.component) = true ↔ Awaited definition service.name := by
    simp only [List.any_eq_true, waitsFor, beq_iff_eq, Awaited, hName]
  rw [checkOutcome] at h
  by_cases hWaited : definition.services.any (waitsFor · c.component) = true
  · rw [if_pos hWaited, refuse_eq_ok, Bool.or_eq_false_iff, bne_eq_false_iff_eq] at h
    exact ⟨fun _ => h, fun hNot => absurd (hAwaited.mp hWaited) hNot⟩
  · rw [if_neg hWaited, refuse_eq_ok, Bool.or_eq_false_iff, Bool.not_eq_false', Bool.and_eq_false_imp] at h
    exact ⟨fun hIs => absurd (hAwaited.mpr hIs) hWaited,
      fun _ => ⟨h.1, fun hCheck => bne_eq_false_iff_eq.mp (h.2 hCheck)⟩⟩

theorem volume_matches {observed planned : Volume} (h : observed = expectedVolume planned observed)
    (hKnown : observed.createdAt ≠ "") : VolumeMatches observed planned := by
  rw [expectedVolume] at h
  by_cases hNew : planned.createdAt = ""
  · rw [if_pos hNew] at h
    constructor
    all_goals first | exact hKnown | exact fun hOld => absurd hNew hOld | rw [h]
  · rw [if_neg hNew] at h
    subst h
    exact ⟨rfl, rfl, rfl, rfl, fun _ => rfl, hKnown⟩

theorem checkVolumes_ok {observed planned : List Volume} (hLength : observed.length = planned.length)
    (h : checkVolumes true observed planned = .ok ()) : List.Forall₂ VolumeMatches observed planned := by
  induction observed generalizing planned with
  | nil =>
    cases planned with
    | nil => exact .nil
    | cons _ _ => cases hLength
  | cons _ _ ih =>
    cases planned with
    | nil => cases hLength
    | cons _ _ =>
      simp only [checkVolumes, bind_eq_ok, exists_unit, refuse_eq_ok, Bool.or_eq_false_iff, bne_eq_false_iff_eq,
        Bool.true_and, beq_eq_false_iff_ne] at h
      exact .cons (volume_matches h.1.1 h.1.2) (ih (Nat.succ.inj hLength) h.2)

end Observed

theorem filter_key_eq {α : Type} {key : α → String} {l : List α} (hNodup : (l.map key).Nodup) {a : α} (ha : a ∈ l) :
    l.filter (key · == key a) = [a] := by
  induction l with
  | nil => cases ha
  | cons b l ih =>
    obtain ⟨hNew, hRest⟩ := List.nodup_cons.mp hNodup
    cases List.mem_cons.mp ha with
    | inl hEq =>
      subst hEq
      rw [List.filter_cons_of_pos (by simp), List.filter_eq_nil_iff.mpr]
      intro other hOther hSame
      exact hNew (beq_iff_eq.mp hSame ▸ List.mem_map_of_mem hOther)
    | inr hIn =>
      rw [List.filter_cons_of_neg, ih hRest hIn]
      intro hSame
      exact hNew (beq_iff_eq.mp hSame ▸ List.mem_map_of_mem hIn)

theorem wholeStack_of_accepted {evidence : Evidence} {snapshot : Snapshot} {release : Release}
    {previous : Option Healthy} {stack : StackPlan} {stopped : List (Option Stopped)} {plan : ApplyPlan}
    {operation : String} {state : State}
    (hPlan : compileStackPlan evidence snapshot release previous stack stopped = .ok plan)
    (hState : validateStackState plan operation state true = .ok ()) :
    WholeStack (Awaited stack.definition) stack operation state := by
  obtain ⟨hStack, hNames, hOrder⟩ := compiled_images hPlan
  simp only [validateStackState, hStack, bind_eq_ok, exists_unit, refuse_eq_ok, Bool.or_eq_false_iff,
    bne_eq_false_iff_eq, Bool.true_and] at hState
  obtain ⟨-, ⟨-, hVolumes⟩, hEach, seen, hComponents, hCount⟩ := hState
  obtain ⟨rfl, hNodup, -, hPasses⟩ := checkComponents_ok hComponents
  have hImages : (stack.images.map (·.component)).Nodup := hOrder.imp fun h => h.ne
  have hServices : (stack.definition.services.map (·.name)).Nodup := hNames ▸ hImages
  have hAligned : ∀ {c index image service}, Passes stack operation c index image service →
      service.name = c.component := by
    intro c index image service h
    have hAt := congrArg (·[index]?) hNames
    simp only [List.getElem?_map, h.imageAt, h.serviceAt, Option.map_some, Option.some.injEq] at hAt
    rw [← hAt, h.name]
  have hOnly : ∀ c ∈ state.components, ∃ service ∈ stack.definition.services, service.name = c.component := by
    intro c hc
    obtain ⟨index, image, service, h⟩ := hPasses c hc
    exact ⟨service, List.mem_of_getElem? h.serviceAt, hAligned h⟩
  -- As many distinct names as services, all of them names of services: none is missing.
  have hPerm : (state.components.map (·.component)).Perm (stack.definition.services.map (·.name)) := by
    refine (List.subperm_of_subset hNodup ?_).perm_of_length_le ?_
    · intro name hName
      obtain ⟨c, hc, rfl⟩ := List.mem_map.mp hName
      obtain ⟨service, hService, hSame⟩ := hOnly c hc
      exact hSame ▸ List.mem_map_of_mem hService
    · rw [List.append_nil, List.length_reverse, List.length_map] at hCount
      rw [List.length_map, List.length_map, hCount]
  refine ⟨hOnly, ?_, checkVolumes_ok hVolumes hEach⟩
  intro service hService
  obtain ⟨c, hc, hName⟩ := List.mem_map.mp (hPerm.mem_iff.mpr (List.mem_map_of_mem hService))
  obtain ⟨index, image, found, h⟩ := hPasses c hc
  obtain rfl : found = service :=
    List.inj_on_of_nodup_map hServices (List.mem_of_getElem? h.serviceAt) hService ((hAligned h).trans hName)
  refine ⟨c, image, ?_, ?_, h.imageID, h.operation, checkOutcome_ok (hAligned h) h.outcome⟩
  · rw [← hName]
    exact filter_key_eq hNodup hc
  · rw [← hName, ← h.name]
    exact filter_key_eq hImages (List.mem_of_getElem? h.imageAt)

-- A state that is accepted as healthy under a compiled plan shows the whole stack.
theorem whole_stack_health {evidence : Evidence} {snapshot : Snapshot} {release : Release} {previous : Option Healthy}
    {stack : StackPlan} {stopped : List (Option Stopped)} {plan : ApplyPlan}
    (hPlan : compileStackPlan evidence snapshot release previous stack stopped = .ok plan) (operation : String)
    (state : State) (hState : validateStackState plan operation state true = .ok ()) :
    plan.stack = some stack ∧ WholeStack (Awaited stack.definition) stack operation state :=
  ⟨(compiled_images hPlan).1, wholeStack_of_accepted hPlan hState⟩

section Admitted

open HostingStack (Library Node Build Source Walks parseHostingStack parseHostingStack_eq_ok mem_of_lookup)

-- In an admitted definition no service waits for itself, so the waiting service is another one.
theorem awaited_by_other {lib : Library} {settings : Option (Node → Except HostingStack.Error Build)} {source : Source}
    {walks : Walks} {choices : Sorting.Choices} {definition : Definition}
    (h : parseHostingStack lib settings walks choices source = .ok definition) :
    Awaited definition = AwaitedByOther definition := by
  obtain ⟨⟨services, volumes⟩, hDocument, -⟩ := (bind_eq_ok _ _ _).mp h
  obtain ⟨hAdmissible, rfl⟩ := (parseHostingStack_eq_ok hDocument).mp h
  funext name
  refine propext ⟨?_, fun ⟨consumer, hConsumer, _, hWaits⟩ => ⟨consumer, hConsumer, hWaits⟩⟩
  rintro ⟨consumer, hConsumer, hWaits⟩
  refine ⟨consumer, hConsumer, ?_, hWaits⟩
  rintro rfl
  have hMem := HostingStack.mem_sortedServices.mp hConsumer
  exact hAdmissible.acyclic consumer hMem (.single ⟨consumer, hMem, rfl, _, mem_of_lookup hWaits, rfl⟩)

theorem admitted_stack_health {lib : Library} {settings : Option (Node → Except HostingStack.Error Build)}
    {source : Source} {walks : Walks} {choices : Sorting.Choices} {evidence : Evidence} {snapshot : Snapshot}
    {release : Release} {previous : Option Healthy} {stack : StackPlan} {stopped : List (Option Stopped)}
    {plan : ApplyPlan} {operation : String} {state : State}
    (hSource : parseHostingStack lib settings walks choices source = .ok stack.definition)
    (hPlan : compileStackPlan evidence snapshot release previous stack stopped = .ok plan)
    (hState : validateStackState plan operation state true = .ok ()) :
    WholeStack (AwaitedByOther stack.definition) stack operation state :=
  awaited_by_other hSource ▸ wholeStack_of_accepted hPlan hState

end Admitted

section Sample

def digestOf (c : Char) : String := "sha256:" ++ String.ofList (List.replicate 64 c)

def sampleDefinition (services : List Service) (volumes : List String) : Definition :=
  ⟨"managed-compose.v1", digestOf 'e', "web", 8080, services, volumes⟩

def migrateImage : StackImage where
  component := "migrate"
  release :=
    { canonicalImage := "docker.io/library/migrate@" ++ digestOf 'a', imageID := digestOf 'b', os := "linux"
      architecture := "amd64", daemonID := "daemon-1"
      hash := "sha256:fed6e50682bd05d43ff481690c02a912d8d9d6fd84510a8566b5b446fd3e5961" }

def webImage : StackImage where
  component := "web"
  release :=
    { canonicalImage := "docker.io/library/nginx@" ++ digestOf 'c', imageID := digestOf 'd', os := "linux"
      architecture := "amd64", daemonID := "daemon-1"
      hash := "sha256:b925d8a0d4edbf2e566d60e00ba0908073bffbb27736eba90f99828ff4162504" }

def sampleEvidence (definition images release plan : String) : Evidence where
  parseNamed text :=
    if text = "docker.io/library/migrate:latest" then some ⟨text, "docker.io/library/migrate", true, none⟩
    else if text = "docker.io/library/nginx:latest" then some ⟨text, "docker.io/library/nginx", true, none⟩
    else if text = migrateImage.release.canonicalImage then
      some ⟨text, "docker.io/library/migrate", false, some (digestOf 'a')⟩
    else if text = webImage.release.canonicalImage then
      some ⟨text, "docker.io/library/nginx", false, some (digestOf 'c')⟩
    else none
  imageRegistry _ := .error "invalid registry credential"
  definitionHash _ := definition
  imagesHash _ := images
  releaseHash r :=
    if r.imageID = "" then release
    else if r.imageID = digestOf 'b' then migrateImage.release.hash else webImage.release.hash
  healthyHash _ := ""
  planHash _ := plan

def sampleSnapshot (hash : String) : Snapshot :=
  { stack := ⟨1, hash⟩, resourceID := "res_1", resourceGeneration := 1, bindingID := "bnd_1", destinationID := "dst_1"
    serverID := "srv_1", runnerID := "run_1", runtimeNamespace := "ncd-1", containerPort := 8080, hostPort := 20080
    readiness := ⟨"/", 30⟩, policyVersion := "managed-compose.interrupting.v1" }

def sampleRelease (images hash : String) : Release := { stack := ⟨images⟩, daemonID := "daemon-1", hash := hash }

def sampleVolume (createdAt : String) : Volume :=
  ⟨"data", "ncd_d7d928c471e1fd808727beb570eae881", "hop_0", "00000000000000000000000000000000", createdAt⟩

def sampleStack : StackPlan where
  definition := sampleDefinition
    [⟨"migrate", none, "docker.io/library/migrate:latest", none, [], [], [], none⟩,
      ⟨"web", none, "docker.io/library/nginx:latest", none, [], [], [("migrate", .serviceCompletedSuccessfully)],
        some ⟨["CMD", "true"], "", "", "", 3⟩⟩] ["data"]
  images := [migrateImage, webImage]
  volumes := [sampleVolume ""]
  networkName := "ncd_777b5d57dcbbb184ae192dfdba9f62a0"

def sampleState (components : List Component) (volumes : List Volume) : State :=
  ⟨true, "web", String.ofList (List.replicate 64 '3'), components, volumes⟩

def sampleComponent (name imageID : String) (running : Bool) (health : Health) : Component :=
  ⟨name, String.ofList (List.replicate 64 '1'), imageID, "hop_1", running, 0, health⟩

theorem sample_stack_health :
    ∃ evidence snapshot release plan state,
      compileStackPlan evidence snapshot release none sampleStack [] = .ok plan ∧
        validateStackState plan "hop_1" state true = .ok () ∧
          WholeStack (Awaited sampleStack.definition) sampleStack "hop_1" state := by
  let definition := "sha256:a547b2f99fcb3848d31a8d3f057658b06c3ed49e47fa21586223f000fd512aa3"
  let images := "sha256:5b446dcdd98750837e1502416ab2ab6b03d8833fd15849b3f4f2aa8bdaa3960a"
  let release := "sha256:e690d22bbf46c3c42a0f7af3dc0dee0c3772c5d4eddf30db62549134662247d5"
  let plan := "sha256:467105e1377a3515540517d02b24ef0ebbfe6e2900e3919662c9e5b2c4233e5f"
  let state := sampleState [sampleComponent "web" (digestOf 'd') true .healthy,
    sampleComponent "migrate" (digestOf 'b') false .absent] [sampleVolume "2026-01-01T00:00:00Z"]
  obtain ⟨_, h⟩ := ok_of_isOk (x := compileStackPlan (sampleEvidence definition images release plan)
    (sampleSnapshot definition) (sampleRelease images release) none sampleStack [] >>= fun plan =>
      validateStackState plan "hop_1" state true) (by decide +kernel)
  obtain ⟨plan, hPlan, hState⟩ := (bind_eq_ok _ _ _).mp h
  exact ⟨_, _, _, plan, state, hPlan, hState, (whole_stack_health hPlan "hop_1" state hState).2⟩

def selfStack : StackPlan where
  definition := sampleDefinition
    [⟨"web", none, "docker.io/library/nginx:latest", none, [], [], [("web", .serviceCompletedSuccessfully)], none⟩] []
  images := [webImage]
  volumes := []
  networkName := "ncd_777b5d57dcbbb184ae192dfdba9f62a0"

theorem self_stack_accepted :
    ∃ evidence snapshot release plan, compileStackPlan evidence snapshot release none selfStack [] = .ok plan ∧
      validateStackState plan "hop_1" (sampleState [sampleComponent "web" (digestOf 'd') false .absent] []) true =
        .ok () := by
  let definition := "sha256:d58e907ac123b0e074d376a6bab5c4f469e110ed800ea6a220536853d3360e84"
  let images := "sha256:90f7e4a35a1cfa291da505e72141e37f35961602e4134afb31c9c6949441c6b0"
  let release := "sha256:3c66af61001cbaaf6870d48b0555ae1aa494eda9c1a5617e1bfc0df3590ad5e7"
  let plan := "sha256:7c8d130876acc0e3294b77bcc515e1d341a6913c0363dd29f00890221c50c55f"
  obtain ⟨_, h⟩ := ok_of_isOk (x := compileStackPlan (sampleEvidence definition images release plan)
    (sampleSnapshot definition) (sampleRelease images release) none selfStack [] >>= fun plan =>
      validateStackState plan "hop_1" (sampleState [sampleComponent "web" (digestOf 'd') false .absent] []) true)
    (by decide +kernel)
  exact ⟨_, _, _, (bind_eq_ok _ _ _).mp h⟩

-- The compiler does not look for cycles: a service that waits for its own success has to be done, although no other
-- service waits for it.
theorem self_awaited_service :
    ¬∀ (evidence : Evidence) (snapshot : Snapshot) (release : Release) (previous : Option Healthy) (stack : StackPlan)
      (stopped : List (Option Stopped)) (plan : ApplyPlan),
      compileStackPlan evidence snapshot release previous stack stopped = .ok plan →
        ∀ operation state, validateStackState plan operation state true = .ok () →
          WholeStack (AwaitedByOther stack.definition) stack operation state := by
  intro hAll
  obtain ⟨evidence, snapshot, release, plan, hPlan, hState⟩ := self_stack_accepted
  obtain ⟨c, image, hOnly, -, -, -, -, hUp⟩ := (hAll _ _ _ _ _ _ plan hPlan _ _ hState).each _ List.mem_cons_self
  obtain rfl : sampleComponent "web" (digestOf 'd') false .absent = c := List.singleton_inj.mp hOnly
  have hAlone : ¬AwaitedByOther selfStack.definition "web" := by
    rintro ⟨consumer, hConsumer, hOther, -⟩
    exact hOther (List.mem_singleton.mp hConsumer ▸ rfl)
  exact absurd (hUp hAlone).1 Bool.false_ne_true

end Sample

end NeroCD.StackExecution
