import NeroCD.Checks
import NeroCD.Domain
import NeroCD.Precedence

-- The workflows that the service accepts: steps with distinct trimmed IDs whose dependencies are steps again
-- and never lead back.

namespace NeroCD.Workflows

open NeroCD.Checks NeroCD.Domain NeroCD.GoStrings NeroCD.Precedence

def adapterTypes : List String :=
  ["local_build_deploy_v1", hostingBuildTaskType, "image_deploy", "shell", "ansible", "opentofu", "terraform",
   "powershell", "python", runTypeComposeDeploy]

def supports (runType : String) : Bool := adapterTypes.contains runType

-- The plans that the adapters build, the checks of other packages on parts of a run spec, and `strings.ToLower`.
structure Registry where
  buildPlan : TaskRun → Except String RunnerPrimitivePlan
  validateRunSpecPlans : RunSpec → Except String Unit
  validateWorkflowPlans : Workflow → Except String Unit
  validateRepositoryURL : String → Except String Unit
  validateSecretBinding : SecretBinding → Except String Unit
  toLower : String → String

def normalizeSecret (registry : Registry) (secret : SecretBinding) : SecretBinding :=
  { secret with
    name := trimSpace secret.name
    provider := registry.toLower (trimSpace secret.provider)
    reference := trimSpace secret.reference
    target := trimSpace secret.target
    version := trimSpace secret.version
    fingerprint := trimSpace secret.fingerprint
    classification := registry.toLower (trimSpace secret.classification)
    redactEncodings := secret.redactEncodings.map (fun encoding => registry.toLower (trimSpace encoding)) }

-- `err` under the text of the caller.
def wrap {α : Type} (text : String) (result : Except String α) : Except String α :=
  result.mapError (fun e => text ++ e)

@[simp] theorem wrap_eq_ok {α : Type} {text : String} {result : Except String α} {x : α} :
    wrap text result = .ok x ↔ result = .ok x := by
  cases result <;> simp [wrap, Except.mapError]

def normalizeSecrets (registry : Registry) (secretNames secretTargets : List String) :
    List SecretBinding → Except String (List SecretBinding)
  | [] => .ok []
  | secret :: rest => do
    let secret := normalizeSecret registry secret
    wrap "invalid run_spec.secrets: " (registry.validateSecretBinding secret)
    refuse (secretNames.contains secret.name) "invalid run_spec.secrets: binding names must be unique"
    refuse (secretTargets.contains secret.target) "invalid run_spec.secrets: binding targets must be unique"
    let rest ← normalizeSecrets registry (secret.name :: secretNames) (secret.target :: secretTargets) rest
    return secret :: rest

-- The checks of `normalizeRunSpecNode` before the secrets.
def checkRunSpecNode (registry : Registry) (runType : String) (repository : Option RepositoryRef)
    (process : Option ProcessSpec) (artifacts : List ArtifactSpec) : Except String Unit := do
  refuse (runType == "") "run_spec.type is required"
  refuse (!supports runType) "run_spec.type is not registered"
  match repository with
  | some repository =>
    if trimSpace repository.url != "" then
      wrap "run_spec.repository.url: " (registry.validateRepositoryURL repository.url)
    else pure ()
  | none => pure ()
  match process with
  | some process => refuse (process.command.length == 0) "run_spec.process.command is required"
  | none => pure ()
  refuse (artifacts.any (fun artifact => trimSpace artifact.name == "" || trimSpace artifact.path == ""))
    "run_spec.artifacts require name and path"

def normalizeDependencies (id : String) : List String → List String → Except String (List String)
  | _, [] => .ok []
  | seen, dep :: rest => do
    let dep := trimSpace dep
    refuse (dep == "") "workflow dependency id is required"
    refuse (dep == id) "workflow step cannot depend on itself"
    refuse (seen.contains dep) "workflow dependency id must be unique per step"
    let rest ← normalizeDependencies id (dep :: seen) rest
    return dep :: rest

-- The dependencies of the step that the map of the steps by ID holds.
def dependencies (steps : List WorkflowStep) (id : String) : List String :=
  ((steps.reverse.find? (fun step => step.id == id)).map (fun step => step.dependsOn)).getD []

def searchSteps (steps : List WorkflowStep) : Option (Marks String) :=
  visitAll (visit (dependencies steps) (steps.length + 1)) (steps.map (fun step => step.id)) {}

def checkSteps (steps : List WorkflowStep) : Except String Unit := do
  refuse (steps.any (fun step => step.dependsOn.any (fun dep => !(steps.map (fun step => step.id)).contains dep)))
    "workflow dependency must reference a step"
  refuse (searchSteps steps).isNone "workflow must be acyclic"

mutual

def normalizeRunSpecNode (registry : Registry) (fallbackType : String) : RunSpec → Except String RunSpec
  | .mk hostingBuildID proxyMode proxyOperationID hostingMode hostingOperationID type inputs repository process
      artifacts secrets workflow => do
    let runType := if trimSpace type == "" then trimSpace fallbackType else trimSpace type
    checkRunSpecNode registry runType repository process artifacts
    let secrets ← normalizeSecrets registry [] [] secrets
    let workflow ← normalizeNested registry workflow
    return .mk hostingBuildID proxyMode proxyOperationID hostingMode hostingOperationID runType inputs repository
      process artifacts secrets workflow

def normalizeNested (registry : Registry) : Option (WorkflowOf RunSpec) → Except String (Option (WorkflowOf RunSpec))
  | none => .ok none
  | some workflow => do
    let workflow ← normalizeWorkflowNodes registry workflow
    return some workflow

def normalizeWorkflowNodes (registry : Registry) : WorkflowOf RunSpec → Except String (WorkflowOf RunSpec)
  | .mk steps => do
    let steps ← normalizeSteps registry [] steps
    checkSteps steps
    return .mk steps

def normalizeSteps (registry : Registry) (seen : List String) :
    List (WorkflowStepOf RunSpec) → Except String (List (WorkflowStepOf RunSpec))
  | [] => .ok []
  | step :: rest => do
    let step ← normalizeStep registry seen step
    let rest ← normalizeSteps registry (step.id :: seen) rest
    return step :: rest

def normalizeStep (registry : Registry) (seen : List String) :
    WorkflowStepOf RunSpec → Except String (WorkflowStepOf RunSpec)
  | .mk id name runSpec dependsOn requiresAck => do
    let id := trimSpace id
    refuse (id == "") "workflow step id is required"
    refuse (seen.contains id) "workflow step id must be unique"
    let runSpec ← normalizeRunSpecNode registry "" runSpec
    let dependsOn ← normalizeDependencies id [] dependsOn
    return .mk id (if trimSpace name == "" then id else trimSpace name) runSpec dependsOn requiresAck

end

structure Normalized (steps : List WorkflowStep) : Prop where
  ids : (steps.map (fun step => step.id)).Nodup
  named : ∀ step ∈ steps, trimSpace step.id ≠ ""
  closed : ∀ step ∈ steps, ∀ dep ∈ step.dependsOn, ∃ other ∈ steps, other.id = dep
  order : ∃ order, Ordered (dependencies steps) order ∧ ∀ step ∈ steps, step.id ∈ order

section

variable {registry : Registry}

theorem checkRunSpecNode_ok {runType : String} {repository : Option RepositoryRef}
    {process : Option ProcessSpec} {artifacts : List ArtifactSpec}
    (h : checkRunSpecNode registry runType repository process artifacts = .ok ()) :
    runType ≠ "" ∧ runType ∈ adapterTypes := by
  simp only [checkRunSpecNode, bind_eq_ok, exists_unit, refuse_eq_ok, beq_eq_false_iff_ne, supports,
    List.contains_eq_mem, Bool.not_eq_false', decide_eq_true_eq] at h
  exact ⟨h.1, h.2.1⟩

theorem normalizeRunSpecNode_type {spec spec' : RunSpec}
    (h : normalizeRunSpecNode registry "" spec = .ok spec') :
    spec'.type = trimSpace spec.type ∧ spec'.type ∈ adapterTypes := by
  cases spec with
  | mk _ _ _ _ _ type _ _ _ _ _ _ =>
    simp only [normalizeRunSpecNode, bind_eq_ok, exists_unit, pure_eq_ok] at h
    obtain ⟨hCheck, _, -, _, -, rfl⟩ := h
    obtain ⟨hNamed, hAdapter⟩ := checkRunSpecNode_ok hCheck
    by_cases hType : trimSpace type = ""
    · rw [if_pos (beq_iff_eq.mpr hType)] at hNamed
      exact absurd rfl hNamed
    · rw [if_neg (mt beq_iff_eq.mp hType)] at hAdapter ⊢
      exact ⟨rfl, hAdapter⟩

theorem normalizeStep_ok {seen : List String} {step step' : WorkflowStep}
    (h : normalizeStep registry seen step = .ok step') : trimSpace step'.id ≠ "" ∧ step'.id ∉ seen := by
  cases step with
  | mk _ _ _ _ _ =>
    simp only [normalizeStep, bind_eq_ok, exists_unit, refuse_eq_ok, beq_eq_false_iff_ne, pure_eq_ok,
      List.contains_eq_mem, decide_eq_false_iff_not] at h
    obtain ⟨hNamed, hNew, spec, -, deps, -, rfl⟩ := h
    exact ⟨by rwa [trimSpace_trimSpace], hNew⟩

theorem normalizeSteps_ok {seen : List String} {steps steps' : List WorkflowStep}
    (h : normalizeSteps registry seen steps = .ok steps') :
    (steps'.map (fun step => step.id)).Nodup ∧
      ∀ step ∈ steps', trimSpace step.id ≠ "" ∧ step.id ∉ seen := by
  induction steps generalizing seen steps' with
  | nil =>
    rw [normalizeSteps] at h
    cases h
    simp
  | cons _ _ ih =>
    simp only [normalizeSteps, bind_eq_ok, pure_eq_ok] at h
    obtain ⟨step', hStep, rest', hRest, rfl⟩ := h
    obtain ⟨hNamed, hNew⟩ := normalizeStep_ok hStep
    obtain ⟨hNodup, hAll⟩ := ih hRest
    refine ⟨?_, ?_⟩
    · rw [List.map_cons, List.nodup_cons]
      refine ⟨?_, hNodup⟩
      intro hMem
      obtain ⟨other, hOther, hEq⟩ := List.mem_map.mp hMem
      exact (hAll other hOther).2 (hEq ▸ List.mem_cons_self)
    · intro other hOther
      cases List.mem_cons.mp hOther with
      | inl hEq => exact hEq ▸ ⟨hNamed, hNew⟩
      | inr hMem => exact ⟨(hAll other hMem).1, fun hSeen => (hAll other hMem).2 (List.mem_cons_of_mem _ hSeen)⟩

theorem searchSteps_ordered {steps : List WorkflowStep} {marks : Marks String} (h : searchSteps steps = some marks) :
    Ordered (dependencies steps) marks.visited ∧ ∀ step ∈ steps, step.id ∈ marks.visited := by
  obtain ⟨hOrdered, -, hAll⟩ := visitAll_ordered (fun a m m' => visit_ordered) _ h trivial
  exact ⟨hOrdered, fun step hStep => hAll _ (List.mem_map.mpr ⟨step, hStep, rfl⟩)⟩

theorem normalizeWorkflowNodes_ok {workflow workflow' : Workflow}
    (h : normalizeWorkflowNodes registry workflow = .ok workflow') : Normalized workflow'.steps := by
  cases workflow with
  | mk _ =>
    simp only [normalizeWorkflowNodes, checkSteps, bind_eq_ok, exists_unit, refuse_eq_ok, pure_eq_ok,
      List.any_eq_false, Bool.not_eq_true, Bool.not_eq_false', List.contains_eq_mem, decide_eq_true_eq,
      Option.isNone_eq_false_iff, Option.isSome_iff_exists] at h
    obtain ⟨steps', hSteps, ⟨hClosed, marks, hSearch⟩, rfl⟩ := h
    obtain ⟨hNodup, hAll⟩ := normalizeSteps_ok hSteps
    refine ⟨hNodup, fun step hStep => (hAll step hStep).1, ?_, marks.visited, searchSteps_ordered hSearch⟩
    intro step hStep dep hDep
    exact List.mem_map.mp (hClosed step hStep dep hDep)

end

section

variable {steps : List WorkflowStep}

theorem Normalized.dependencies_eq (h : Normalized steps) {step : WorkflowStep} (hStep : step ∈ steps) :
    dependencies steps step.id = step.dependsOn := by
  have hFind : steps.reverse.find? (fun other => other.id == step.id) = some step := by
    cases hFind : steps.reverse.find? (fun other => other.id == step.id) with
    | none => exact absurd (List.find?_eq_none.mp hFind step (List.mem_reverse.mpr hStep)) (by simp)
    | some other =>
      have hID : other.id = step.id := by simpa using List.find?_some hFind
      rw [List.inj_on_of_nodup_map h.ids (List.mem_reverse.mp (List.mem_of_find?_eq_some hFind)) hStep hID]
  unfold dependencies
  rw [hFind]
  rfl

theorem Normalized.exists_ready (h : Normalized steps) (done : String → Prop)
    (hOpen : ∃ step ∈ steps, ¬ done step.id) :
    ∃ step ∈ steps, ¬ done step.id ∧ ∀ dep ∈ step.dependsOn, done dep := by
  obtain ⟨order, hOrdered, hAll⟩ := h.order
  -- what is no step counts as done
  obtain ⟨id, -, hNot, hDeps⟩ := hOrdered.exists_ready (fun id => (∃ step ∈ steps, step.id = id) → done id) (by
    obtain ⟨step, hStep, hNot⟩ := hOpen
    exact ⟨step.id, hAll step hStep, fun hDone => hNot (hDone ⟨step, hStep, rfl⟩)⟩)
  rw [Classical.not_imp] at hNot
  obtain ⟨⟨step, hStep, rfl⟩, hNot⟩ := hNot
  refine ⟨step, hStep, hNot, ?_⟩
  intro dep hDep
  exact hDeps dep (by rwa [h.dependencies_eq hStep]) (h.closed step hStep dep hDep)

theorem searchSteps_fuel (hClosed : ∀ id ∈ steps.map (fun step => step.id),
      dependencies steps id ⊆ steps.map (fun step => step.id)) (extra : Nat) :
    visitAll (visit (dependencies steps) (steps.length + 1 + extra)) (steps.map (fun step => step.id)) {} =
      searchSteps steps := by
  apply visitAll_congr [] (steps.map (fun step => step.id)) _ (fun a m m' => visit_visiting) _
    (List.Subset.refl _) rfl
  intro id hID m _
  have hFuel := visit_fuel (m := m) hClosed hID extra
  rwa [List.length_map] at hFuel

end

end NeroCD.Workflows
