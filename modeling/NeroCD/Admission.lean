import NeroCD.Domain

-- Generic admission of run definitions whose workflows are linked by pointers, and the check that a runner makes
-- before it executes a typed task.

namespace NeroCD.Admission

open NeroCD.Domain NeroCD.GoStrings

-- A run spec in memory: its own fields, and the pointer to its nested workflow.
structure SpecNode where
  own : RunSpec
  leaf : own.workflow = none := by rfl
  workflow : Option Nat := none

abbrev Memory := Nat → WorkflowOf SpecNode

structure Frame where
  workflow : Option Nat
  depth : Nat

-- The last frame of the source's list is the first here.
def genericSteps (depth : Nat) (pending : List Frame) : List (WorkflowStepOf SpecNode) → Except String (List Frame)
  | [] => .ok pending
  | step :: rest =>
    if step.requiresAck then
      .error "step requires_ack is unsupported; use run or template requires_ack"
    else if isInternal step.runSpec.own then .error "deployment execution tasks are internal-only"
    else
      match step.runSpec.workflow with
      | none => genericSteps depth pending rest
      | some w => genericSteps depth (⟨some w, depth + 1⟩ :: pending) rest

def genericFrames (memory : Memory) : Nat → List Frame → List Nat → Nat → Except String Unit
  | 0, _, _, _ => .error "workflow step count exceeds limit"
  | _ + 1, [], _, _ => .ok ()
  | fuel + 1, ⟨none, _⟩ :: pending, seen, total => genericFrames memory fuel pending seen total
  | fuel + 1, ⟨some w, depth⟩ :: pending, seen, total =>
    if depth > maxWorkflowDepth then .error "workflow nesting exceeds limit"
    else if seen.contains w then .error "workflow references must not repeat"
    else if (memory w).steps.length > maxWorkflowSteps - total then .error "workflow step count exceeds limit"
    else
      match genericSteps depth pending (memory w).steps with
      | .error e => .error e
      | .ok pending => genericFrames memory fuel pending (w :: seen) (total + (memory w).steps.length)

-- A frame is pushed for a step that was counted, so at most `maxWorkflowSteps + 2` are popped.
def admissionFuel : Nat := maxWorkflowSteps + 3

def validateGenericRunDefinition (memory : Memory) (spec : SpecNode) (workflow : Nat) : Except String Unit :=
  if isInternal spec.own then .error "deployment execution tasks are internal-only"
  else genericFrames memory admissionFuel [⟨spec.workflow, 1⟩, ⟨some workflow, 1⟩] [] 0

inductive Within (memory : Memory) (spec : SpecNode) (workflow : Nat) : SpecNode → Prop
  | top : Within memory spec workflow spec
  | step (s : WorkflowStepOf SpecNode) (h : s ∈ (memory workflow).steps) : Within memory spec workflow s.runSpec
  | nested (outer : SpecNode) (hOuter : Within memory spec workflow outer) (w : Nat)
      (hw : outer.workflow = some w) (s : WorkflowStepOf SpecNode) (h : s ∈ (memory w).steps) :
      Within memory spec workflow s.runSpec

-- The fuel.

variable {depth : Nat} {pending pending' : List Frame} {steps : List (WorkflowStepOf SpecNode)}

theorem genericSteps_length (h : genericSteps depth pending steps = .ok pending') :
    pending'.length ≤ pending.length + steps.length := by
  induction steps generalizing pending with
  | nil =>
    cases h
    exact Nat.le_refl _
  | cons _ _ ih =>
    unfold genericSteps at h
    split at h
    · cases h
    · split at h
      · cases h
      · split at h
        · have := ih h
          rw [List.length_cons]
          omega
        · have := ih h
          rw [List.length_cons] at this ⊢
          omega

-- One more unit of fuel changes nothing once there is a unit for each frame that can still be popped.
theorem genericFrames_succ (memory : Memory) (fuel : Nat) (pending : List Frame) (seen : List Nat) (total : Nat)
    (h : pending.length + (maxWorkflowSteps - total) < fuel) :
    genericFrames memory (fuel + 1) pending seen total = genericFrames memory fuel pending seen total := by
  induction fuel generalizing pending seen total with
  | zero => omega
  | succ _ ih =>
    cases pending with
    | nil => rfl
    | cons frame pending =>
      rw [List.length_cons] at h
      obtain ⟨w, depth⟩ := frame
      cases w with
      | none =>
        unfold genericFrames
        exact ih pending seen total (by omega)
      | some w =>
        unfold genericFrames
        split
        · rfl
        · split
          · rfl
          · split
            · rfl
            · split
              · rfl
              · rename_i hRoom pending' hSteps
                have := genericSteps_length hSteps
                exact ih _ _ _ (by omega)

theorem validateGenericRunDefinition_fuel (memory : Memory) (spec : SpecNode) (workflow : Nat) (extra : Nat) :
    genericFrames memory (admissionFuel + extra) [⟨spec.workflow, 1⟩, ⟨some workflow, 1⟩] [] 0 =
      genericFrames memory admissionFuel [⟨spec.workflow, 1⟩, ⟨some workflow, 1⟩] [] 0 := by
  induction extra with
  | zero => rfl
  | succ _ ih =>
    rw [← Nat.add_assoc, genericFrames_succ, ih]
    simp only [List.length_cons, List.length_nil, admissionFuel]
    omega

-- What an accepted definition contains.

theorem genericSteps_ok (h : genericSteps depth pending steps = .ok pending') :
    (∀ frame ∈ pending, frame ∈ pending') ∧ ∀ s ∈ steps, isInternal s.runSpec.own = false ∧
      ∀ w, s.runSpec.workflow = some w → ∃ frame ∈ pending', frame.workflow = some w := by
  induction steps generalizing pending with
  | nil =>
    cases h
    exact ⟨fun _ hf => hf, by simp⟩
  | cons _ _ ih =>
    unfold genericSteps at h
    split at h
    · cases h
    · split at h
      · cases h
      · rename_i hInternal
        rw [Bool.not_eq_true] at hInternal
        split at h
        · rename_i hNone
          obtain ⟨hKept, hRest⟩ := ih h
          refine ⟨hKept, List.forall_mem_cons.mpr ⟨⟨hInternal, ?_⟩, hRest⟩⟩
          intro w hw
          rw [hNone] at hw
          cases hw
        · rename_i v hSome
          obtain ⟨hKept, hRest⟩ := ih h
          refine ⟨fun f hf => hKept f (List.mem_cons_of_mem _ hf), List.forall_mem_cons.mpr ⟨⟨hInternal, ?_⟩, hRest⟩⟩
          intro w hw
          rw [hSome] at hw
          exact ⟨_, hKept _ List.mem_cons_self, hw⟩

structure Visited (memory : Memory) (pending : List Frame) (visited : Nat → Prop) : Prop where
  pending : ∀ frame ∈ pending, ∀ w, frame.workflow = some w → visited w
  nested : ∀ w, visited w → ∀ s ∈ (memory w).steps, isInternal s.runSpec.own = false ∧
    ∀ v, s.runSpec.workflow = some v → visited v

theorem genericFrames_visited {memory : Memory} {fuel : Nat} {seen : List Nat} {total : Nat}
    (h : genericFrames memory fuel pending seen total = .ok ()) : ∃ visited, Visited memory pending visited := by
  induction fuel generalizing pending seen total with
  | zero => cases h
  | succ _ ih =>
    cases pending with
    | nil => exact ⟨fun _ => False, by simp, by simp⟩
    | cons frame pending =>
      obtain ⟨w, depth⟩ := frame
      cases w with
      | none =>
        obtain ⟨visited, hVisited⟩ := ih h
        exact ⟨visited, List.forall_mem_cons.mpr ⟨by simp, hVisited.pending⟩, hVisited.nested⟩
      | some w =>
        unfold genericFrames at h
        split at h
        · cases h
        · split at h
          · cases h
          · split at h
            · cases h
            · split at h
              · cases h
              · rename_i pending' hSteps
                obtain ⟨visited, hVisited⟩ := ih h
                obtain ⟨hKept, hClean⟩ := genericSteps_ok hSteps
                refine ⟨fun v => v = w ∨ visited v, ?_, ?_⟩
                · refine List.forall_mem_cons.mpr ⟨?_, ?_⟩
                  · intro v hv
                    exact .inl (Option.some.inj hv).symm
                  · intro frame hFrame v hv
                    exact .inr (hVisited.pending frame (hKept frame hFrame) v hv)
                · rintro v (rfl | hv) s hs
                  · obtain ⟨hInternal, hNested⟩ := hClean s hs
                    refine ⟨hInternal, ?_⟩
                    intro u hu
                    obtain ⟨frame, hFrame, hEq⟩ := hNested u hu
                    exact .inr (hVisited.pending frame hFrame u hEq)
                  · obtain ⟨hInternal, hNested⟩ := hVisited.nested v hv s hs
                    exact ⟨hInternal, fun u hu => .inr (hNested u hu)⟩

theorem admitted_not_internal {memory : Memory} {spec : SpecNode} {workflow : Nat}
    (h : validateGenericRunDefinition memory spec workflow = .ok ()) {node : SpecNode}
    (hNode : Within memory spec workflow node) : isInternal node.own = false := by
  unfold validateGenericRunDefinition at h
  split at h
  · cases h
  · rename_i hTop
    obtain ⟨visited, hVisited⟩ := genericFrames_visited h
    have hFrames := hVisited.pending
    simp only [List.forall_mem_cons] at hFrames
    obtain ⟨hSpec, hWorkflow, -⟩ := hFrames
    -- a nested workflow was visited
    have hBoth : isInternal node.own = false ∧ ∀ w, node.workflow = some w → visited w := by
      induction hNode with
      | top => exact ⟨by simpa using hTop, hSpec⟩
      | step s hs => exact hVisited.nested workflow (hWorkflow workflow rfl) s hs
      | nested _ _ w hw s hs ih => exact hVisited.nested w (ih.2 w hw) s hs
    exact hBoth.1

-- The definition as a tree. Below the depth that admission allows it is cut off.

def treeOf (memory : Memory) : Nat → Nat → Workflow
  | 0, _ => {}
  | levels + 1, w => {
      steps := (memory w).steps.map (fun step => {
        id := step.id
        name := step.name
        runSpec := { step.runSpec.own with workflow := step.runSpec.workflow.map (treeOf memory levels) }
        dependsOn := step.dependsOn
        requiresAck := step.requiresAck }) }

def SpecNode.tree (memory : Memory) (node : SpecNode) : RunSpec :=
  { node.own with workflow := node.workflow.map (treeOf memory maxWorkflowDepth) }

def treeFrame (memory : Memory) (frame : Frame) : Option (Workflow × Nat) :=
  frame.workflow.map (fun w => (treeOf memory (maxWorkflowDepth + 1 - frame.depth) w, frame.depth))

def treeFrames (memory : Memory) (pending : List Frame) : List (Workflow × Nat) :=
  pending.filterMap (treeFrame memory)

theorem genericSteps_tree (memory : Memory) {levels : Nat} (hLevels : maxWorkflowDepth + 1 - (depth + 1) = levels)
    (pending : List Frame) (steps : List (WorkflowStepOf SpecNode)) :
    Domain.genericSteps depth (treeFrames memory pending) (steps.map (fun step => {
        id := step.id
        name := step.name
        runSpec := { step.runSpec.own with workflow := step.runSpec.workflow.map (treeOf memory levels) }
        dependsOn := step.dependsOn
        requiresAck := step.requiresAck })) =
      (genericSteps depth pending steps).map (treeFrames memory) := by
  induction steps generalizing pending with
  | nil => rfl
  | cons step _ ih =>
    unfold genericSteps Domain.genericSteps
    simp only [List.map_cons]
    have hInternal : isInternal { step.runSpec.own with workflow := step.runSpec.workflow.map (treeOf memory levels) } =
        isInternal step.runSpec.own := rfl
    rw [hInternal]
    split
    · rfl
    · split
      · rfl
      · cases hw : step.runSpec.workflow with
        | none => exact ih pending
        | some w =>
          have hPush : treeFrames memory (⟨some w, depth + 1⟩ :: pending) =
              (treeOf memory levels w, depth + 1) :: treeFrames memory pending := by
            simp [treeFrames, treeFrame, hLevels]
          simp only [Option.map_some]
          rw [← hPush]
          exact ih _

theorem genericSteps_some (h : genericSteps depth pending steps = .ok pending')
    (hSome : ∀ frame ∈ pending, frame.workflow.isSome = true) : ∀ frame ∈ pending', frame.workflow.isSome = true := by
  induction steps generalizing pending with
  | nil =>
    cases h
    exact hSome
  | cons _ _ ih =>
    unfold genericSteps at h
    split at h
    · cases h
    · split at h
      · cases h
      · split at h
        · exact ih h hSome
        · exact ih h (List.forall_mem_cons.mpr ⟨rfl, hSome⟩)

theorem genericFrames_tree (memory : Memory) (fuel : Nat) (pending : List Frame) (seen : List Nat) (total : Nat)
    (hSome : ∀ frame ∈ pending, frame.workflow.isSome = true) :
    genericFrames memory fuel pending seen total = .error "workflow references must not repeat" ∨
      Domain.genericFrames fuel (treeFrames memory pending) total = genericFrames memory fuel pending seen total := by
  induction fuel generalizing pending seen total with
  | zero => exact .inr rfl
  | succ _ ih =>
    cases pending with
    | nil => exact .inr rfl
    | cons frame pending =>
      obtain ⟨hFrame, hRest⟩ := List.forall_mem_cons.mp hSome
      obtain ⟨w, depth⟩ := frame
      obtain ⟨w, rfl⟩ := Option.isSome_iff_exists.mp hFrame
      have hFrames : treeFrames memory (⟨some w, depth⟩ :: pending) =
          (treeOf memory (maxWorkflowDepth + 1 - depth) w, depth) :: treeFrames memory pending := by
        simp [treeFrames, treeFrame]
      rw [hFrames]
      unfold genericFrames Domain.genericFrames
      by_cases hDepth : depth > maxWorkflowDepth
      · rw [if_pos hDepth, if_pos hDepth]
        exact .inr rfl
      · rw [if_neg hDepth, if_neg hDepth]
        by_cases hSeen : seen.contains w = true
        · rw [if_pos hSeen]
          exact .inl rfl
        · rw [if_neg hSeen]
          -- within the limit a workflow has its steps in the tree
          obtain ⟨levels, hLevels⟩ : ∃ levels, maxWorkflowDepth + 1 - depth = levels + 1 :=
            ⟨maxWorkflowDepth - depth, by omega⟩
          have hNext : maxWorkflowDepth + 1 - (depth + 1) = levels := by omega
          have hSteps := genericSteps_tree memory hNext pending (memory w).steps
          rw [hLevels]
          simp only [treeOf, List.length_map]
          split
          · exact .inr rfl
          · rw [hSteps]
            cases hResult : genericSteps depth pending (memory w).steps with
            | error e => exact .inr rfl
            | ok => exact ih _ _ _ (genericSteps_some hResult hRest)

theorem validateGenericRunDefinition_tree (memory : Memory) (spec : SpecNode) (workflow : Nat) :
    validateGenericRunDefinition memory spec workflow = .error "workflow references must not repeat" ∨
      Domain.validateGenericRunDefinition (spec.tree memory) (treeOf memory maxWorkflowDepth workflow) =
        validateGenericRunDefinition memory spec workflow := by
  unfold validateGenericRunDefinition Domain.validateGenericRunDefinition
  have hInternal : isInternal (spec.tree memory) = isInternal spec.own := rfl
  rw [hInternal]
  split
  · exact .inr rfl
  · cases hw : spec.workflow with
    | none =>
      have hFrames : ((spec.tree memory).workflow.toList.map (fun w => (w, 1))) ++
          [(treeOf memory maxWorkflowDepth workflow, 1)] = treeFrames memory [⟨some workflow, 1⟩] := by
        simp [SpecNode.tree, hw, treeFrames, treeFrame]
      have hSkip : genericFrames memory admissionFuel [⟨none, 1⟩, ⟨some workflow, 1⟩] [] 0 =
          genericFrames memory admissionFuel [⟨some workflow, 1⟩] [] 0 :=
        (genericFrames_succ memory (maxWorkflowSteps + 2) [⟨some workflow, 1⟩] [] 0
          (by simp only [List.length_singleton]; omega)).symm
      rw [hSkip, hFrames]
      exact genericFrames_tree memory admissionFuel _ [] 0 (by simp)
    | some w =>
      have hFrames : ((spec.tree memory).workflow.toList.map (fun w => (w, 1))) ++
          [(treeOf memory maxWorkflowDepth workflow, 1)] = treeFrames memory [⟨some w, 1⟩, ⟨some workflow, 1⟩] := by
        simp [SpecNode.tree, hw, treeFrames, treeFrame]
      rw [hFrames]
      exact genericFrames_tree memory admissionFuel _ [] 0 (by simp)

-- The runner's side.

-- The run types that the agent takes for typed tasks (`validateTypedExecutionClaim`).
def typedRunTypes : List String :=
  ["database_import_stage", "database_import", runTypeComposeDeploy, "image_deploy", "local_build_deploy_v1",
   "database_deploy", "proxy_apply", hostingBuildTaskType,
   "storage_archive", "storage_backup_transfer", "storage_backup_retention",
   "database_backup", "database_backup_transfer", "database_backup_retention",
   "database_network_capture"]

def isTypedExecution (spec : RunSpec) : Bool := typedRunTypes.contains (trimSpace spec.type)

-- The typed tasks that `isHostingExecution` does not list.
def storageBackupTypes : List String := ["storage_backup_transfer", "storage_backup_retention"]

theorem typed_iff (spec : RunSpec) (h : isInternal spec = false) :
    isTypedExecution spec = true ↔ trimSpace spec.type ∈ storageBackupTypes := by
  have hTypes : ∀ t : String, t ∈ typedRunTypes ↔ t ∈ hostingRunTypes ∨ t = runTypeComposeDeploy ∨
      t ∈ storageBackupTypes := by
    intro t
    simp only [typedRunTypes, hostingRunTypes, storageBackupTypes, List.mem_cons, List.not_mem_nil, or_false]
    constructor
    · rintro (h | h | h | h | h | h | h | h | h | h | h | h | h | h | h) <;> simp [h]
    · rintro ((h | h | h | h | h | h | h | h | h | h | h | h) | h | h | h) <;> simp [h]
  unfold isInternal isHostingExecution at h
  simp only [Bool.or_eq_false_iff, List.contains_eq_mem, decide_eq_false_iff_not, beq_eq_false_iff_ne] at h
  obtain ⟨⟨⟨⟨⟨⟨hHosting, -⟩, -⟩, -⟩, -⟩, -⟩, hCompose⟩ := h
  rw [isTypedExecution, List.contains_eq_mem, decide_eq_true_iff, hTypes]
  simp [hHosting, hCompose]

-- An accepted definition names typed tasks exactly if it names a transfer or a retention of storage backups.
theorem admitted_untyped_iff (memory : Memory) (spec : SpecNode) (workflow : Nat)
    (h : validateGenericRunDefinition memory spec workflow = .ok ()) :
    (∀ node, Within memory spec workflow node → isTypedExecution node.own = false) ↔
      ∀ node, Within memory spec workflow node → trimSpace node.own.type ∉ storageBackupTypes := by
  have hTyped {node : SpecNode} (hNode : Within memory spec workflow node) :=
    typed_iff node.own (admitted_not_internal h hNode)
  constructor
  · intro hAll node hNode hType
    have := hAll node hNode
    rw [(hTyped hNode).mpr hType] at this
    cases this
  · intro hNone node hNode
    rw [← Bool.not_eq_true]
    intro hIs
    exact hNone node hNode ((hTyped hNode).mp hIs)

def shellNode : SpecNode := { own := { type := "shell" } }

def playbookNode : SpecNode := { own := { type := "ansible" } }

def releaseNode : SpecNode := { own := { type := "shell" }, workflow := some 1 }

-- Two steps, the second with a workflow of its own.
def releaseMemory : Memory
  | 0 => { steps := [{ id := "build", name := "build", runSpec := shellNode },
      { id := "release", name := "release", dependsOn := ["build"], runSpec := releaseNode }] }
  | 1 => { steps := [{ id := "migrate", name := "migrate", runSpec := playbookNode },
      { id := "restart", name := "restart", dependsOn := ["migrate"], runSpec := shellNode }] }
  | _ => {}

theorem release_within (node : SpecNode) (h : Within releaseMemory shellNode 0 node) :
    node = shellNode ∨ node = releaseNode ∨ node = playbookNode := by
  induction h with
  | top => exact .inl rfl
  | step s hs =>
    simp only [releaseMemory, List.mem_cons, List.not_mem_nil, or_false] at hs
    rcases hs with rfl | rfl <;> simp
  | nested outer _ w hw s hs ih =>
    obtain rfl | rfl | rfl := ih
    · cases hw
    · cases hw
      simp only [releaseMemory, List.mem_cons, List.not_mem_nil, or_false] at hs
      rcases hs with rfl | rfl <;> simp
    · cases hw

theorem release_untyped : validateGenericRunDefinition releaseMemory shellNode 0 = .ok () ∧
    ∀ node, Within releaseMemory shellNode 0 node → isTypedExecution node.own = false := by
  have hAccepted : validateGenericRunDefinition releaseMemory shellNode 0 = .ok () := by decide +kernel
  refine ⟨hAccepted, (admitted_untyped_iff _ shellNode 0 hAccepted).mpr ?_⟩
  intro node hNode
  obtain rfl | rfl | rfl := release_within node hNode <;> decide +kernel

-- A transfer of storage backups without an operation is admitted, on top and as a step.
def transferNode : SpecNode := { own := { type := "storage_backup_transfer" } }

def transferStep : WorkflowOf SpecNode := { steps := [{ id := "copy", name := "copy", runSpec := transferNode }] }

theorem storage_transfer_admitted :
    (validateGenericRunDefinition (fun _ => {}) transferNode 0 = .ok () ∧ isTypedExecution transferNode.own = true) ∧
      validateGenericRunDefinition (fun _ => transferStep) shellNode 0 = .ok () ∧
      Within (fun _ => transferStep) shellNode 0 transferNode := by
  refine ⟨⟨by decide +kernel, by decide +kernel⟩, by decide +kernel, ?_⟩
  exact .step { id := "copy", name := "copy", runSpec := transferNode } List.mem_cons_self

end NeroCD.Admission
