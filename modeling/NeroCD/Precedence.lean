import Mathlib.Data.List.Nodup

-- Tasks that wait for other tasks: a depth-first search finds an order of them or a task that waits for itself.

namespace NeroCD.Precedence

variable {α : Type}

def Ordered (deps : α → List α) : List α → Prop
  | [] => True
  | a :: rest => (∀ d ∈ deps a, d ∈ rest) ∧ Ordered deps rest

theorem Ordered.exists_ready {deps : α → List α} {order : List α} (h : Ordered deps order) (done : α → Prop)
    (hOpen : ∃ a ∈ order, ¬ done a) : ∃ a ∈ order, ¬ done a ∧ ∀ d ∈ deps a, done d := by
  induction order with
  | nil => simp at hOpen
  | cons a rest ih =>
    by_cases hRest : ∃ b ∈ rest, ¬ done b
    · obtain ⟨b, hb, hReady⟩ := ih h.2 hRest
      exact ⟨b, List.mem_cons_of_mem _ hb, hReady⟩
    -- everything after `a` is done, so `a` is what is left
    · simp only [not_exists, not_and, not_not] at hRest
      obtain ⟨b, hb, hNot⟩ := hOpen
      cases List.mem_cons.mp hb with
      | inl hEq => exact ⟨a, List.mem_cons_self, hEq ▸ hNot, fun d hd => hRest d (h.1 d hd)⟩
      | inr hMem => exact absurd (hRest b hMem) hNot

structure Marks (α : Type) where
  visiting : List α := []
  visited : List α := []

def visitAll (visit : α → Marks α → Option (Marks α)) : List α → Marks α → Option (Marks α)
  | [], m => some m
  | a :: rest, m => (visit a m).bind (visitAll visit rest)

section

variable {deps : α → List α} {m m' : Marks α} {visit : α → Marks α → Option (Marks α)}

theorem visitAll_ordered
    (hVisit : ∀ a m m', visit a m = some m' → Ordered deps m.visited →
      Ordered deps m'.visited ∧ m.visited ⊆ m'.visited ∧ a ∈ m'.visited)
    (tasks : List α) (h : visitAll visit tasks m = some m') (hm : Ordered deps m.visited) :
    Ordered deps m'.visited ∧ m.visited ⊆ m'.visited ∧ ∀ a ∈ tasks, a ∈ m'.visited := by
  induction tasks generalizing m with
  | nil =>
    cases h
    exact ⟨hm, List.Subset.refl _, by simp⟩
  | cons a _ ih =>
    obtain ⟨m₁, hFirst, hRest⟩ := Option.bind_eq_some_iff.mp h
    obtain ⟨hOrdered, hSubset, hMem⟩ := hVisit a m m₁ hFirst hm
    obtain ⟨hOrdered', hSubset', hAll⟩ := ih hRest hOrdered
    refine ⟨hOrdered', List.Subset.trans hSubset hSubset', ?_⟩
    intro b hb
    cases List.mem_cons.mp hb with
    | inl hEq => exact hEq ▸ hSubset' hMem
    | inr hMem => exact hAll b hMem

theorem visitAll_visiting (hVisit : ∀ a m m', visit a m = some m' → m'.visiting = m.visiting) (tasks : List α)
    (h : visitAll visit tasks m = some m') : m'.visiting = m.visiting := by
  induction tasks generalizing m with
  | nil =>
    cases h
    rfl
  | cons a _ ih =>
    obtain ⟨m₁, hFirst, hRest⟩ := Option.bind_eq_some_iff.mp h
    exact (ih hRest).trans (hVisit a m m₁ hFirst)

theorem visitAll_congr {visit' : α → Marks α → Option (Marks α)} (path allowed : List α)
    (hVisit : ∀ a ∈ allowed, ∀ m, m.visiting = path → visit a m = visit' a m)
    (hPath : ∀ a m m', visit a m = some m' → m'.visiting = m.visiting) (tasks : List α) (hTasks : tasks ⊆ allowed)
    (hm : m.visiting = path) : visitAll visit tasks m = visitAll visit' tasks m := by
  induction tasks generalizing m with
  | nil => rfl
  | cons a _ ih =>
    rw [List.cons_subset] at hTasks
    unfold visitAll
    rw [← hVisit a hTasks.1 m hm]
    cases hFirst : visit a m with
    | none => rfl
    | some => exact ih hTasks.2 ((hPath a m _ hFirst).trans hm)

end

variable [DecidableEq α]

-- `none` when the path meets itself.  The path has no task twice, so as much fuel as there are tasks suffices.
def visit (deps : α → List α) : Nat → α → Marks α → Option (Marks α)
  | 0, _, _ => none
  | fuel + 1, a, m =>
    if a ∈ m.visiting then none
    else if a ∈ m.visited then some m
    else
      (visitAll (visit deps fuel) (deps a) { m with visiting := a :: m.visiting }).map (fun m =>
        { visiting := m.visiting.filter (· != a), visited := a :: m.visited })

section

variable {deps : α → List α} {m m' : Marks α} {a : α}

theorem visit_ordered {fuel : Nat} (h : visit deps fuel a m = some m') (hm : Ordered deps m.visited) :
    Ordered deps m'.visited ∧ m.visited ⊆ m'.visited ∧ a ∈ m'.visited := by
  induction fuel generalizing a m m' with
  | zero => cases h
  | succ _ ih =>
    unfold visit at h
    split at h
    · cases h
    split at h
    · rename_i hVisited
      cases h
      exact ⟨hm, List.Subset.refl _, hVisited⟩
    · obtain ⟨m₁, hDeps, rfl⟩ := Option.map_eq_some_iff.mp h
      obtain ⟨hOrdered, hSubset, hAll⟩ := visitAll_ordered (fun a m m' => ih) (deps a) hDeps hm
      exact ⟨⟨hAll, hOrdered⟩, List.Subset.trans hSubset (List.subset_cons_self _ _), List.mem_cons_self⟩

theorem visit_visiting {fuel : Nat} (h : visit deps fuel a m = some m') : m'.visiting = m.visiting := by
  induction fuel generalizing a m m' with
  | zero => cases h
  | succ _ ih =>
    unfold visit at h
    split at h
    · cases h
    rename_i hNew
    split at h
    · cases h
      rfl
    · obtain ⟨m₁, hDeps, rfl⟩ := Option.map_eq_some_iff.mp h
      rw [show m₁.visiting = a :: m.visiting from visitAll_visiting (fun a m m' => ih) (deps a) hDeps]
      have hKept : m.visiting.filter (· != a) = m.visiting := by
        rw [List.filter_eq_self]
        intro b hb
        rw [bne_iff_ne]
        rintro rfl
        exact hNew hb
      simp [hKept]

def ahead (tasks : List α) (m : Marks α) : Nat := (tasks.filter (fun b => decide (b ∉ m.visiting))).length

theorem ahead_cons_lt {tasks : List α} (ha : a ∈ tasks) (hNew : a ∉ m.visiting) :
    ahead tasks { m with visiting := a :: m.visiting } < ahead tasks m := by
  unfold ahead
  rw [show (fun b => decide (b ∉ a :: m.visiting)) = fun b => decide (b ≠ a) && decide (b ∉ m.visiting) by
    funext b; simp [not_or], ← List.filter_filter]
  apply List.length_filter_lt_length_iff_exists.mpr
  exact ⟨a, by simp [ha, hNew], by simp⟩

theorem visit_succ {tasks : List α} (hClosed : ∀ a ∈ tasks, deps a ⊆ tasks) (fuel : Nat) (ha : a ∈ tasks)
    (hFuel : ahead tasks m < fuel) : visit deps (fuel + 1) a m = visit deps fuel a m := by
  induction fuel generalizing a m with
  | zero => omega
  | succ _ ih =>
    rw [visit, visit]
    split
    · rfl
    rename_i hNew
    split
    · rfl
    · have hLess := ahead_cons_lt ha hNew
      rw [visitAll_congr (a :: m.visiting) tasks _ (fun b n n' => visit_visiting) (deps a)
        (hClosed a ha) rfl]
      intro b hb n hn
      apply ih hb
      have hSame : ahead tasks n = ahead tasks { m with visiting := a :: m.visiting } := by
        unfold ahead
        rw [hn]
      omega

theorem visit_fuel {tasks : List α} (hClosed : ∀ a ∈ tasks, deps a ⊆ tasks) (ha : a ∈ tasks) (extra : Nat) :
    visit deps (tasks.length + 1 + extra) a m = visit deps (tasks.length + 1) a m := by
  induction extra with
  | zero => rfl
  | succ _ ih =>
    rw [← Nat.add_assoc, visit_succ hClosed _ ha, ih]
    have hLe : ahead tasks m ≤ tasks.length := List.length_filter_le _ _
    omega

end

end NeroCD.Precedence
