import Mathlib.Logic.Relation
import NeroCD.Checks

-- A depth-first visit with three colours accepts exactly the graphs whose edges all pass and that have no cycle.

namespace NeroCD.DepthFirst

open NeroCD.Checks Relation

variable {α β ε : Type}

inductive Colour where
  | white
  | gray
  | black
  deriving DecidableEq

-- The edges out of a node in their order, the check on each and the error for a cycle.
structure Graph (α β ε : Type) where
  edges : α → List β
  target : β → α
  check : α → β → Except ε Unit
  cycle : α → ε

def Graph.Edge (g : Graph α β ε) (a b : α) : Prop := ∃ e ∈ g.edges a, g.target e = b

section Invariants

variable {g : Graph α β ε} {state state' : α → Colour}

structure Darkens (state state' : α → Colour) : Prop where
  gray : ∀ n, state' n = .gray ↔ state n = .gray
  black : ∀ n, state n = .black → state' n = .black

theorem Darkens.refl (state : α → Colour) : Darkens state state := ⟨fun _ => Iff.rfl, fun _ h => h⟩

theorem Darkens.trans {state'' : α → Colour} (h : Darkens state state') (h' : Darkens state' state'') :
    Darkens state state'' :=
  ⟨fun n => (h'.gray n).trans (h.gray n), fun n hn => h'.black n (h.black n hn)⟩

theorem foldlM_holds {γ σ : Type} {step : σ → γ → Except ε σ} {P : List γ → σ → Prop} {l : List γ} {s s' : σ}
    (hStep : ∀ done a s s', P done s → step s a = .ok s' → P (done ++ [a]) s') (h : l.foldlM step s = .ok s') :
    ∀ done, P done s → P (done ++ l) s' := by
  induction l generalizing s with
  | nil =>
    intro done hs
    cases h
    rwa [List.append_nil]
  | cons a _ ih =>
    intro done hs
    rw [List.foldlM_cons, bind_eq_ok] at h
    obtain ⟨s₁, hFirst, hRest⟩ := h
    have hAll := ih hRest (done ++ [a]) (hStep done a s s₁ hs hFirst)
    rwa [List.append_assoc, List.singleton_append] at hAll

theorem foldlM_succeeds {γ σ : Type} {step : σ → γ → Except ε σ} {Q : σ → Prop} {l : List γ} {s : σ}
    (hStep : ∀ a ∈ l, ∀ s, Q s → ∃ s', step s a = .ok s' ∧ Q s') (hs : Q s) :
    ∃ s', l.foldlM step s = .ok s' ∧ Q s' := by
  induction l generalizing s with
  | nil => exact ⟨s, rfl, hs⟩
  | cons _ _ ih =>
    obtain ⟨hFirst, hRest⟩ := List.forall_mem_cons.mp hStep
    obtain ⟨s₁, hOk, hs₁⟩ := hFirst s hs
    rw [List.foldlM_cons, hOk, ok_bind]
    exact ih hRest hs₁

def grays (nodes : List α) (state : α → Colour) : Nat := nodes.countP fun n => state n = .gray

theorem grays_le (nodes : List α) (state : α → Colour) : grays nodes state ≤ nodes.length := List.countP_le_length

theorem Darkens.grays (h : Darkens state state') (nodes : List α) : grays nodes state' = grays nodes state :=
  List.countP_congr fun n _ => by rw [decide_eq_true_iff, decide_eq_true_iff, h.gray n]

structure Settled (g : Graph α β ε) (state : α → Colour) : Prop where
  checked : ∀ n, state n = .black → ∀ e ∈ g.edges n, g.check n e = .ok ()
  closed : ∀ n, state n = .black → ∀ e ∈ g.edges n, state (g.target e) = .black
  acyclic : ∀ n, state n = .black → ¬TransGen g.Edge n n

theorem Settled.reaches (h : Settled g state) {a b : α} (ha : state a = .black) (hab : TransGen g.Edge a b) :
    state b = .black := by
  induction hab with
  | single hEdge =>
    obtain ⟨e, he, rfl⟩ := hEdge
    exact h.closed a ha e he
  | tail _ hEdge ih =>
    obtain ⟨e, he, rfl⟩ := hEdge
    exact h.closed _ ih e he

end Invariants

variable [DecidableEq α] (g : Graph α β ε)

def visit : Nat → α → (α → Colour) → Except ε (α → Colour)
  | 0, name, _ => .error (g.cycle name)
  | fuel + 1, name, state =>
    match state name with
    | .gray => .error (g.cycle name)
    | .black => .ok state
    | .white => do
      let state ← (g.edges name).foldlM (fun state edge => do
        g.check name edge
        visit fuel (g.target edge) state) (Function.update state name .gray)
      pure (Function.update state name .black)

def visitAll (fuel : Nat) (names : List α) : Except ε (α → Colour) :=
  names.foldlM (fun state name => visit g fuel name state) fun _ => .white

section Visits

variable {g} {state state' : α → Colour} {name : α} {fuel : Nat}

theorem Settled.gray (h : Settled g state) (hName : state name = .white) :
    Settled g (Function.update state name .gray) := by
  have hOld : ∀ n, Function.update state name .gray n = .black → state n = .black := by
    intro n hn
    by_cases hEq : n = name
    · rw [hEq, Function.update_self] at hn
      cases hn
    · rwa [Function.update_of_ne hEq] at hn
  refine ⟨fun n hn => h.checked n (hOld n hn), fun n hn e he => ?_, fun n hn => h.acyclic n (hOld n hn)⟩
  have hTarget := h.closed n (hOld n hn) e he
  have hNe : g.target e ≠ name := by
    rintro hEq
    rw [hEq, hName] at hTarget
    cases hTarget
  rwa [Function.update_of_ne hNe]

-- A node turns black after its successors: a cycle through it would have made it black before.
theorem Settled.black (h : Settled g state) (hName : state name = .gray)
    (hEdges : ∀ e ∈ g.edges name, g.check name e = .ok () ∧ state (g.target e) = .black) :
    Settled g (Function.update state name .black) := by
  have hOld : ∀ n, Function.update state name .black n = .black → n = name ∨ state n = .black := by
    intro n hn
    by_cases hEq : n = name
    · exact .inl hEq
    · rw [Function.update_of_ne hEq] at hn
      exact .inr hn
  have hNew : ∀ n, state n = .black → Function.update state name .black n = .black := by
    intro n hn
    by_cases hEq : n = name
    · rw [hEq, Function.update_self]
    · rwa [Function.update_of_ne hEq]
  have hNever : ∀ n, state n = .black → ¬TransGen g.Edge n name := by
    intro n hn hReach
    have hBlack := h.reaches hn hReach
    rw [hName] at hBlack
    cases hBlack
  refine ⟨fun n hn e he => ?_, fun n hn e he => ?_, fun n hn hCycle => ?_⟩
  · cases hOld n hn with
    | inl hEq => exact hEq ▸ (hEdges e (hEq ▸ he)).1
    | inr hBlack => exact h.checked n hBlack e he
  · cases hOld n hn with
    | inl hEq => exact hNew _ (hEdges e (hEq ▸ he)).2
    | inr hBlack => exact hNew _ (h.closed n hBlack e he)
  · cases hOld n hn with
    | inl hEq =>
      subst hEq
      obtain ⟨next, ⟨e, he, rfl⟩, hRest⟩ := TransGen.head'_iff.mp hCycle
      have hNext := (hEdges e he).2
      obtain hEq | hReach := reflTransGen_iff_eq_or_transGen.mp hRest
      · rw [← hEq, hName] at hNext
        cases hNext
      · exact hNever _ hNext hReach
    | inr hBlack => exact h.acyclic n hBlack hCycle

theorem visit_ok (h : visit g fuel name state = .ok state') (hSettled : Settled g state) :
    Settled g state' ∧ Darkens state state' ∧ state' name = .black := by
  induction fuel generalizing name state state' with
  | zero => cases h
  | succ _ ih =>
    rw [visit] at h
    split at h
    · cases h
    · rename_i hBlack
      cases h
      exact ⟨hSettled, .refl state, hBlack⟩
    · rename_i hWhite
      rw [bind_eq_ok] at h
      obtain ⟨state₁, hEdges, hDone⟩ := h
      cases hDone
      let P : List β → (α → Colour) → Prop := fun done s => Settled g s ∧
        Darkens (Function.update state name .gray) s ∧
        ∀ e ∈ done, g.check name e = .ok () ∧ s (g.target e) = .black
      have hFold : P ([] ++ g.edges name) state₁ := by
        refine foldlM_holds (P := P) ?_ hEdges [] ⟨hSettled.gray hWhite, .refl _, nofun⟩
        rintro done e s s' ⟨hs, hDarkens, hAll⟩ hStep
        rw [bind_eq_ok, exists_unit] at hStep
        obtain ⟨hCheck, hVisit⟩ := hStep
        obtain ⟨hs', hDarkens', hTarget⟩ := ih hVisit hs
        refine ⟨hs', hDarkens.trans hDarkens', fun e' he' => ?_⟩
        cases List.mem_append.mp he' with
        | inl hDone => exact ⟨(hAll e' hDone).1, hDarkens'.black _ (hAll e' hDone).2⟩
        | inr hLast =>
          obtain rfl := List.mem_singleton.mp hLast
          exact ⟨hCheck, hTarget⟩
      obtain ⟨hSettled₁, hDarkens₁, hAll⟩ := hFold
      have hGray : state₁ name = .gray := (hDarkens₁.gray name).mpr (Function.update_self ..)
      refine ⟨hSettled₁.black hGray hAll, ⟨fun n => ?_, fun n hn => ?_⟩, Function.update_self ..⟩
      · by_cases hEq : n = name
        · subst hEq
          rw [Function.update_self, hWhite]
          exact ⟨nofun, nofun⟩
        · rw [Function.update_of_ne hEq, hDarkens₁.gray n, Function.update_of_ne hEq]
      · by_cases hEq : n = name
        · rw [hEq, Function.update_self]
        · rw [Function.update_of_ne hEq]
          exact hDarkens₁.black n (by rwa [Function.update_of_ne hEq])

theorem grays_update {nodes : List α} (hName : name ∈ nodes) (hWhite : state name = .white) :
    grays nodes state < grays nodes (Function.update state name .gray) := by
  have hMono : ∀ l : List α, grays l state ≤ grays l (Function.update state name .gray) := by
    intro l
    refine List.countP_mono_left fun n _ hn => ?_
    by_cases hEq : n = name
    · rw [hEq, Function.update_self]
      rfl
    · rwa [Function.update_of_ne hEq]
  obtain ⟨before, after, rfl⟩ := List.append_of_mem hName
  have hBefore := hMono before
  have hAfter := hMono after
  simp only [grays, List.countP_append, List.countP_cons, hWhite, Function.update_self] at hBefore hAfter ⊢
  simp
  omega

section Completeness

variable {nodes : List α} (hClosed : ∀ n ∈ nodes, ∀ e ∈ g.edges n, g.check n e = .ok () → g.target e ∈ nodes)

include hClosed

variable (hChecked : ∀ n ∈ nodes, ∀ e ∈ g.edges n, g.check n e = .ok ())
  (hAcyclic : ∀ n ∈ nodes, ¬TransGen g.Edge n n)

include hChecked hAcyclic

-- The nodes being visited lead to the node at hand, so it is not one of them.
theorem visit_succeeds (hSettled : Settled g state) (hName : name ∈ nodes)
    (hPath : ∀ n, state n = .gray → TransGen g.Edge n name) (hFuel : nodes.length < fuel + grays nodes state) :
    ∃ state', visit g fuel name state = .ok state' := by
  induction fuel generalizing name state with
  | zero =>
    have hLe := grays_le nodes state
    omega
  | succ fuel ih =>
    rw [visit]
    cases hColour : state name with
    | gray => exact absurd (hPath name hColour) (hAcyclic name hName)
    | black => exact ⟨state, rfl⟩
    | white =>
      have hMore := grays_update hName hColour
      let Q : (α → Colour) → Prop := fun s => Settled g s ∧ Darkens (Function.update state name .gray) s
      obtain ⟨s, hFold, -⟩ : ∃ s, (g.edges name).foldlM (fun state edge => do
          g.check name edge
          visit g fuel (g.target edge) state) (Function.update state name .gray) = .ok s ∧ Q s := by
        refine foldlM_succeeds (fun e he s hs => ?_) ⟨hSettled.gray hColour, .refl _⟩
        have hCheck := hChecked name hName e he
        have hReach : ∀ n, s n = .gray → TransGen g.Edge n (g.target e) := by
          intro n hn
          have hGray := (hs.2.gray n).mp hn
          by_cases hEq : n = name
          · exact hEq ▸ .single ⟨e, he, rfl⟩
          · rw [Function.update_of_ne hEq] at hGray
            exact (hPath n hGray).tail ⟨e, he, rfl⟩
        have hEnough : nodes.length < fuel + grays nodes s := by
          rw [hs.2.grays nodes]
          omega
        obtain ⟨s', hVisit⟩ := ih hs.1 (hClosed name hName e he hCheck) hReach hEnough
        obtain ⟨hNext, hDarkens, -⟩ := visit_ok hVisit hs.1
        exact ⟨s', by rw [hCheck, ok_bind, hVisit], hNext, hs.2.trans hDarkens⟩
      rw [hFold]
      exact ⟨_, rfl⟩

theorem visitAll_succeeds (hFuel : nodes.length < fuel) : ∃ state, visitAll g fuel nodes = .ok state := by
  let Q : (α → Colour) → Prop := fun s => Settled g s ∧ ∀ n, s n ≠ .gray
  obtain ⟨state, hFold, -⟩ : ∃ s, visitAll g fuel nodes = .ok s ∧ Q s := by
    refine foldlM_succeeds (fun n hn s hs => ?_) ⟨⟨nofun, nofun, nofun⟩, nofun⟩
    obtain ⟨s', hVisit⟩ := visit_succeeds hClosed hChecked hAcyclic hs.1 hn
      (fun m hm => absurd hm (hs.2 m)) (Nat.lt_add_right _ hFuel)
    obtain ⟨hNext, hDarkens, -⟩ := visit_ok hVisit hs.1
    exact ⟨s', hVisit, hNext, fun m hm => hs.2 m ((hDarkens.gray m).mp hm)⟩
  exact ⟨state, hFold⟩

end Completeness

theorem visitAll_ok {names : List α} (h : visitAll g fuel names = .ok state) :
    Settled g state ∧ ∀ n ∈ names, state n = .black := by
  let P : List α → (α → Colour) → Prop := fun done s => Settled g s ∧ ∀ n ∈ done, s n = .black
  have hFold : P ([] ++ names) state := by
    refine foldlM_holds (P := P) ?_ h [] ⟨⟨nofun, nofun, nofun⟩, nofun⟩
    rintro done n s s' ⟨hs, hAll⟩ hVisit
    obtain ⟨hs', hDarkens, hn⟩ := visit_ok hVisit hs
    refine ⟨hs', fun m hm => ?_⟩
    cases List.mem_append.mp hm with
    | inl hDone => exact hDarkens.black m (hAll m hDone)
    | inr hLast => exact List.mem_singleton.mp hLast ▸ hn
  exact hFold

theorem visitAll_accepts {nodes : List α}
    (hClosed : ∀ n ∈ nodes, ∀ e ∈ g.edges n, g.check n e = .ok () → g.target e ∈ nodes)
    (hFuel : nodes.length < fuel) :
    (∃ state, visitAll g fuel nodes = .ok state) ↔
      (∀ n ∈ nodes, ∀ e ∈ g.edges n, g.check n e = .ok ()) ∧ ∀ n ∈ nodes, ¬TransGen g.Edge n n := by
  constructor
  · rintro ⟨state, h⟩
    obtain ⟨hSettled, hBlack⟩ := visitAll_ok h
    exact ⟨fun n hn => hSettled.checked n (hBlack n hn), fun n hn => hSettled.acyclic n (hBlack n hn)⟩
  · rintro ⟨hChecked, hAcyclic⟩
    exact visitAll_succeeds hClosed hChecked hAcyclic hFuel

end Visits

end NeroCD.DepthFirst
