import NeroCD.Journal.Persist

-- The version marker: what the lowering cascade leaves, and when a version suits a state.

namespace NeroCD.Journal

structure Lowered (evidence : Nat → Bool) (v w : Nat) : Prop where
  le : w ≤ v
  floor : min 8 v ≤ w
  marked : 9 ≤ w → evidence w = true
  covers : ∀ k, 9 ≤ k → k ≤ v → evidence k = true → k ≤ w

theorem lowerFrom_above (evidence : Nat → Bool) (n v : Nat) (h : 8 + n < v) :
    lowerFrom evidence n v = v := by
  induction n with
  | zero => rfl
  | succ n ih =>
    have hne : (v == 9 + n) = false := by
      simp only [beq_eq_false_iff_ne]
      omega
    simp only [lowerFrom, hne, Bool.false_and, Bool.false_eq_true, if_false]
    exact ih (by omega)

theorem lowerFrom_lowered (evidence : Nat → Bool) (n v : Nat) (h : v ≤ 8 + n) :
    Lowered evidence v (lowerFrom evidence n v) := by
  induction n generalizing v with
  | zero =>
    simp only [lowerFrom]
    exact ⟨Nat.le_refl v, by omega, by omega, by omega⟩
  | succ n ih =>
    unfold lowerFrom
    by_cases hTop : v = 9 + n
    · by_cases hEvidence : evidence (9 + n) = true
      · -- the top level keeps its evidence, and no later level touches the version
        simp only [hTop, hEvidence, beq_self_eq_true, Bool.not_true, Bool.and_false, Bool.false_eq_true,
          if_false]
        rw [lowerFrom_above evidence n (9 + n) (by omega)]
        exact ⟨Nat.le_refl _, by omega, fun _ => hEvidence, fun _ _ hk _ => hk⟩
      · simp only [hTop, Bool.eq_false_iff.mpr hEvidence, beq_self_eq_true, Bool.not_false, Bool.and_self,
          if_true]
        have hRest := ih (8 + n) (by omega)
        refine ⟨by have := hRest.le; omega, by have := hRest.floor; omega, hRest.marked, ?_⟩
        intro k hk hkv hek
        have hne : k ≠ 9 + n := by
          intro hEq
          exact hEvidence (hEq ▸ hek)
        exact hRest.covers k hk (by omega) hek
    · have hne : (v == 9 + n) = false := by simpa using hTop
      simp only [hne, Bool.false_and, Bool.false_eq_true, if_false]
      exact ih v (by omega)

theorem lowerVersion_lowered (s : JournalState) (v : Nat) (h : v ≤ 21) :
    Lowered (versionEvidence s) v (lowerVersion s v) :=
  lowerFrom_lowered (versionEvidence s) 13 v h

def uses (s : JournalState) : Nat → Bool
  | 2 => !s.hosting.isEmpty
  | 3 => s.hosting.any hostingJournalNeedsV3
  | 4 => !s.proxy.isEmpty
  | 5 => !s.build.isEmpty
  | 6 => s.hosting.any hostingJournalUsesLocalBuild
  | 7 => !(s.buildLogs.isEmpty && s.buildLogCursors.isEmpty)
  | 8 => s.hosting.any hostingJournalUsesRuntimeEnvironment
  | k => versionEvidence s k

theorem uses_of_evidence (s : JournalState) (k : Nat) (hk : 9 ≤ k) : uses s k = versionEvidence s k := by
  unfold uses
  split <;> first | omega | rfl

@[simp] theorem versionEvidence_withVersion (s : JournalState) (v k : Nat) :
    versionEvidence (s.withVersion v) k = versionEvidence s k := by
  unfold versionEvidence
  split <;> rfl

@[simp] theorem lowerVersion_withVersion (s : JournalState) (v w : Nat) :
    lowerVersion (s.withVersion v) w = lowerVersion s w := by
  have hEvidence : versionEvidence (s.withVersion v) = versionEvidence s :=
    funext (versionEvidence_withVersion s v)
  unfold lowerVersion
  rw [hEvidence]

@[simp] theorem journalUsesRetention_withVersion (s : JournalState) (v : Nat) :
    journalUsesRetention (s.withVersion v) = journalUsesRetention s := rfl

@[simp] theorem entryCount_withVersion (s : JournalState) (v : Nat) :
    entryCount (s.withVersion v) = entryCount s := rfl

@[simp] theorem withVersion_withVersion (s : JournalState) (v w : Nat) :
    (s.withVersion v).withVersion w = s.withVersion w := rfl

@[simp] theorem uses_withVersion (s : JournalState) (v k : Nat) : uses (s.withVersion v) k = uses s k := by
  unfold uses
  split <;> rfl

@[simp] theorem versionEvidence_withoutStorageRetentions (s : JournalState) (k : Nat) :
    versionEvidence s.withoutStorageRetentions k = versionEvidence s k := by
  unfold versionEvidence
  split <;> rfl

@[simp] theorem uses_withoutStorageRetentions (s : JournalState) (k : Nat) :
    uses s.withoutStorageRetentions k = uses s k := by
  unfold uses
  split <;> rfl

structure Settled (s : JournalState) (v : Nat) : Prop where
  pos : 1 ≤ v
  le : v ≤ 20
  marked : 9 ≤ v → versionEvidence s v = true
  covers : ∀ k, k ≤ 20 → uses s k = true → k ≤ v

theorem lowerVersion_settled (s : JournalState) (v : Nat) (hv : v ≤ 21) (hPos : 1 ≤ v)
    (hTransfers : s.storageBackupTransfers = [] ∨ v ≤ 20)
    (hCovers : ∀ k, k ≤ 20 → uses s k = true → k ≤ v) : Settled s (lowerVersion s v) := by
  have hLowered := lowerVersion_lowered s v hv
  have hNot21 : lowerVersion s v ≠ 21 := by
    intro hEq
    cases hTransfers with
    | inl hNone =>
      have hMark := hLowered.marked (by omega)
      rw [hEq] at hMark
      simp [versionEvidence, hNone] at hMark
    | inr _ => have := hLowered.le; omega
  refine ⟨by have := hLowered.floor; omega, by have := hLowered.le; omega, hLowered.marked, ?_⟩
  intro k hk hUses
  have hkv := hCovers k hk hUses
  by_cases h9 : 9 ≤ k
  · exact hLowered.covers k h9 hkv (uses_of_evidence s k h9 ▸ hUses)
  · have := hLowered.floor
    omega

namespace Settled

variable {s : JournalState} {v : Nat}

theorem requires (h : Settled s v) (k : Nat) (hk : k ≤ 20) :
    (uses s k && decide (v < k)) = false := by
  cases hUses : uses s k with
  | false => rfl
  | true =>
    have := h.covers k hk hUses
    simpa using this

theorem marks (h : Settled s v) (k : Nat) (hk : 9 ≤ k) : (v == k && !versionEvidence s k) = false := by
  by_cases hEq : v = k
  · have := h.marked (by omega)
    simp [hEq, hEq ▸ this]
  · simp [hEq]

theorem withVersion (h : Settled s v) (w : Nat) : Settled (s.withVersion w) v :=
  ⟨h.pos, h.le, by simpa using h.marked, by simpa using h.covers⟩

theorem withoutStorageRetentions (h : Settled s v) : Settled s.withoutStorageRetentions v :=
  ⟨h.pos, h.le, by simpa using h.marked, by simpa using h.covers⟩

theorem matches_version (h : Settled s v) (k : Nat) (h9 : 9 ≤ k) (h20 : k ≤ 20) :
    ((versionEvidence s k && decide (v < k)) || (v == k && !versionEvidence s k)) = false := by
  have hRequires := h.requires k h20
  rw [uses_of_evidence s k h9] at hRequires
  rw [hRequires, h.marks k h9]
  rfl

end Settled

end NeroCD.Journal
