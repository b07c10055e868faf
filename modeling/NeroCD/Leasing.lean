import NeroCD.Records

-- Fenced leases: each is granted to an owner for one resource, has a generation and is live until it is closed. A
-- resource is held exactly while one of its leases is live, and by the owner of that lease.

namespace NeroCD.Leasing

open NeroCD.Records

structure Protocol (Resource Lease Key Owner : Type) where
  key : Resource → Key
  held : Resource → Prop
  holder : Resource → Option Owner
  resource : Lease → Key
  live : Lease → Prop
  owner : Lease → Owner
  generation : Lease → Int

variable {Resource Lease Key Owner : Type} {p : Protocol Resource Lease Key Owner}

-- Of one resource, generations increase, and on a guarded one two leases are not both live.
def Protocol.Apart (p : Protocol Resource Lease Key Owner) (guarded : Key → Prop) (l m : Lease) : Prop :=
  p.resource l = p.resource m →
    p.generation l < p.generation m ∧ (guarded (p.resource l) → ¬ (p.live l ∧ p.live m))

-- The invariant, for the resources whose key is guarded; `next` bounds the generations given out.
structure Exclusive (p : Protocol Resource Lease Key Owner) (guarded : Key → Prop)
    (resources : List Resource) (leases : List Lease) (next : Key → Int) : Prop where
  keyed : Keyed p.key resources
  known : ∀ l ∈ leases, ∃ r ∈ resources, p.key r = p.resource l
  held : ∀ l ∈ leases, guarded (p.resource l) → p.live l →
    ∀ r ∈ resources, p.key r = p.resource l → p.held r ∧ p.holder r = some (p.owner l)
  lease : ∀ r ∈ resources, guarded (p.key r) → p.held r →
    ∃ l ∈ leases, p.resource l = p.key r ∧ p.live l
  apart : leases.Pairwise (p.Apart guarded)
  bounded : ∀ l ∈ leases, p.generation l < next (p.resource l)

structure Protocol.SameLease (p : Protocol Resource Lease Key Owner) (l l' : Lease) : Prop where
  resource : p.resource l' = p.resource l
  owner : p.owner l' = p.owner l
  generation : p.generation l' = p.generation l

variable {guarded : Key → Prop} {resources resources' : List Resource} {leases leases' : List Lease}
  {next : Key → Int}

theorem exclusive_nil (p : Protocol Resource Lease Key Owner) (guarded : Key → Prop) (next : Key → Int) :
    Exclusive p guarded [] [] next where
  keyed := List.Pairwise.nil
  known := by simp
  held := by simp
  lease := by simp
  apart := List.Pairwise.nil
  bounded := by simp

theorem Protocol.Apart.replace {l l' m : Lease} (hSame : p.SameLease l l') (hLive : p.live l' → p.live l) :
    (p.Apart guarded m l → p.Apart guarded m l') ∧ (p.Apart guarded l m → p.Apart guarded l' m) := by
  unfold Protocol.Apart
  rw [hSame.resource, hSame.generation]
  refine ⟨?_, ?_⟩
  · intro h hRes
    refine ⟨(h hRes).1, ?_⟩
    intro hG hBoth
    exact (h hRes).2 hG ⟨hBoth.1, hLive hBoth.2⟩
  · intro h hRes
    refine ⟨(h hRes).1, ?_⟩
    intro hG hBoth
    exact (h hRes).2 hG ⟨hLive hBoth.1, hBoth.2⟩

namespace Exclusive

theorem extend (h : Exclusive p guarded resources leases next) (guarded' : Key → Prop)
    (hNew : ∀ k, guarded' k → guarded k ∨
      ((∀ l ∈ leases, p.resource l ≠ k) ∧ ∀ r ∈ resources, p.key r = k → ¬ p.held r)) :
    Exclusive p guarded' resources leases next where
  keyed := h.keyed
  known := h.known
  bounded := h.bounded
  held := by
    intro l hl hG
    cases hNew _ hG with
    | inl hOld => exact h.held l hl hOld
    | inr hIdle => exact absurd rfl (hIdle.1 l hl)
  lease := by
    intro r hr hG hHeld
    cases hNew _ hG with
    | inl hOld => exact h.lease r hr hOld hHeld
    | inr hIdle => exact absurd hHeld (hIdle.2 r hr rfl)
  apart := by
    apply h.apart.imp_of_mem
    intro l m hl _ hApart hRes
    refine ⟨(hApart hRes).1, ?_⟩
    intro hG
    cases hNew _ hG with
    | inl hOld => exact (hApart hRes).2 hOld
    | inr hIdle => exact absurd rfl (hIdle.1 l hl)

theorem mono (h : Exclusive p guarded resources leases next) (guarded' : Key → Prop)
    (hLess : ∀ k, guarded' k → guarded k) : Exclusive p guarded' resources leases next :=
  h.extend guarded' (fun k hk => .inl (hLess k hk))

theorem add (h : Exclusive p guarded resources leases next) (r : Resource)
    (hFresh : ∀ x ∈ resources, p.key x ≠ p.key r) (hIdle : guarded (p.key r) → ¬ p.held r) :
    Exclusive p guarded (r :: resources) leases next where
  keyed := List.pairwise_cons.mpr ⟨fun x hx => (hFresh x hx).symm, h.keyed⟩
  known := by
    intro l hl
    obtain ⟨x, hx, hKey⟩ := h.known l hl
    exact ⟨x, List.mem_cons_of_mem _ hx, hKey⟩
  held := by
    intro l hl hG hLive x hx hKey
    cases List.mem_cons.mp hx with
    | inl hEq =>
      subst hEq
      obtain ⟨y, hy, hyKey⟩ := h.known l hl
      exact absurd (hyKey.trans hKey.symm) (hFresh y hy)
    | inr hx => exact h.held l hl hG hLive x hx hKey
  lease := by
    intro x hx hG hHeld
    cases List.mem_cons.mp hx with
    | inl hEq =>
      subst hEq
      exact absurd hHeld (hIdle hG)
    | inr hx => exact h.lease x hx hG hHeld
  apart := h.apart
  bounded := h.bounded

variable {r r' : Resource} {l : Lease}

theorem edit (h : Exclusive p guarded resources leases next) (hr : Replaces r r' resources resources')
    (hKey : p.key r' = p.key r)
    (hSafe : guarded (p.key r) → (¬ p.held r ∧ ¬ p.held r') ∨ ((p.held r' ↔ p.held r) ∧ p.holder r' = p.holder r)) :
    Exclusive p guarded resources' leases next where
  keyed := hr.keyed p.key h.keyed hKey
  known := fun l hl => hr.exists_key p.key hKey (h.known l hl)
  held := by
    intro l hl hG hLive x hx hxKey
    cases hr.mem_keyed p.key h.keyed x hx with
    | inl hEq =>
      subst hEq
      have hOld := h.held l hl hG hLive r hr.mem_old (hKey.symm.trans hxKey)
      rw [← hxKey, hKey] at hG
      obtain hIdle | hSame := hSafe hG
      · exact absurd hOld.1 hIdle.1
      · rw [hSame.1, hSame.2]
        exact hOld
    | inr hOld => exact h.held l hl hG hLive x hOld.1 hxKey
  lease := by
    intro x hx hG hHeld
    cases hr.mem_keyed p.key h.keyed x hx with
    | inl hEq =>
      subst hEq
      rw [hKey] at hG ⊢
      obtain hIdle | hSame := hSafe hG
      · exact absurd hHeld hIdle.2
      · exact h.lease r hr.mem_old hG (hSame.1.mp hHeld)
    | inr hOld => exact h.lease x hOld.1 hG hHeld
  apart := h.apart
  bounded := h.bounded

theorem refresh (h : Exclusive p guarded resources leases next) {l' : Lease} (hl : Replaces l l' leases leases')
    (hSame : p.SameLease l l') (hLive : p.live l' ↔ p.live l) :
    Exclusive p guarded resources leases' next where
  keyed := h.keyed
  known := by
    intro m hm
    cases hl.mem_or m hm with
    | inl hEq =>
      subst hEq
      rw [hSame.resource]
      exact h.known l hl.mem_old
    | inr hm => exact h.known m hm
  held := by
    intro m hm
    cases hl.mem_or m hm with
    | inl hEq =>
      subst hEq
      rw [hSame.resource, hSame.owner, hLive]
      exact h.held l hl.mem_old
    | inr hm => exact h.held m hm
  lease := by
    intro r hr hG hHeld
    obtain ⟨m, hm, hRes, hmLive⟩ := h.lease r hr hG hHeld
    by_cases hEq : m = l
    · subst hEq
      exact ⟨l', hl.mem_new, hSame.resource.trans hRes, hLive.mpr hmLive⟩
    · exact ⟨m, hl.mem_of_ne m hm hEq, hRes, hmLive⟩
  apart := hl.pairwise _ h.apart (fun _ _ => (Protocol.Apart.replace hSame hLive.mp).1)
    (fun _ _ => (Protocol.Apart.replace hSame hLive.mp).2)
  bounded := by
    intro m hm
    cases hl.mem_or m hm with
    | inl hEq =>
      subst hEq
      rw [hSame.resource, hSame.generation]
      exact h.bounded l hl.mem_old
    | inr hm => exact h.bounded m hm

theorem grant [DecidableEq Key] (h : Exclusive p guarded resources leases next)
    (hr : Replaces r r' resources resources') (hKey : p.key r' = p.key r) (hIdle : guarded (p.key r) → ¬ p.held r)
    (hHeld : p.held r') (hHolder : p.holder r' = some (p.owner l)) (hRes : p.resource l = p.key r)
    (hLive : p.live l) (hGen : next (p.key r) ≤ p.generation l) :
    Exclusive p guarded resources' (leases ++ [l])
      (Function.update next (p.key r) (p.generation l + 1)) where
  keyed := hr.keyed p.key h.keyed hKey
  known := by
    intro m hm
    apply hr.exists_key p.key hKey
    cases List.mem_append.mp hm with
    | inl hm => exact h.known m hm
    | inr hm =>
      rw [List.mem_singleton.mp hm, hRes]
      exact ⟨r, hr.mem_old, rfl⟩
  held := by
    intro m hm hG hmLive x hx hxKey
    cases List.mem_append.mp hm with
    | inl hm =>
      cases hr.mem_keyed p.key h.keyed x hx with
      | inl hEq =>
        subst hEq
        -- an old lease on the resource is not live, since nobody held it
        have hrKey : p.key r = p.resource m := hKey.symm.trans hxKey
        exact absurd (h.held m hm hG hmLive r hr.mem_old hrKey).1 (hIdle (hrKey ▸ hG))
      | inr hOld => exact h.held m hm hG hmLive x hOld.1 hxKey
    | inr hm =>
      have hml := List.mem_singleton.mp hm
      subst hml
      cases hr.mem_keyed p.key h.keyed x hx with
      | inl hEq =>
        subst hEq
        exact ⟨hHeld, hHolder⟩
      | inr hOld => exact absurd (hxKey.trans hRes) hOld.2
  lease := by
    intro x hx hG hxHeld
    cases hr.mem_keyed p.key h.keyed x hx with
    | inl hEq =>
      subst hEq
      exact ⟨l, List.mem_append_right _ List.mem_cons_self, hRes.trans hKey.symm, hLive⟩
    | inr hOld =>
      obtain ⟨m, hm, hmRes, hmLive⟩ := h.lease x hOld.1 hG hxHeld
      exact ⟨m, List.mem_append_left _ hm, hmRes, hmLive⟩
  apart := by
    rw [List.pairwise_append]
    refine ⟨h.apart, List.pairwise_singleton _ _, ?_⟩
    intro m hm x hx hSame
    rw [List.mem_singleton.mp hx] at hSame ⊢
    have hBound := h.bounded m hm
    rw [hSame, hRes] at hBound
    refine ⟨by omega, ?_⟩
    intro hG hBoth
    have hmKey : p.key r = p.resource m := (hSame.trans hRes).symm
    exact hIdle (hmKey ▸ hG) (h.held m hm hG hBoth.1 r hr.mem_old hmKey).1
  bounded := by
    intro m hm
    cases List.mem_append.mp hm with
    | inl hm =>
      have hBound := h.bounded m hm
      by_cases hmKey : p.resource m = p.key r
      · rw [hmKey, Function.update_self]
        rw [hmKey] at hBound
        omega
      · rw [Function.update_of_ne hmKey]
        exact hBound
    | inr hm =>
      rw [List.mem_singleton.mp hm, hRes, Function.update_self]
      omega

theorem release (h : Exclusive p guarded resources leases next) {l' : Lease} (hl : Replaces l l' leases leases')
    (hr : Replaces r r' resources resources') (hKey : p.key r' = p.key r) (hRes : p.resource l = p.key r)
    (hSame : p.SameLease l l') (hLive : guarded (p.key r) → p.live l ∧ ¬ p.live l' ∧ ¬ p.held r') :
    Exclusive p guarded resources' leases' next where
  keyed := hr.keyed p.key h.keyed hKey
  known := by
    intro m hm
    apply hr.exists_key p.key hKey
    cases hl.mem_or m hm with
    | inl hEq =>
      subst hEq
      rw [hSame.resource]
      exact h.known l hl.mem_old
    | inr hm => exact h.known m hm
  held := by
    intro m hm hG hmLive x hx hxKey
    cases hl.mem_cases _ h.apart m hm with
    | inl hEq =>
      subst hEq
      rw [hSame.resource, hRes] at hG
      exact absurd hmLive (hLive hG).2.1
    | inr hOld =>
      cases hr.mem_keyed p.key h.keyed x hx with
      | inl hEq =>
        subst hEq
        -- another live lease on the same resource would have to be apart from the closed one
        have hmRes : p.resource m = p.resource l := by rw [← hxKey, hKey, hRes]
        have hlLive := (hLive (hKey ▸ hxKey ▸ hG)).1
        obtain hA | hA := hOld.2
        · exact absurd ⟨hmLive, hlLive⟩ ((hA hmRes).2 hG)
        · exact absurd ⟨hlLive, hmLive⟩ ((hA hmRes.symm).2 (hmRes ▸ hG))
      | inr hxOld => exact h.held m hOld.1 hG hmLive x hxOld.1 hxKey
  lease := by
    intro x hx hG hxHeld
    cases hr.mem_keyed p.key h.keyed x hx with
    | inl hEq =>
      subst hEq
      exact absurd hxHeld (hLive (hKey ▸ hG)).2.2
    | inr hOld =>
      obtain ⟨m, hm, hmRes, hmLive⟩ := h.lease x hOld.1 hG hxHeld
      have hne : m ≠ l := by
        intro hEq
        subst hEq
        exact hOld.2 (hmRes.symm.trans hRes)
      exact ⟨m, hl.mem_of_ne m hm hne, hmRes, hmLive⟩
  apart := by
    by_cases hG : guarded (p.key r)
    · have hClosed : p.live l' → p.live l := fun hl' => absurd hl' (hLive hG).2.1
      exact hl.pairwise _ h.apart (fun _ _ => (Protocol.Apart.replace hSame hClosed).1)
        (fun _ _ => (Protocol.Apart.replace hSame hClosed).2)
    · -- on a resource that is not guarded only the generations count
      apply hl.pairwise _ h.apart
      · intro m _ hA hmRes
        rw [hSame.resource] at hmRes
        rw [hSame.generation]
        refine ⟨(hA hmRes).1, ?_⟩
        intro hG'
        exact absurd (hRes ▸ hmRes ▸ hG') hG
      · intro m _ hA hmRes
        rw [hSame.resource] at hmRes ⊢
        rw [hSame.generation]
        refine ⟨(hA hmRes).1, ?_⟩
        intro hG'
        exact absurd (hRes ▸ hG') hG
  bounded := by
    intro m hm
    cases hl.mem_or m hm with
    | inl hEq =>
      subst hEq
      rw [hSame.resource, hSame.generation]
      exact h.bounded l hl.mem_old
    | inr hm => exact h.bounded m hm

theorem releaseAll (h : Exclusive p guarded resources leases next) (close : Lease → Lease)
    (hr : Replaces r r' resources resources') (hKey : p.key r' = p.key r) (hGiven : ¬ p.held r')
    (hSame : ∀ l, p.SameLease l (close l)) (hClose : ∀ l, p.live (close l) → p.live l)
    (hHere : ∀ l, p.resource l = p.key r → ¬ p.live (close l)) (hThere : ∀ l, p.resource l ≠ p.key r → close l = l) :
    Exclusive p guarded resources' (leases.map close) next where
  keyed := hr.keyed p.key h.keyed hKey
  known := by
    intro m hm
    obtain ⟨l, hl, rfl⟩ := List.mem_map.mp hm
    rw [(hSame l).resource]
    exact hr.exists_key p.key hKey (h.known l hl)
  held := by
    intro m hm hG hmLive x hx hxKey
    obtain ⟨l, hl, rfl⟩ := List.mem_map.mp hm
    by_cases hRes : p.resource l = p.key r
    · exact absurd hmLive (hHere l hRes)
    · rw [hThere l hRes] at hG hmLive hxKey ⊢
      cases hr.mem_keyed p.key h.keyed x hx with
      | inl hEq =>
        subst hEq
        exact absurd (hxKey.symm.trans hKey) hRes
      | inr hOld => exact h.held l hl hG hmLive x hOld.1 hxKey
  lease := by
    intro x hx hG hxHeld
    cases hr.mem_keyed p.key h.keyed x hx with
    | inl hEq =>
      subst hEq
      exact absurd hxHeld hGiven
    | inr hOld =>
      obtain ⟨l, hl, hlRes, hlLive⟩ := h.lease x hOld.1 hG hxHeld
      have hne : p.resource l ≠ p.key r := by
        rw [hlRes]
        exact hOld.2
      exact ⟨l, List.mem_map.mpr ⟨l, hl, hThere l hne⟩, hlRes, hlLive⟩
  apart := by
    rw [List.pairwise_map]
    apply h.apart.imp
    intro l m hA
    exact (Protocol.Apart.replace (hSame m) (hClose m)).1
      ((Protocol.Apart.replace (hSame l) (hClose l)).2 hA)
  bounded := by
    intro m hm
    obtain ⟨l, hl, rfl⟩ := List.mem_map.mp hm
    rw [(hSame l).resource, (hSame l).generation]
    exact h.bounded l hl

-- What the invariant says of one resource.

theorem live_le_one (h : Exclusive p guarded resources leases next) (k : Key) (hG : guarded k)
    (sel : Lease → Bool) (hSel : ∀ l, sel l = true ↔ p.resource l = k ∧ p.live l) :
    (leases.filter sel).length ≤ 1 := by
  have hPair : (leases.filter sel).Pairwise (fun _ _ => False) := by
    apply (h.apart.sublist (List.filter_sublist (p := sel))).imp_of_mem
    intro l m hl hm hA
    obtain ⟨hlRes, hlLive⟩ := (hSel l).mp (List.mem_filter.mp hl).2
    obtain ⟨hmRes, hmLive⟩ := (hSel m).mp (List.mem_filter.mp hm).2
    exact (hA (hlRes.trans hmRes.symm)).2 (hlRes.symm ▸ hG) ⟨hlLive, hmLive⟩
  match hList : leases.filter sel with
  | [] => simp
  | [_] => simp
  | l :: m :: rest =>
    rw [hList] at hPair
    exact absurd (List.mem_cons_self (a := m) (l := rest)) (List.rel_of_pairwise_cons hPair)

theorem held_iff (h : Exclusive p guarded resources leases next) (r : Resource) (hr : r ∈ resources)
    (hG : guarded (p.key r)) (sel : Lease → Bool)
    (hSel : ∀ l, sel l = true ↔ p.resource l = p.key r ∧ p.live l) :
    p.held r ↔ ∃ l, leases.filter sel = [l] ∧ p.holder r = some (p.owner l) := by
  refine ⟨?_, ?_⟩
  · intro hHeld
    obtain ⟨l, hl, hRes, hLive⟩ := h.lease r hr hG hHeld
    have hMem : l ∈ leases.filter sel := List.mem_filter.mpr ⟨hl, (hSel l).mpr ⟨hRes, hLive⟩⟩
    refine ⟨l, ?_, (h.held l hl (hRes.symm ▸ hG) hLive r hr hRes.symm).2⟩
    have hOne := h.live_le_one (p.key r) hG sel hSel
    match hList : leases.filter sel, hMem, hOne with
    | [m], hMem, _ => rw [List.mem_singleton.mp hMem]
  · intro hOne
    obtain ⟨l, hList, -⟩ := hOne
    have hMem : l ∈ leases.filter sel := by
      rw [hList]
      exact List.mem_cons_self
    obtain ⟨hl, hSelected⟩ := List.mem_filter.mp hMem
    obtain ⟨hRes, hLive⟩ := (hSel l).mp hSelected
    exact (h.held l hl (hRes.symm ▸ hG) hLive r hr hRes.symm).1

theorem generations (h : Exclusive p guarded resources leases next) (k : Key) (sel : Lease → Bool)
    (hSel : ∀ l, sel l = true → p.resource l = k) :
    ((leases.filter sel).map p.generation).Pairwise (· < ·) := by
  rw [List.pairwise_map]
  apply (h.apart.sublist (List.filter_sublist (p := sel))).imp_of_mem
  intro l m hl hm hA
  have hlRes := hSel l (List.mem_filter.mp hl).2
  have hmRes := hSel m (List.mem_filter.mp hm).2
  exact (hA (hlRes.trans hmRes.symm)).1

end Exclusive

end NeroCD.Leasing
