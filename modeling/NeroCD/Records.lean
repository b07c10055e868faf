import Mathlib.Data.List.Nodup

-- Lists of records that loops overwrite in place: the first record that satisfies a condition, the
-- record at an index, or every record that satisfies a condition.

namespace NeroCD.Records

variable {α κ : Type}

-- `for i, x := range l { if p(x) { l[i] = f(x); break } }`.
def updateFirst (p : α → Bool) (f : α → α) : List α → List α
  | [] => []
  | x :: rest => if p x then f x :: rest else x :: updateFirst p f rest

-- `for i, x := range l { if p(x) { l[i] = f(x) } }`.
def updateAll (p : α → Bool) (f : α → α) (l : List α) : List α :=
  l.map (fun x => if p x then f x else x)

-- `l'` is `l` with the record `x` at one position overwritten by `y`.
def Replaces (x y : α) (l l' : List α) : Prop :=
  ∃ before after, l = before ++ x :: after ∧ l' = before ++ y :: after

def Keyed (key : α → κ) (l : List α) : Prop := l.Pairwise (fun a b => key a ≠ key b)

theorem updateFirst_eq_self (p : α → Bool) (f : α → α) (l : List α) (h : l.find? p = none) :
    updateFirst p f l = l := by
  induction l with
  | nil => rfl
  | cons a _ ih =>
    rw [List.find?_cons] at h
    cases hp : p a with
    | true => simp [hp] at h
    | false =>
      simp only [hp] at h
      simp [updateFirst, hp, ih h]

theorem replaces_updateFirst (p : α → Bool) (f : α → α) (l : List α) (x : α)
    (h : l.find? p = some x) : Replaces x (f x) l (updateFirst p f l) := by
  induction l with
  | nil => simp at h
  | cons a rest ih =>
    rw [List.find?_cons] at h
    cases hp : p a with
    | true =>
      simp only [hp, Option.some.injEq] at h
      subst h
      exact ⟨[], rest, rfl, by simp [updateFirst, hp]⟩
    | false =>
      simp only [hp] at h
      obtain ⟨before, after, hl, hl'⟩ := ih h
      exact ⟨a :: before, after, by simp [← hl], by simp [updateFirst, hp, hl']⟩

theorem find?_updateFirst (p q : α → Bool) (f : α → α) (l : List α) (x : α) (hx : l.find? p = some x)
    (hq : q x = false) (hf : ∀ z, p (f z) = p z) : (updateFirst q f l).find? p = some x := by
  induction l with
  | nil => simp at hx
  | cons a _ ih =>
    rw [List.find?_cons] at hx
    unfold updateFirst
    cases hp : p a with
    | true =>
      rw [hp] at hx
      cases hx
      rw [hq, if_neg Bool.false_ne_true, List.find?_cons, hp]
    | false =>
      rw [hp] at hx
      split
      · rw [List.find?_cons, hf, hp]
        exact hx
      · rw [List.find?_cons, hp]
        exact ih hx

theorem find?_updateFirst_self (p : α → Bool) (f : α → α) (l : List α) (x : α) (hx : l.find? p = some x)
    (hf : p (f x) = true) : (updateFirst p f l).find? p = some (f x) := by
  induction l with
  | nil => cases hx
  | cons a _ ih =>
    unfold updateFirst
    cases hp : p a with
    | true =>
      rw [List.find?_cons_of_pos hp, Option.some.injEq] at hx
      subst hx
      rw [if_pos rfl, List.find?_cons_of_pos hf]
    | false =>
      have hNot : ¬ p a = true := by simp [hp]
      rw [List.find?_cons_of_neg hNot] at hx
      rw [if_neg Bool.false_ne_true, List.find?_cons_of_neg hNot]
      exact ih hx

theorem updateFirst_eq_self_iff (p : α → Bool) (f : α → α) (l : List α) (x : α) (h : l.find? p = some x) :
    updateFirst p f l = l ↔ f x = x := by
  obtain ⟨before, after, hl, hUpdated⟩ := replaces_updateFirst p f l x h
  rw [hUpdated, hl, List.append_cancel_left_eq, List.cons.injEq]
  exact and_iff_left rfl

theorem updateFirst_updateFirst (p : α → Bool) (f g : α → α) (l : List α) (hf : ∀ x, p x = true → p (f x) = true) :
    updateFirst p g (updateFirst p f l) = updateFirst p (fun x => g (f x)) l := by
  induction l with
  | nil => rfl
  | cons a _ ih =>
    cases hp : p a with
    | true => simp [updateFirst, hp, hf a hp]
    | false => simp [updateFirst, hp, ih]

theorem replaces_set (l : List α) (i : Nat) (x y : α) (h : l[i]? = some x) :
    Replaces x y l (l.set i y) := by
  induction l generalizing i with
  | nil => simp at h
  | cons a rest ih =>
    cases i with
    | zero =>
      simp only [List.getElem?_cons_zero, Option.some.injEq] at h
      subst h
      exact ⟨[], rest, rfl, rfl⟩
    | succ i =>
      obtain ⟨before, after, hl, hl'⟩ := ih i (by simpa using h)
      exact ⟨a :: before, after, by simp [← hl], by simp [hl']⟩

theorem updateAll_eq_self (p : α → Bool) (f : α → α) (l : List α) (h : ∀ z ∈ l, p z = false) :
    updateAll p f l = l := by
  unfold updateAll
  conv => rhs; rw [← List.map_id l]
  apply List.map_congr_left
  intro z hz
  simp [h z hz]

theorem replaces_updateAll (key : α → κ) (p : α → Bool) (f : α → α) (l : List α) (x : α)
    (hKeyed : Keyed key l) (hx : x ∈ l) (hp : p x = true) (hOnly : ∀ z ∈ l, p z = true → key z = key x) :
    Replaces x (f x) l (updateAll p f l) := by
  obtain ⟨before, after, hl⟩ := List.append_of_mem hx
  subst hl
  unfold Keyed at hKeyed
  rw [List.pairwise_append, List.pairwise_cons] at hKeyed
  obtain ⟨-, ⟨hAfter, -⟩, hBefore⟩ := hKeyed
  have hb : updateAll p f before = before := by
    apply updateAll_eq_self
    intro z hz
    rw [← Bool.not_eq_true]
    intro hpz
    exact hBefore z hz x List.mem_cons_self (hOnly z (List.mem_append_left _ hz) hpz)
  have ha : updateAll p f after = after := by
    apply updateAll_eq_self
    intro z hz
    rw [← Bool.not_eq_true]
    intro hpz
    exact hAfter z hz (hOnly z (List.mem_append_right _ (List.mem_cons_of_mem _ hz)) hpz).symm
  refine ⟨before, after, rfl, ?_⟩
  unfold updateAll at hb ha ⊢
  rw [List.map_append, List.map_cons, hb, ha, hp, if_pos rfl]

theorem mem_updateAll (p : α → Bool) (f : α → α) (l : List α) (z : α) (h : z ∈ updateAll p f l) :
    (z ∈ l ∧ p z = false) ∨ ∃ x ∈ l, p x = true ∧ z = f x := by
  unfold updateAll at h
  obtain ⟨x, hx, rfl⟩ := List.mem_map.mp h
  cases hp : p x with
  | true => exact .inr ⟨x, hx, hp, by simp⟩
  | false => exact .inl ⟨by simpa using hx, by simpa using hp⟩

namespace Replaces

variable {x y : α} {l l' : List α}

theorem mem_old (h : Replaces x y l l') : x ∈ l := by
  obtain ⟨before, after, rfl, rfl⟩ := h
  exact List.mem_append_right _ List.mem_cons_self

theorem self (h : x ∈ l) : Replaces x x l l := by
  obtain ⟨before, after, rfl⟩ := List.append_of_mem h
  exact ⟨before, after, rfl, rfl⟩

theorem mem_new (h : Replaces x y l l') : y ∈ l' := by
  obtain ⟨before, after, rfl, rfl⟩ := h
  exact List.mem_append_right _ List.mem_cons_self

theorem symm (h : Replaces x y l l') : Replaces y x l' l := by
  obtain ⟨before, after, hl, hl'⟩ := h
  exact ⟨before, after, hl', hl⟩

theorem mem_cases (h : Replaces x y l l') (R : α → α → Prop) (hl : l.Pairwise R) (z : α) (hz : z ∈ l') :
    z = y ∨ z ∈ l ∧ (R z x ∨ R x z) := by
  obtain ⟨before, after, rfl, rfl⟩ := h
  rw [List.pairwise_append, List.pairwise_cons] at hl
  obtain ⟨-, ⟨hAfter, -⟩, hBefore⟩ := hl
  rw [List.mem_append, List.mem_cons] at hz
  obtain hz | hz | hz := hz
  · exact .inr ⟨List.mem_append_left _ hz, .inl (hBefore z hz x List.mem_cons_self)⟩
  · exact .inl hz
  · exact .inr ⟨List.mem_append_right _ (List.mem_cons_of_mem _ hz), .inr (hAfter z hz)⟩

theorem mem_or (h : Replaces x y l l') (z : α) (hz : z ∈ l') : z = y ∨ z ∈ l := by
  have := h.mem_cases (fun _ _ => True) (List.pairwise_of_forall fun _ _ => trivial) z hz
  exact this.imp_right And.left

theorem mem_keyed (h : Replaces x y l l') (key : α → κ) (hl : Keyed key l) (z : α) (hz : z ∈ l') :
    z = y ∨ z ∈ l ∧ key z ≠ key x := by
  cases h.mem_cases _ hl z hz with
  | inl hEq => exact .inl hEq
  | inr hOld => exact .inr ⟨hOld.1, hOld.2.elim id Ne.symm⟩

theorem mem_of_ne (h : Replaces x y l l') (z : α) (hz : z ∈ l) (hne : z ≠ x) : z ∈ l' := by
  obtain ⟨before, after, rfl, rfl⟩ := h
  simp only [List.mem_append, List.mem_cons] at hz ⊢
  obtain hz | hz | hz := hz
  · exact .inl hz
  · exact absurd hz hne
  · exact .inr (.inr hz)

theorem mem_of_countP (h : Replaces x y l l') (p : α → Bool) (hp : p x = true) (hCount : l.countP p ≤ 1) (z : α)
    (hz : z ∈ l') : z = y ∨ (z ∈ l ∧ p z = false) := by
  obtain ⟨before, after, rfl, rfl⟩ := h
  rw [List.countP_append, List.countP_cons_of_pos hp] at hCount
  have hNone {rest : List α} (hRest : rest.countP p = 0) (hMem : z ∈ rest) : p z = false :=
    Bool.eq_false_iff.mpr (List.countP_eq_zero.mp hRest z hMem)
  simp only [List.mem_append, List.mem_cons] at hz ⊢
  obtain hz | hz | hz := hz
  · exact .inr ⟨.inl hz, hNone (by omega) hz⟩
  · exact .inl hz
  · exact .inr ⟨.inr (.inr hz), hNone (by omega) hz⟩

theorem countP_eq (h : Replaces x y l l') (p : α → Bool) :
    l'.countP p + (if p x then 1 else 0) = l.countP p + (if p y then 1 else 0) := by
  obtain ⟨before, after, rfl, rfl⟩ := h
  rw [List.countP_append, List.countP_append, List.countP_cons, List.countP_cons]
  omega

theorem map_eq (h : Replaces x y l l') {β : Type} (f : α → β) (hf : f y = f x) : l'.map f = l.map f := by
  obtain ⟨before, after, rfl, rfl⟩ := h
  simp [hf]

theorem exists_key (h : Replaces x y l l') (key : α → κ) (hKey : key y = key x) {k : κ}
    (hk : ∃ z ∈ l, key z = k) : ∃ z ∈ l', key z = k := by
  rw [← List.mem_map, h.map_eq key hKey]
  exact List.mem_map.mpr hk

theorem fresh_key (h : Replaces x y l l') (key : α → κ) (hKey : key y = key x) {k : κ}
    (hk : ∀ z ∈ l, key z ≠ k) : ∀ z ∈ l', key z ≠ k := by
  intro z hz hEq
  obtain ⟨w, hw, hwEq⟩ := h.symm.exists_key key hKey.symm ⟨z, hz, hEq⟩
  exact hk w hw hwEq

theorem pairwise (h : Replaces x y l l') (R : α → α → Prop) (hl : l.Pairwise R)
    (hLeft : ∀ z ∈ l, R z x → R z y) (hRight : ∀ z ∈ l, R x z → R y z) : l'.Pairwise R := by
  obtain ⟨before, after, rfl, rfl⟩ := h
  rw [List.pairwise_append, List.pairwise_cons] at hl ⊢
  obtain ⟨hPre, ⟨hAfter, hPost⟩, hCross⟩ := hl
  refine ⟨hPre, ⟨?_, hPost⟩, ?_⟩
  · intro z hz
    exact hRight z (List.mem_append_right _ (List.mem_cons_of_mem _ hz)) (hAfter z hz)
  · intro z hz w hw
    cases List.mem_cons.mp hw with
    | inl hEq =>
      subst hEq
      exact hLeft z (List.mem_append_left _ hz) (hCross z hz x List.mem_cons_self)
    | inr hw => exact hCross z hz w (List.mem_cons_of_mem _ hw)

theorem keyed (h : Replaces x y l l') (key : α → κ) (hl : Keyed key l) (hKey : key y = key x) :
    Keyed key l' := by
  apply h.pairwise _ hl
  · intro z _ hz
    rwa [hKey]
  · intro z _ hz
    rwa [hKey]

end Replaces

theorem keyed_iff_nodup (key : α → κ) (l : List α) : Keyed key l ↔ (l.map key).Nodup := by
  unfold Keyed List.Nodup
  rw [List.pairwise_map]

variable {l l' : List α} {R : α → α → Prop}

theorem Keyed.eq {key : α → κ} (h : Keyed key l) {a b : α} (ha : a ∈ l) (hb : b ∈ l) (hab : key a = key b) : a = b :=
  List.inj_on_of_nodup_map ((keyed_iff_nodup key l).mp h) ha hb hab

-- Lists that are related record by record.

theorem Replaces.forall₂ {x y : α} (h : Replaces x y l l') (R : α → α → Prop) (hRefl : ∀ z, R z z) (hxy : R x y) :
    List.Forall₂ R l l' := by
  obtain ⟨before, after, rfl, rfl⟩ := h
  have hSame (rest : List α) : List.Forall₂ R rest rest := List.forall₂_same.mpr (fun z _ => hRefl z)
  exact List.rel_append (hSame before) (.cons hxy (hSame after))

theorem forall₂_updateFirst (p : α → Bool) (f : α → α) (l : List α) (R : α → α → Prop)
    (hRefl : ∀ z, R z z) (hf : ∀ z, p z = true → R z (f z)) : List.Forall₂ R l (updateFirst p f l) := by
  cases hFind : l.find? p with
  | none =>
    rw [updateFirst_eq_self p f l hFind]
    exact List.forall₂_same.mpr fun z _ => hRefl z
  | some x => exact (replaces_updateFirst p f l x hFind).forall₂ R hRefl (hf x (List.find?_some hFind))

theorem forall₂_updateAll (p : α → Bool) (f : α → α) (l : List α) (R : α → α → Prop) (hRefl : ∀ z, R z z)
    (hf : ∀ z, p z = true → R z (f z)) : List.Forall₂ R l (updateAll p f l) := by
  unfold updateAll
  rw [List.forall₂_map_right_iff]
  apply List.forall₂_same.mpr
  intro z _
  split
  · rename_i hp
    exact hf z hp
  · exact hRefl z

theorem forall₂_trans (hTrans : ∀ x y z, R x y → R y z → R x z) {l'' : List α} (h : List.Forall₂ R l l')
    (h' : List.Forall₂ R l' l'') : List.Forall₂ R l l'' := by
  induction h generalizing l'' with
  | nil => exact h'
  | cons hxy _ ih =>
    cases h' with
    | cons hyz hRest => exact .cons (hTrans _ _ _ hxy hyz) (ih hRest)

theorem exists_of_forall₂_left (h : List.Forall₂ R l l') (x : α) (hx : x ∈ l) : ∃ y ∈ l', R x y := by
  induction h with
  | nil => simp at hx
  | cons hR _ ih =>
    cases List.mem_cons.mp hx with
    | inl hEq => exact ⟨_, List.mem_cons_self, hEq ▸ hR⟩
    | inr hRest =>
      obtain ⟨y, hy, hRy⟩ := ih hRest
      exact ⟨y, List.mem_cons_of_mem _ hy, hRy⟩

theorem exists_of_forall₂_right (h : List.Forall₂ R l l') (y : α) (hy : y ∈ l') : ∃ x ∈ l, R x y :=
  exists_of_forall₂_left (R := fun y x => R x y) h.flip y hy

theorem map_eq_of_forall₂ {β : Type} (h : List.Forall₂ R l l') (f : α → β) (hf : ∀ x y, R x y → f y = f x) :
    l'.map f = l.map f := by
  induction h with
  | nil => rfl
  | cons hR _ ih => rw [List.map_cons, List.map_cons, ih, hf _ _ hR]

theorem countP_le_of_forall₂ (h : List.Forall₂ R l l') {p : α → Bool}
    (hp : ∀ x y, R x y → p y = true → p x = true) : l'.countP p ≤ l.countP p := by
  induction h with
  | nil => exact Nat.le_refl _
  | @cons x y _ _ hR _ ih =>
    have := hp x y hR
    rw [List.countP_cons, List.countP_cons]
    split <;> split <;> first | omega | simp_all

theorem Keyed.find?_eq {key : α → κ} (h : Keyed key l) {p : α → Bool} {x : α} (hx : x ∈ l) (hp : p x = true)
    (hOnly : ∀ z ∈ l, p z = true → key z = key x) : l.find? p = some x := by
  cases hFind : l.find? p with
  | none => exact absurd hp (List.find?_eq_none.mp hFind x hx)
  | some z =>
    have hz := List.mem_of_find?_eq_some hFind
    rw [h.eq hz hx (hOnly z hz (List.find?_some hFind))]

end NeroCD.Records
