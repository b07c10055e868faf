import Mathlib.Data.Finset.Range
import NeroCD.Redactor

-- The tree that `NewRedactor` builds: its nodes are in bijection with the prefixes of the patterns.

namespace NeroCD.Redaction

-- Reading nodes after a write.

theorem nodeAt_set {nodes : List RedactionNode} {i : Nat} (hi : i < nodes.length) (v : RedactionNode)
    (j : Nat) : nodeAt (nodes.set i v) j = if i = j then v else nodeAt nodes j := by
  simp only [nodeAt, List.getD_eq_getElem?_getD, List.getElem?_set]
  split_ifs <;> simp

theorem nodeAt_modify (nodes : List RedactionNode) {i : Nat} (hi : i < nodes.length)
    (f : RedactionNode → RedactionNode) (j : Nat) :
    nodeAt (nodes.modify i f) j = if i = j then f (nodeAt nodes j) else nodeAt nodes j := by
  simp only [nodeAt, List.getD_eq_getElem?_getD, List.getElem?_modify]
  split_ifs with h
  · subst h
    simp [List.getElem?_eq_getElem hi]
  · simp

-- A sibling chain and the nodes on it, independent of any bound on its length.
inductive Chain (nodes : List RedactionNode) : Nat → List Nat → Prop
  | nil : Chain nodes 0 []
  | cons {c : Nat} {l : List Nat} (hc : c ≠ 0) (hl : Chain nodes (nodeAt nodes c).sibling l) :
      Chain nodes c (c :: l)

theorem Chain.siblings_eq {nodes : List RedactionNode} {c : Nat} {l : List Nat}
    (h : Chain nodes c l) {fuel : Nat} (hfuel : l.length ≤ fuel) : siblings nodes fuel c = l := by
  induction h generalizing fuel with
  | nil => cases fuel <;> simp [siblings]
  | cons hc _ ih =>
    cases fuel with
    | zero => simp at hfuel
    | succ _ =>
      rw [List.length_cons] at hfuel
      rw [siblings, if_neg hc, ih (by omega)]

theorem Chain.congr {nodes nodes' : List RedactionNode} {c : Nat} {l : List Nat}
    (h : Chain nodes c l)
    (hsib : ∀ j ∈ l, (nodeAt nodes' j).sibling = (nodeAt nodes j).sibling) : Chain nodes' c l := by
  induction h with
  | nil => exact .nil
  | cons hc _ ih =>
    refine .cons hc ?_
    rw [hsib _ List.mem_cons_self]
    exact ih fun j hj => hsib j (List.mem_cons_of_mem _ hj)

-- The first `n` nodes form a tree in which node `i` stands for the word `word i`.
structure Shape (nodes : List RedactionNode) (n : Nat) (word : Nat → Bytes) : Prop where
  pos : 0 < n
  bound : n ≤ nodes.length
  root : word 0 = []
  inj : ∀ i j, i < n → j < n → word i = word j → i = j
  parent : ∀ j, 0 < j → j < n → ∃ i < j, word j = word i ++ [(nodeAt nodes j).label]
  chain : ∀ i < n, ∃ l : List Nat, l.Nodup ∧ Chain nodes (nodeAt nodes i).child l ∧
    ∀ j, j ∈ l ↔ 0 < j ∧ j < n ∧ ∃ a, word j = word i ++ [a]

namespace Shape

variable {nodes nodes' : List RedactionNode} {n : Nat} {word : Nat → Bytes}

theorem congr (h : Shape nodes n word) (hlen : nodes'.length = nodes.length)
    (hsame : ∀ j, (nodeAt nodes' j).label = (nodeAt nodes j).label ∧
      (nodeAt nodes' j).child = (nodeAt nodes j).child ∧
      (nodeAt nodes' j).sibling = (nodeAt nodes j).sibling) : Shape nodes' n word where
  pos := h.pos
  bound := hlen ▸ h.bound
  root := h.root
  inj := h.inj
  parent := by
    intro j hj hjn
    rw [(hsame j).1]
    exact h.parent j hj hjn
  chain := by
    intro i hi
    obtain ⟨l, hnodup, hchain, hmem⟩ := h.chain i hi
    refine ⟨l, hnodup, ?_, hmem⟩
    rw [(hsame i).2.1]
    exact hchain.congr fun j _ => (hsame j).2.2

variable {j i : Nat}

theorem ne_nil_of_pos (h : Shape nodes n word) (hj : 0 < j) (hjn : j < n) : word j ≠ [] := by
  intro hnil
  have := h.inj j 0 hjn h.pos (by rw [hnil, h.root])
  omega

-- A parent comes before its children, so no word is longer than the index of its node.
theorem length_word_le (h : Shape nodes n word) (hj : j < n) : (word j).length ≤ j := by
  induction j using Nat.strong_induction_on with
  | _ j ih =>
    rcases Nat.eq_zero_or_pos j with rfl | hpos
    · simp [h.root]
    · obtain ⟨i, hi, hword⟩ := h.parent j hpos hj
      have := ih i hi (by omega)
      rw [hword, List.length_append, List.length_singleton]
      omega

theorem children_spec (h : Shape nodes n word) (hi : i < n) :
    (children nodes i).Nodup ∧
    ∀ j, j ∈ children nodes i ↔ 0 < j ∧ j < n ∧ ∃ a, word j = word i ++ [a] := by
  obtain ⟨l, hnodup, hchain, hmem⟩ := h.chain i hi
  -- the chain visits distinct nodes, so the number of nodes bounds it
  have hsub : l ⊆ List.range n := fun j hj => List.mem_range.mpr ((hmem j).mp hj).2.1
  have hlen : l.length ≤ n := by simpa using (hnodup.subperm hsub).length_le
  have hbound := h.bound
  rw [children, hchain.siblings_eq (by omega)]
  exact ⟨hnodup, hmem⟩

theorem label_eq (h : Shape nodes n word) (hj : 0 < j) (hjn : j < n) {a : UInt8} (hword : word j = word i ++ [a]) :
    (nodeAt nodes j).label = a := by
  obtain ⟨k, -, hk⟩ := h.parent j hj hjn
  rw [hword] at hk
  simpa using (List.append_inj' hk rfl).2.symm

theorem childOf_spec (h : Shape nodes n word) (hi : i < n) (a : UInt8) :
    (childOf nodes i a = 0 ∧ ∀ j < n, word j ≠ word i ++ [a]) ∨
    (childOf nodes i a ≠ 0 ∧ childOf nodes i a < n ∧ word (childOf nodes i a) = word i ++ [a]) := by
  obtain ⟨-, hmem⟩ := h.children_spec hi
  simp only [childOf]
  cases hfind : (children nodes i).find? fun child => (nodeAt nodes child).label == a with
  | none =>
    left
    refine ⟨rfl, ?_⟩
    intro j hj hword
    have hpos : 0 < j := by
      rcases Nat.eq_zero_or_pos j with rfl | hpos
      · rw [h.root] at hword
        simp at hword
      · exact hpos
    have hnone := List.find?_eq_none.mp hfind j ((hmem j).mpr ⟨hpos, hj, a, hword⟩)
    exact hnone (by simp [h.label_eq hpos hj hword])
  | some c =>
    right
    obtain ⟨hpos, hcn, b, hword⟩ := (hmem c).mp (List.mem_of_find?_eq_some hfind)
    have hlabel : (nodeAt nodes c).label = a := by simpa using List.find?_some hfind
    rw [h.label_eq hpos hcn hword] at hlabel
    subst hlabel
    exact ⟨by simp only [Option.getD_some]; omega, hcn, hword⟩

theorem child_eq_zero_iff (h : Shape nodes n word) (hi : i < n) :
    (nodeAt nodes i).child = 0 ↔ ∀ j < n, ∀ a, word j ≠ word i ++ [a] := by
  obtain ⟨l, -, hchain, hmem⟩ := h.chain i hi
  constructor
  · intro hzero j hj a hword
    rw [hzero] at hchain
    have hpos : j ≠ 0 := by
      rintro rfl
      rw [h.root] at hword
      simp at hword
    cases hchain with
    | nil => simpa using (hmem j).mpr ⟨by omega, hj, a, hword⟩
    | cons hc _ => exact hc rfl
  · intro hleaf
    generalize hc : (nodeAt nodes i).child = c at hchain
    cases hchain with
    | nil => rfl
    | cons _ _ =>
      obtain ⟨-, hcn, a, hword⟩ := (hmem c).mp List.mem_cons_self
      exact absurd hword (hleaf c hcn a)

theorem extend (h : Shape nodes n word) {p : Nat} (hp : p < n) {a : UInt8}
    (hroom : n < nodes.length) (hfresh : ∀ j < n, word j ≠ word p ++ [a])
    (hlen : nodes'.length = nodes.length)
    (hnew : (nodeAt nodes' n).label = a ∧ (nodeAt nodes' n).child = 0 ∧
      (nodeAt nodes' n).sibling = (nodeAt nodes p).child)
    (hold : ∀ j < n, (nodeAt nodes' j).label = (nodeAt nodes j).label ∧
      (nodeAt nodes' j).sibling = (nodeAt nodes j).sibling ∧
      (nodeAt nodes' j).child = if j = p then n else (nodeAt nodes j).child) :
    Shape nodes' (n + 1) (Function.update word n (word p ++ [a])) := by
  set word' := Function.update word n (word p ++ [a]) with hword'
  have hlt : ∀ j, j < n → word' j = word j := fun j hj => Function.update_of_ne (by omega) _ _
  have hn : word' n = word p ++ [a] := Function.update_self _ _ _
  have hpos := h.pos
  refine ⟨by omega, by omega, by rw [hlt 0 hpos, h.root], ?_, ?_, ?_⟩
  · intro i j hi hj heq
    rcases Nat.lt_succ_iff_lt_or_eq.mp hi with hi | rfl <;>
      rcases Nat.lt_succ_iff_lt_or_eq.mp hj with hj | rfl
    · rw [hlt i hi, hlt j hj] at heq
      exact h.inj i j hi hj heq
    · rw [hlt i hi, hn] at heq
      exact absurd heq (hfresh i hi)
    · rw [hlt j hj, hn] at heq
      exact absurd heq.symm (hfresh j hj)
    · rfl
  · intro j hj hjn
    rcases Nat.lt_succ_iff_lt_or_eq.mp hjn with hjn | rfl
    · obtain ⟨i, hi, hword⟩ := h.parent j hj hjn
      exact ⟨i, hi, by rw [hlt j hjn, hlt i (by omega), (hold j hjn).1, hword]⟩
    · exact ⟨p, by omega, by rw [hn, hlt p hp, hnew.1]⟩
  · intro i hi
    rcases Nat.lt_succ_iff_lt_or_eq.mp hi with hi | rfl
    · obtain ⟨l, hnodup, hchain, hmem⟩ := h.chain i hi
      have hlbound : ∀ j ∈ l, j < n := fun j hj => ((hmem j).mp hj).2.1
      have hchain' : Chain nodes' (nodeAt nodes i).child l :=
        hchain.congr fun j hj => (hold j (hlbound j hj)).2.1
      by_cases hip : i = p
      · -- the parent: the new node heads its chain
        subst hip
        refine ⟨n :: l, List.nodup_cons.mpr ⟨fun hmemn => ?_, hnodup⟩, ?_, ?_⟩
        · have := hlbound n hmemn
          omega
        · rw [(hold i hi).2.2, if_pos rfl]
          refine .cons (by omega) ?_
          rw [hnew.2.2]
          exact hchain'
        · intro j
          rw [hlt i hi]
          constructor
          · intro hj
            rcases List.mem_cons.mp hj with rfl | hj
            · exact ⟨by omega, by omega, a, hn⟩
            · obtain ⟨hj0, hjn, b, hb⟩ := (hmem j).mp hj
              exact ⟨hj0, by omega, b, by rw [hlt j hjn, hb]⟩
          · rintro ⟨hj0, hjn, b, hb⟩
            rcases Nat.lt_succ_iff_lt_or_eq.mp hjn with hjn | rfl
            · exact List.mem_cons_of_mem n ((hmem j).mpr ⟨hj0, hjn, b, by rw [← hlt j hjn, hb]⟩)
            · exact List.mem_cons_self
      · -- any other old node keeps its chain
        refine ⟨l, hnodup, by rw [(hold i hi).2.2, if_neg hip]; exact hchain', ?_⟩
        intro j
        rw [hmem j, hlt i hi]
        constructor
        · rintro ⟨hj0, hjn, b, hb⟩
          exact ⟨hj0, by omega, b, by rw [hlt j hjn, hb]⟩
        · rintro ⟨hj0, hjn, b, hb⟩
          rcases Nat.lt_succ_iff_lt_or_eq.mp hjn with hjn | rfl
          · exact ⟨hj0, hjn, b, by rw [← hlt j hjn, hb]⟩
          · rw [hn] at hb
            exact absurd (h.inj p i hp hi (List.append_inj_left' hb rfl)).symm hip
    · -- the new node is a leaf
      refine ⟨[], List.nodup_nil, by rw [hnew.2.1]; exact .nil, ?_⟩
      intro j
      rw [hn]
      constructor
      · simp
      · rintro ⟨hj0, hjn, b, hb⟩
        rcases Nat.lt_succ_iff_lt_or_eq.mp hjn with hjn | rfl
        · obtain ⟨k, hk, hkj⟩ := h.parent j hj0 hjn
          rw [hlt j hjn, hkj] at hb
          exact absurd (List.append_inj_left' hb rfl) (hfresh k (by omega))
        · rw [hn] at hb
          simp at hb

end Shape

end NeroCD.Redaction
