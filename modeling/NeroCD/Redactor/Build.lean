import NeroCD.Redactor.Trie

-- The construction loop of `NewRedactor`.  The patterns come sorted, so a prefix shared with any earlier pattern is
-- shared with the one just before, and every node the loop creates is for a new word.

namespace NeroCD.Redaction

theorem prefix_of_between {u q m p : Bytes} (hq : u <+: q) (hp : u <+: p) (hqm : q ≤ m) (hmp : m ≤ p) :
    u <+: m := by
  induction u generalizing q m p with
  | nil => exact List.nil_prefix
  | cons a u ih =>
    obtain ⟨q', rfl⟩ := hq
    obtain ⟨p', rfl⟩ := hp
    cases m with
    | nil => simp at hqm
    | cons b m =>
      simp only [List.cons_append, List.cons_le_cons_iff] at hqm hmp
      have hab : a = b := by
        rcases hqm with hlt | ⟨heq, -⟩
        · rcases hmp with hgt | ⟨heq, -⟩
          · exact absurd (UInt8.lt_trans hlt hgt) (UInt8.lt_irrefl a)
          · exact heq.symm
        · exact heq
      subst hab
      simp only [UInt8.lt_irrefl, true_and, false_or] at hqm hmp
      have hrest := ih (List.prefix_append u q') (List.prefix_append u p') hqm hmp
      exact List.cons_prefix_cons.mpr ⟨rfl, hrest⟩

theorem commonRedactionPrefix_spec (a b : Bytes) :
    commonRedactionPrefix a b ≤ a.length ∧ commonRedactionPrefix a b ≤ b.length ∧
    a.take (commonRedactionPrefix a b) = b.take (commonRedactionPrefix a b) ∧
    ∀ w, w <+: a → w <+: b → w.length ≤ commonRedactionPrefix a b := by
  induction a, b using commonRedactionPrefix.induct with
  | case1 _ _ _ ih =>
    obtain ⟨hla, hlb, htake, hmax⟩ := ih
    simp only [commonRedactionPrefix, if_true]
    refine ⟨by simpa using hla, by simpa using hlb, by simpa using htake, ?_⟩
    intro w hwa hwb
    cases w with
    | nil => simp
    | cons c w =>
      have := hmax w (List.cons_prefix_cons.mp hwa).2 (List.cons_prefix_cons.mp hwb).2
      simpa using this
  | case2 _ _ _ _ hne =>
    simp only [commonRedactionPrefix, hne, if_false, Nat.zero_le, List.take_zero, true_and]
    intro w hwa hwb
    cases w with
    | nil => simp
    | cons c w =>
      have hca := (List.cons_prefix_cons.mp hwa).1
      have hcb := (List.cons_prefix_cons.mp hwb).1
      exact absurd (hca.symm.trans hcb) hne
  | case3 a b hnot =>
    have hzero : commonRedactionPrefix a b = 0 := by
      unfold commonRedactionPrefix
      split
      · exact absurd rfl (hnot _ _ _ _ rfl)
      · rfl
    simp only [hzero, Nat.zero_le, List.take_zero, true_and]
    intro w hwa hwb
    cases w with
    | nil => simp
    | cons c w =>
      obtain ⟨a', rfl⟩ := hwa
      obtain ⟨b', rfl⟩ := hwb
      exact absurd rfl (hnot _ _ _ _ rfl)

def newNodes : Bytes → List Bytes → Nat
  | _, [] => 0
  | previous, pattern :: rest =>
    (pattern.length - commonRedactionPrefix previous pattern) + newNodes pattern rest

theorem measurePatterns_count (patterns : List Bytes) :
    (measurePatterns patterns).2 = 1 + newNodes [] patterns := by
  have hfold : ∀ (ps : List Bytes) (longest count : Nat) (previous : Bytes),
      (ps.foldl (fun (m : Nat × Nat × Bytes) pattern =>
        (max m.1 pattern.length, m.2.1 + (pattern.length - commonRedactionPrefix m.2.2 pattern), pattern))
        (longest, count, previous)).2.1 = count + newNodes previous ps := by
    intro ps
    induction ps with
    | nil => simp [newNodes]
    | cons _ _ ih =>
      intro longest count previous
      rw [List.foldl_cons, ih, newNodes, Nat.add_assoc]
  exact hfold patterns 0 1 []

theorem measurePatterns_longest (patterns : List Bytes) :
    (∀ p ∈ patterns, p.length ≤ (measurePatterns patterns).1) ∧
    ((measurePatterns patterns).1 = 0 ∨ ∃ p ∈ patterns, p.length = (measurePatterns patterns).1) := by
  have hfold : ∀ (ps : List Bytes) (m : Nat × Nat × Bytes),
      (ps.foldl (fun (m : Nat × Nat × Bytes) pattern =>
        (max m.1 pattern.length, m.2.1 + (pattern.length - commonRedactionPrefix m.2.2 pattern), pattern))
        m).1 = ps.foldl (fun l p => max l p.length) m.1 := by
    intro ps
    induction ps with
    | nil => simp
    | cons _ _ ih =>
      intro m
      rw [List.foldl_cons, ih, List.foldl_cons]
  have hmax : ∀ (ps : List Bytes) (l : Nat),
      l ≤ ps.foldl (fun l p => max l p.length) l ∧
      (∀ p ∈ ps, p.length ≤ ps.foldl (fun l p => max l p.length) l) ∧
      (ps.foldl (fun l p => max l p.length) l = l ∨
        ∃ p ∈ ps, p.length = ps.foldl (fun l p => max l p.length) l) := by
    intro ps
    induction ps with
    | nil => simp
    | cons p _ ih =>
      intro l
      obtain ⟨hle, hall, hatt⟩ := ih (max l p.length)
      rw [List.foldl_cons]
      refine ⟨by omega, ?_, ?_⟩
      · intro q hq
        rcases List.mem_cons.mp hq with rfl | hq
        · omega
        · exact hall q hq
      · rcases hatt with heq | ⟨q, hq, heq⟩
        · rw [heq]
          rcases Nat.le_total l p.length with hlp | hlp
          · exact .inr ⟨p, List.mem_cons_self, by omega⟩
          · exact .inl (by omega)
        · exact .inr ⟨q, List.mem_cons_of_mem p hq, heq⟩
  simp only [measurePatterns, hfold]
  exact ⟨(hmax patterns 0).2.1, (hmax patterns 0).2.2⟩

-- After `done` and the prefix `cur` of the current pattern: the nodes are the prefixes, `path` leads to those of
-- `cur`.
structure BuildInv (b : TrieBuild) (done : List Bytes) (cur : Bytes) (word : Nat → Bytes) : Prop where
  shape : Shape b.nodes b.next word
  paths : ∀ d ≤ cur.length, b.path.getD d 0 < b.next ∧ word (b.path.getD d 0) = cur.take d
  words : ∀ w, (∃ i < b.next, word i = w) ↔ w = [] ∨ (∃ p ∈ done, w <+: p) ∨ w <+: cur
  payload : ∀ i < b.next, (nodeAt b.nodes i).failure = 0 ∧
    (nodeAt b.nodes i).matchSize = (if word i ∈ done then (word i).length else 0) ∧
    (nodeAt b.nodes i).lookahead = (word i).length

section Loop

variable {b : TrieBuild} {done : List Bytes} {pattern : Bytes} {word : Nat → Bytes} {d : Nat}

theorem take_succ_eq (hd : d < pattern.length) :
    pattern.take (d + 1) = pattern.take d ++ [pattern.getD d 0] := by
  rw [List.take_add_one, List.getD_eq_getElem?_getD, List.getElem?_eq_getElem hd]
  rfl

theorem nodeAt_insertByte (pattern : Bytes) (hroom : b.next < b.nodes.length) (hp : b.path.getD d 0 < b.next) (j : Nat) :
    nodeAt (insertByte pattern b d).nodes j =
      if j = b.next then
        { label := pattern.getD d 0, sibling := (nodeAt b.nodes (b.path.getD d 0)).child, lookahead := d + 1 }
      else if j = b.path.getD d 0 then { nodeAt b.nodes j with child := b.next }
      else nodeAt b.nodes j := by
  simp only [insertByte]
  generalize b.path.getD d 0 = p at hp ⊢
  rw [nodeAt_modify _ (by rw [List.length_set]; omega), nodeAt_set hroom]
  by_cases hj : j = b.next
  · subst hj
    rw [if_neg (by omega), if_pos rfl, if_pos rfl]
  · by_cases hjp : j = p
    · subst hjp
      simp [hj, Ne.symm hj]
    · simp [hj, Ne.symm hj, hjp, Ne.symm hjp]

theorem getD_set_path {path : List Nat} {k v : Nat} (hk : k < path.length) (e : Nat) :
    (path.set k v).getD e 0 = if k = e then v else path.getD e 0 := by
  simp only [List.getD_eq_getElem?_getD, List.getElem?_set]
  split_ifs <;> rfl

theorem insertByte_inv (h : BuildInv b done (pattern.take d) word) (hd : d < pattern.length)
    (hroom : b.next < b.nodes.length) (hpath : pattern.length < b.path.length)
    (hfresh : ∀ p ∈ done, ¬ pattern.take (d + 1) <+: p) :
    BuildInv (insertByte pattern b d) done (pattern.take (d + 1))
      (Function.update word b.next (pattern.take (d + 1))) := by
  have hdlen : (pattern.take d).length = d := List.length_take_of_le (by omega)
  have hsucc := take_succ_eq hd
  have hsucclen : (pattern.take (d + 1)).length = d + 1 := List.length_take_of_le (by omega)
  obtain ⟨hp, hword⟩ := h.paths d (by omega)
  rw [List.take_of_length_le (by omega)] at hword
  -- the word of the new node is new
  have hnew : ∀ j < b.next, word j ≠ pattern.take (d + 1) := by
    intro j hj heq
    rcases (h.words _).mp ⟨j, hj, heq⟩ with hnil | ⟨p, hpd, hpre⟩ | hpre
    · rw [hnil] at hsucclen
      simp at hsucclen
    · exact hfresh p hpd hpre
    · have := hpre.length_le
      omega
  have hnodes := nodeAt_insertByte pattern hroom hp
  have hold : ∀ j < b.next, Function.update word b.next (pattern.take (d + 1)) j = word j :=
    fun j hj => Function.update_of_ne (by omega) _ _
  refine ⟨?_, ?_, ?_, ?_⟩
  · rw [hsucc, ← hword]
    apply h.shape.extend hp hroom
    · intro j hj
      rw [hword, ← hsucc]
      exact hnew j hj
    · simp [insertByte]
    · rw [hnodes, if_pos rfl]
      exact ⟨rfl, rfl, rfl⟩
    · intro j hj
      rw [hnodes, if_neg (by omega)]
      split_ifs <;> exact ⟨rfl, rfl, rfl⟩
  · intro e he
    rw [hsucclen] at he
    simp only [insertByte]
    rw [getD_set_path (by omega)]
    by_cases hlast : d + 1 = e
    · subst hlast
      simp
    · obtain ⟨hlt, hw⟩ := h.paths e (by omega)
      rw [if_neg hlast, hold _ hlt, hw, List.take_take, List.take_take]
      refine ⟨by omega, ?_⟩
      congr 1
      omega
  · intro w
    simp only [insertByte]
    constructor
    · rintro ⟨i, hi, rfl⟩
      rcases Nat.lt_succ_iff_lt_or_eq.mp hi with hi | rfl
      · rw [hold i hi]
        rcases (h.words _).mp ⟨i, hi, rfl⟩ with hnil | hdone | hpre
        · exact .inl hnil
        · exact .inr (.inl hdone)
        · exact .inr (.inr (hpre.trans (List.take_prefix_take_left (Nat.le_succ d))))
      · simp
    · intro hw
      by_cases hlast : w = pattern.take (d + 1)
      · exact ⟨b.next, by omega, by rw [Function.update_self, hlast]⟩
      · have hbefore : w = [] ∨ (∃ p ∈ done, w <+: p) ∨ w <+: pattern.take d := by
          rcases hw with hnil | hdone | hpre
          · exact .inl hnil
          · exact .inr (.inl hdone)
          · rw [hsucc] at hpre
            rcases List.prefix_concat_iff.mp hpre with heq | hpre
            · exact absurd (heq.trans hsucc.symm) hlast
            · exact .inr (.inr hpre)
        obtain ⟨i, hi, hiw⟩ := (h.words w).mpr hbefore
        exact ⟨i, by omega, by rw [hold i hi, hiw]⟩
  · intro i hi
    simp only [insertByte] at hi
    rw [hnodes]
    rcases Nat.lt_succ_iff_lt_or_eq.mp hi with hi | rfl
    · rw [if_neg (by omega), hold i hi]
      by_cases hip : i = b.path.getD d 0
      · rw [if_pos hip]
        exact h.payload i hi
      · rw [if_neg hip]
        exact h.payload i hi
    · have hnotdone : pattern.take (d + 1) ∉ done := fun hmem => hfresh _ hmem List.prefix_rfl
      simp [hnotdone, hsucclen]

theorem foldl_insertByte_inv (k : Nat) (hk : d + k = pattern.length)
    (h : BuildInv b done (pattern.take d) word) (hroom : b.next + k ≤ b.nodes.length)
    (hpath : pattern.length < b.path.length)
    (hfresh : ∀ e, d < e → e ≤ pattern.length → ∀ p ∈ done, ¬ pattern.take e <+: p) :
    ∃ word', BuildInv ((List.range' d k).foldl (insertByte pattern) b) done pattern word' ∧
      ((List.range' d k).foldl (insertByte pattern) b).next = b.next + k ∧
      ((List.range' d k).foldl (insertByte pattern) b).nodes.length = b.nodes.length ∧
      ((List.range' d k).foldl (insertByte pattern) b).path.length = b.path.length := by
  induction k generalizing b d word with
  | zero =>
    rw [List.take_of_length_le (by omega)] at h
    exact ⟨word, h, rfl, rfl, rfl⟩
  | succ k ih =>
    have hstep := insertByte_inv h (by omega) (by omega) hpath
      (hfresh (d + 1) (by omega) (by omega))
    have hnodes : (insertByte pattern b d).nodes.length = b.nodes.length := by simp [insertByte]
    have hpaths : (insertByte pattern b d).path.length = b.path.length := by simp [insertByte]
    have hnext : (insertByte pattern b d).next = b.next + 1 := rfl
    obtain ⟨word', hinv, hn, hl, hp⟩ := ih (by omega) hstep (by omega) (by omega)
      (fun e he => hfresh e (by omega))
    exact ⟨word', hinv, by rw [List.range'_succ, List.foldl_cons]; omega,
      by rw [List.range'_succ, List.foldl_cons]; omega, by rw [List.range'_succ, List.foldl_cons]; omega⟩

-- One pattern.  Sharing more than the common prefix with an earlier pattern would mean sharing it
-- with the previous one.
theorem insertPattern_inv (pattern : Bytes) (h : BuildInv b done b.previous word)
    (hroom : b.next + (pattern.length - commonRedactionPrefix b.previous pattern) ≤ b.nodes.length)
    (hpath : pattern.length < b.path.length) (hdone : ∀ q ∈ done, q ≤ b.previous)
    (hlast : b.previous = [] ∨ b.previous ∈ done) (hprev : b.previous ≤ pattern) :
    ∃ word', BuildInv (insertPattern b pattern) (done ++ [pattern]) pattern word' ∧
      (insertPattern b pattern).next =
        b.next + (pattern.length - commonRedactionPrefix b.previous pattern) ∧
      (insertPattern b pattern).nodes.length = b.nodes.length ∧
      (insertPattern b pattern).path.length = b.path.length := by
  obtain ⟨hcp, hcl, hctake, hcmax⟩ := commonRedactionPrefix_spec b.previous pattern
  simp only [insertPattern]
  generalize commonRedactionPrefix b.previous pattern = common at *
  have hstart : BuildInv b done (pattern.take common) word := by
    refine ⟨h.shape, ?_, ?_, h.payload⟩
    · intro e he
      rw [List.length_take_of_le hcl] at he
      obtain ⟨hlt, hw⟩ := h.paths e (by omega)
      refine ⟨hlt, ?_⟩
      rw [hw, ← hctake, List.take_take]
      congr 1
      omega
    · intro w
      rw [h.words w, ← hctake]
      constructor
      · rintro (hnil | hdone | hpre)
        · exact .inl hnil
        · exact .inr (.inl hdone)
        · rcases hlast with hnil | hmem
          · exact .inl (List.prefix_nil.mp (hnil ▸ hpre))
          · exact .inr (.inl ⟨b.previous, hmem, hpre⟩)
      · rintro (hnil | hdone | hpre)
        · exact .inl hnil
        · exact .inr (.inl hdone)
        · exact .inr (.inr (hpre.trans (List.take_prefix _ _)))
  have hfresh : ∀ e, common < e → e ≤ pattern.length → ∀ q ∈ done, ¬ pattern.take e <+: q := by
    intro e he hle q hq hpre
    have hshared := prefix_of_between hpre (List.take_prefix e pattern) (hdone q hq) hprev
    have := hcmax _ hshared (List.take_prefix e pattern)
    rw [List.length_take_of_le hle] at this
    omega
  obtain ⟨word', hinv, hn, hl, hp⟩ := foldl_insertByte_inv (pattern.length - common) (by omega) hstart
    hroom hpath hfresh
  generalize (List.range' common (pattern.length - common)).foldl (insertByte pattern) b = b' at *
  refine ⟨word', ?_, hn, by simpa using hl, hp⟩
  obtain ⟨hend, hword⟩ := hinv.paths pattern.length le_rfl
  rw [List.take_length] at hword
  have hbound := hinv.shape.bound
  have hnodes : ∀ j, nodeAt (b'.nodes.modify (b'.path.getD pattern.length 0)
      fun n => { n with matchSize := pattern.length }) j =
      if b'.path.getD pattern.length 0 = j then { nodeAt b'.nodes j with matchSize := pattern.length }
      else nodeAt b'.nodes j :=
    nodeAt_modify _ (by omega) _
  refine ⟨?_, hinv.paths, ?_, ?_⟩
  · apply hinv.shape.congr (by simp)
    intro j
    rw [hnodes]
    split_ifs <;> exact ⟨rfl, rfl, rfl⟩
  · intro w
    rw [hinv.words w]
    simp only [List.mem_append, List.mem_singleton, or_and_right, exists_or, exists_eq_left,
      or_assoc, or_self]
  · intro i hi
    rw [hnodes]
    obtain ⟨hfail, hmatch, hlook⟩ := hinv.payload i hi
    by_cases hie : b'.path.getD pattern.length 0 = i
    · have hiw : word' i = pattern := hie ▸ hword
      rw [if_pos hie]
      exact ⟨hfail, by simp [hiw], hlook⟩
    · have hiw : word' i ≠ pattern := fun heq => hie (hinv.shape.inj _ _ hend hi (hword.trans heq.symm))
      rw [if_neg hie]
      exact ⟨hfail, by simpa [hiw] using hmatch, hlook⟩

theorem foldl_insertPattern_inv (rest : List Bytes) (h : BuildInv b done b.previous word)
    (hroom : b.next + newNodes b.previous rest = b.nodes.length)
    (hpath : ∀ p ∈ rest, p.length < b.path.length) (hdone : ∀ q ∈ done, q ≤ b.previous)
    (hlast : b.previous = [] ∨ b.previous ∈ done) (hprev : ∀ p ∈ rest, b.previous ≤ p)
    (hsorted : rest.Pairwise (· ≤ ·)) :
    ∃ word', BuildInv (rest.foldl insertPattern b) (done ++ rest)
        (rest.foldl insertPattern b).previous word' ∧
      (rest.foldl insertPattern b).next = (rest.foldl insertPattern b).nodes.length ∧
      ((rest.foldl insertPattern b).previous = [] ∨
        (rest.foldl insertPattern b).previous ∈ done ++ rest) := by
  induction rest generalizing b done word with
  | nil =>
    simp only [newNodes] at hroom
    exact ⟨word, by simpa using h, hroom, by simpa using hlast⟩
  | cons pattern rest ih =>
    simp only [newNodes] at hroom
    obtain ⟨word', hinv, hn, hl, hp⟩ := insertPattern_inv pattern h (by omega)
      (hpath pattern List.mem_cons_self) hdone hlast (hprev pattern List.mem_cons_self)
    have hp' : (insertPattern b pattern).previous = pattern := rfl
    have hlater : ∀ p ∈ rest, pattern ≤ p := fun p hmem => List.rel_of_pairwise_cons hsorted hmem
    have hmem : pattern ∈ done ++ [pattern] := by simp
    have hle : ∀ q ∈ done ++ [pattern], q ≤ pattern := by
      intro q hq
      rcases List.mem_append.mp hq with hq | hq
      · exact List.le_trans (hdone q hq) (hprev pattern List.mem_cons_self)
      · rw [List.mem_singleton.mp hq]
        exact List.le_refl pattern
    rw [List.foldl_cons]
    have hdone' : done ++ pattern :: rest = (done ++ [pattern]) ++ rest := by simp
    rw [hdone']
    have hinv' : BuildInv (insertPattern b pattern) (done ++ [pattern]) (insertPattern b pattern).previous
        word' := hp' ▸ hinv
    refine ih hinv' ?_ ?_ ?_ ?_ ?_ hsorted.of_cons
    · rw [hp', hn, hl, ← hroom]
      omega
    · rw [hp]
      exact fun p hmem => hpath p (List.mem_cons_of_mem pattern hmem)
    · exact hle
    · exact .inr hmem
    · exact hlater

end Loop

structure TreeFor (patterns : List Bytes) (nodes : List RedactionNode) (word : Nat → Bytes) : Prop where
  shape : Shape nodes nodes.length word
  words : ∀ w, (∃ i < nodes.length, word i = w) ↔ w = [] ∨ ∃ p ∈ patterns, w <+: p
  payload : ∀ i < nodes.length, (nodeAt nodes i).failure = 0 ∧
    (nodeAt nodes i).matchSize = (if word i ∈ patterns then (word i).length else 0) ∧
    (nodeAt nodes i).lookahead = (word i).length

theorem nodeAt_replicate (count j : Nat) : nodeAt (List.replicate count {}) j = {} := by
  simp only [nodeAt, List.getD_eq_getElem?_getD, List.getElem?_replicate]
  split_ifs <;> rfl

theorem buildNodes_spec {patterns : List Bytes} (hsorted : patterns.Pairwise (· ≤ ·)) :
    ∃ word, TreeFor patterns (buildNodes patterns) word := by
  have hcount := measurePatterns_count patterns
  have hlong := (measurePatterns_longest patterns).1
  simp only [buildNodes]
  generalize (measurePatterns patterns).1 = longest at *
  generalize (measurePatterns patterns).2 = count at *
  set b : TrieBuild := { nodes := List.replicate count {}, path := List.replicate (longest + 1) 0 }
  have hstart : BuildInv b [] b.previous (fun _ => []) := by
    refine ⟨⟨Nat.one_pos, ?_, rfl, ?_, ?_, ?_⟩, ?_, ?_, ?_⟩
    · simp only [b, List.length_replicate]
      omega
    · intro i j hi hj _
      simp only [b] at hi hj
      omega
    · intro j hj hjn
      simp only [b] at hjn
      omega
    · intro i _
      refine ⟨[], List.nodup_nil, ?_, ?_⟩
      · rw [nodeAt_replicate]
        exact .nil
      · simp
    · intro d hd
      refine ⟨?_, by simp [b]⟩
      simp only [b, List.length_nil, Nat.le_zero] at hd
      subst hd
      simp [b]
    · intro w
      simp only [b, List.not_mem_nil, false_and, exists_false, false_or, List.prefix_nil, or_self]
      exact ⟨fun ⟨_, _, heq⟩ => heq.symm, fun heq => ⟨0, Nat.one_pos, heq.symm⟩⟩
    · intro i _
      rw [nodeAt_replicate]
      simp
  obtain ⟨word, hinv, hn, hlast⟩ := foldl_insertPattern_inv patterns hstart
    (by simp only [b, List.length_replicate]; omega)
    (fun p hp => by simpa [b] using Nat.lt_succ_of_le (hlong p hp)) (by simp) (.inl rfl)
    (fun p _ => List.nil_le p) hsorted
  rw [List.nil_append] at hinv hlast
  refine ⟨word, hn ▸ hinv.shape, ?_, hn ▸ hinv.payload⟩
  intro w
  rw [← hn, hinv.words w]
  constructor
  · rintro (hnil | hmem | hpre)
    · exact .inl hnil
    · exact .inr hmem
    · rcases hlast with hnil | hmem
      · exact .inl (List.prefix_nil.mp (hnil ▸ hpre))
      · exact .inr ⟨_, hmem, hpre⟩
  · rintro (hnil | hmem)
    · exact .inl hnil
    · exact .inr (.inl hmem)

end NeroCD.Redaction
