import NeroCD.Matching.Occurrences
import NeroCD.Redactor.Build

-- The failure links of `linkFailures` and the automaton step `advance`: a linked node knows the longest proper suffix
-- in the tree, the longest one that is a pattern and the longest one that some pattern properly extends.

namespace NeroCD.Redaction

open NeroCD.Matching

section

variable (patterns : List Bytes)

def InTree (w : Bytes) : Prop := w = [] ∨ ∃ p ∈ patterns, w <+: p

def IsPattern (w : Bytes) : Prop := w ∈ patterns

variable {patterns}

theorem inTree_prefixClosed : PrefixClosed (InTree patterns) := by
  rintro w a (hnil | ⟨p, hp, hpre⟩)
  · simp at hnil
  · exact .inr ⟨p, hp, (List.prefix_append w [a]).trans hpre⟩

theorem inTree_of_isPattern (w : Bytes) (h : IsPattern patterns w) : InTree patterns w :=
  .inr ⟨w, h, List.prefix_rfl⟩

theorem inTree_of_underWay (w : Bytes) (h : UnderWay (IsPattern patterns) w) : InTree patterns w := by
  obtain ⟨v, -, hv⟩ := h
  exact .inr ⟨w ++ v, hv, List.prefix_append w v⟩

theorem underWay_iff_inTree {w : Bytes} :
    UnderWay (IsPattern patterns) w ↔ ∃ a, InTree patterns (w ++ [a]) := by
  constructor
  · rintro ⟨v, hne, hv⟩
    cases v with
    | nil => exact absurd rfl hne
    | cons a v => exact ⟨a, .inr ⟨_, hv, by simp⟩⟩
  · rintro ⟨a, hnil | ⟨p, hp, t, rfl⟩⟩
    · simp at hnil
    · exact ⟨a :: t, by simp, by simpa [IsPattern] using hp⟩

end

structure LinkedNode (patterns : List Bytes) (n : Nat) (word : Nat → Bytes) (w : Bytes)
    (node : RedactionNode) : Prop where
  failure_lt : node.failure < n
  failure : IsLongestSuffix (InTree patterns) w.tail (word node.failure)
  matched : ∃ m, IsLongestSuffix (IsPattern patterns) w m ∧ node.matchSize = m.length
  pending : ∃ u, IsLongestSuffix (UnderWay (IsPattern patterns)) w u ∧ node.lookahead = u.length

structure FreshNode (patterns : List Bytes) (w : Bytes) (node : RedactionNode) : Prop where
  failure : node.failure = 0
  matched : node.matchSize = if w ∈ patterns then w.length else 0
  lookahead : node.lookahead = w.length

-- The nodes in `done` are linked, the others are as built.
structure LinkInv (patterns : List Bytes) (n : Nat) (word : Nat → Bytes) (nodes : List RedactionNode)
    (done : Nat → Prop) : Prop where
  len : nodes.length = n
  shape : Shape nodes n word
  words : ∀ w, (∃ i < n, word i = w) ↔ InTree patterns w
  linked : ∀ i < n, done i → LinkedNode patterns n word (word i) (nodeAt nodes i)
  fresh : ∀ i < n, ¬ done i → FreshNode patterns (word i) (nodeAt nodes i)

section Link

variable {patterns : List Bytes} {n : Nat} {word : Nat → Bytes} {nodes : List RedactionNode}
  {done : Nat → Prop}

theorem LinkInv.congr {done' : Nat → Prop} (h : LinkInv patterns n word nodes done)
    (hdone : ∀ i < n, done i ↔ done' i) : LinkInv patterns n word nodes done' :=
  ⟨h.len, h.shape, h.words, fun i hi hd => h.linked i hi ((hdone i hi).mpr hd),
    fun i hi hd => h.fresh i hi fun hd' => hd ((hdone i hi).mp hd')⟩

variable {i parent d : Nat} {current : List Nat}

theorem LinkInv.leaf_iff (h : LinkInv patterns n word nodes done) (hi : i < n) :
    (nodeAt nodes i).child = 0 ↔ ¬ UnderWay (IsPattern patterns) (word i) := by
  rw [h.shape.child_eq_zero_iff hi, underWay_iff_inTree, not_exists]
  constructor
  · intro hleaf a hmem
    obtain ⟨j, hj, hword⟩ := (h.words _).mpr hmem
    exact hleaf j hj a hword
  · intro hnone j hj a hword
    exact hnone a ((h.words _).mp ⟨j, hj, hword⟩)

-- `advance` from a state whose failure links are set gives the longest suffix of the extended word.
theorem advanceLoop_spec (h : LinkInv patterns n word nodes done) {state : Nat} (hs : state < n)
    (hdone : ∀ i < n, (word i).length ≤ (word state).length → done i) {fuel : Nat}
    (hfuel : (word state).length < fuel) (a : UInt8) :
    advanceLoop nodes a fuel state < n ∧
    IsLongestSuffix (InTree patterns) (word state ++ [a]) (word (advanceLoop nodes a fuel state)) := by
  induction fuel generalizing state with
  | zero => omega
  | succ _ ih =>
    simp only [advanceLoop]
    rcases h.shape.childOf_spec hs a with ⟨hzero, hnone⟩ | ⟨hne, hlt, hword⟩
    · have hnot : ¬ InTree patterns (word state ++ [a]) := by
        intro hmem
        obtain ⟨j, hj, hword⟩ := (h.words _).mpr hmem
        exact hnone j hj hword
      rw [if_neg (by simpa using hzero)]
      by_cases hroot : state = 0
      · subst hroot
        rw [if_pos rfl, h.shape.root]
        rw [h.shape.root] at hnot
        exact ⟨h.shape.pos, .step_root hnot⟩
      · -- the kept word shrinks along the failure link
        rw [if_neg hroot]
        have hlinked := h.linked state hs (hdone state hs le_rfl)
        have hnonempty := h.shape.ne_nil_of_pos (Nat.pos_of_ne_zero hroot) hs
        have hshort := hlinked.failure.length_le
        rw [List.length_tail] at hshort
        have hpos := List.length_pos_iff.mpr hnonempty
        obtain ⟨hr, hlong⟩ := ih hlinked.failure_lt (fun i hi hle => hdone i hi (by omega)) (by omega)
        exact ⟨hr, .step_fallback inTree_prefixClosed hnonempty hnot hlinked.failure hlong⟩
    · rw [if_pos hne, hword]
      exact ⟨hlt, .self ((h.words _).mp ⟨_, hlt, hword⟩)⟩

theorem advance_spec (h : LinkInv patterns n word nodes done) {state : Nat} (hs : state < n)
    (hdone : ∀ i < n, (word i).length ≤ (word state).length → done i) (a : UInt8) :
    advance nodes state a < n ∧
    IsLongestSuffix (InTree patterns) (word state ++ [a]) (word (advance nodes state a)) := by
  have hlen := h.shape.length_word_le hs
  have hn := h.len
  exact advanceLoop_spec h hs hdone (by omega) a

theorem LinkInv.modify (h : LinkInv patterns n word nodes done) {c : Nat} (hc : c < n)
    {f : RedactionNode → RedactionNode}
    (hsame : ∀ v, (f v).label = v.label ∧ (f v).child = v.child ∧ (f v).sibling = v.sibling)
    (hlinked : LinkedNode patterns n word (word c) (f (nodeAt nodes c))) :
    LinkInv patterns n word (nodes.modify c f) fun i => done i ∨ i = c := by
  have hlen := h.len
  have hnodes := nodeAt_modify nodes (i := c) (by omega) f
  refine ⟨by rw [List.length_modify, hlen], ?_, h.words, ?_, ?_⟩
  · apply h.shape.congr (by simp)
    intro j
    rw [hnodes]
    split_ifs
    · exact hsame _
    · exact ⟨rfl, rfl, rfl⟩
  · intro i hi hd
    rw [hnodes]
    by_cases hic : c = i
    · subst hic
      rw [if_pos rfl]
      exact hlinked
    · rw [if_neg hic]
      exact h.linked i hi (hd.resolve_right (Ne.symm hic))
  · intro i hi hd
    rw [hnodes, if_neg fun hic => hd (.inr hic.symm)]
    exact h.fresh i hi fun hdi => hd (.inl hdi)

theorem matched_of_failure {w r m : Bytes} {node : RedactionNode} (hfresh : FreshNode patterns w node)
    (hfail : IsLongestSuffix (InTree patterns) w.tail r)
    (hm : IsLongestSuffix (IsPattern patterns) r m) :
    ∃ m', IsLongestSuffix (IsPattern patterns) w m' ∧ max node.matchSize m.length = m'.length := by
  by_cases hw : w ∈ patterns
  · refine ⟨w, .self hw, ?_⟩
    have hmr := hm.length_le
    have hrw := hfail.length_le
    rw [List.length_tail] at hrw
    rw [hfresh.matched, if_pos hw]
    omega
  · refine ⟨m, .of_fallback inTree_of_isPattern hw hfail hm, ?_⟩
    rw [hfresh.matched, if_neg hw]
    omega

theorem pending_of_failure {w r u : Bytes} {node : RedactionNode} (hfresh : FreshNode patterns w node)
    (hleaf : node.child = 0 ↔ ¬ UnderWay (IsPattern patterns) w)
    (hfail : IsLongestSuffix (InTree patterns) w.tail r)
    (hu : IsLongestSuffix (UnderWay (IsPattern patterns)) r u) :
    ∃ u', IsLongestSuffix (UnderWay (IsPattern patterns)) w u' ∧
      (if node.child = 0 then u.length else node.lookahead) = u'.length := by
  by_cases hw : UnderWay (IsPattern patterns) w
  · exact ⟨w, .self hw, by rw [if_neg fun hz => hleaf.mp hz hw, hfresh.lookahead]⟩
  · exact ⟨u, .of_fallback inTree_of_underWay hw hfail hu, by rw [if_pos (hleaf.mpr hw)]⟩

theorem linkChild_inv (h : LinkInv patterns n word nodes done) {child : Nat} {a : UInt8} (hp : parent < n)
    (hroot : word parent ≠ []) (hc : child < n) (hword : word child = word parent ++ [a])
    (hdone : ∀ i < n, (word i).length ≤ (word parent).length → done i) (hnot : ¬ done child) :
    LinkInv patterns n word (linkChild parent nodes child) fun i => done i ∨ i = child := by
  have hpos : 0 < child := by
    rcases Nat.eq_zero_or_pos child with rfl | hpos
    · rw [h.shape.root] at hword
      simp at hword
    · exact hpos
  have hlabel := h.shape.label_eq hpos hc hword
  have hfresh := h.fresh child hc hnot
  have hparent := h.linked parent hp (hdone parent hp le_rfl)
  have hshort := hparent.failure.length_le
  rw [List.length_tail] at hshort
  obtain ⟨hr, hlong⟩ := advance_spec h hparent.failure_lt (fun i hi hle => hdone i hi (by omega)) a
  -- the failure word of the child extends the one of its parent by the label
  have hfail : IsLongestSuffix (InTree patterns) (word child).tail
      (word (advance nodes (nodeAt nodes parent).failure a)) := by
    rw [hword, List.tail_append_of_ne_nil hroot]
    exact hparent.failure.step inTree_prefixClosed hlong
  have hrlen := hfail.length_le
  rw [hword, List.length_tail, List.length_append, List.length_singleton] at hrlen
  have hrnode := h.linked _ hr (hdone _ hr (by omega))
  obtain ⟨m, hm, hmsize⟩ := hrnode.matched
  obtain ⟨u, hu, husize⟩ := hrnode.pending
  simp only [linkChild, hlabel]
  refine h.modify hc ?_ ?_
  · exact fun v => ⟨rfl, rfl, rfl⟩
  · refine ⟨hr, hfail, ?_, ?_⟩
    · simp only [hmsize]
      exact matched_of_failure hfresh hfail hm
    · simp only [husize]
      exact pending_of_failure hfresh (h.leaf_iff hc) hfail hu

theorem foldl_linkChild_inv (l : List Nat) (h : LinkInv patterns n word nodes done) (hp : parent < n)
    (hroot : word parent ≠ []) (hdone : ∀ i < n, (word i).length ≤ (word parent).length → done i) (hnodup : l.Nodup)
    (hl : ∀ c ∈ l, c < n ∧ (∃ a, word c = word parent ++ [a]) ∧ ¬ done c) :
    LinkInv patterns n word (l.foldl (linkChild parent) nodes) fun i => done i ∨ i ∈ l := by
  induction l generalizing nodes done with
  | nil => simpa using h
  | cons c l ih =>
    obtain ⟨hcl, hnodup⟩ := List.nodup_cons.mp hnodup
    obtain ⟨hc, ⟨a, hword⟩, hnot⟩ := hl c List.mem_cons_self
    have hstep := linkChild_inv h hp hroot hc hword hdone hnot
    have hrest : ∀ b ∈ l, b < n ∧ (∃ a, word b = word parent ++ [a]) ∧ ¬ (done b ∨ b = c) := by
      intro b hb
      obtain ⟨hbn, hbw, hbd⟩ := hl b (List.mem_cons_of_mem c hb)
      refine ⟨hbn, hbw, ?_⟩
      rintro (hd | rfl)
      · exact hbd hd
      · exact hcl hb
    apply (ih hstep (fun i hi hle => .inl (hdone i hi hle)) hnodup hrest).congr
    intro i _
    simp only [List.mem_cons, or_assoc]

theorem linkParent_inv (h : LinkInv patterns n word nodes done) (hp : parent < n) (hroot : word parent ≠ [])
    (hdone : ∀ i < n, (word i).length ≤ (word parent).length → done i)
    (hnot : ∀ c < n, (∃ a, word c = word parent ++ [a]) → ¬ done c) :
    LinkInv patterns n word (linkParent nodes parent)
      fun i => done i ∨ ∃ a, word i = word parent ++ [a] := by
  obtain ⟨hnodup, hmem⟩ := h.shape.children_spec hp
  have hfold := foldl_linkChild_inv (children nodes parent) h hp hroot hdone hnodup (by
    intro c hc
    obtain ⟨-, hcn, hcw⟩ := (hmem c).mp hc
    exact ⟨hcn, hcw, hnot c hcn hcw⟩)
  apply hfold.congr
  intro i hi
  rw [hmem i]
  constructor
  · rintro (hd | ⟨-, -, hw⟩)
    · exact .inl hd
    · exact .inr hw
  · rintro (hd | ⟨a, hw⟩)
    · exact .inl hd
    · refine .inr ⟨Nat.pos_of_ne_zero ?_, hi, a, hw⟩
      rintro rfl
      rw [h.shape.root] at hw
      simp at hw

-- One frontier: the children of distinct parents of one depth are distinct.
theorem foldl_linkParent_inv (current : List Nat) (h : LinkInv patterns n word nodes done) (hd : 0 < d)
    (hdone : ∀ i < n, (word i).length ≤ d → done i) (hnodup : current.Nodup)
    (hcur : ∀ p ∈ current, p < n ∧ (word p).length = d)
    (hnot : ∀ p ∈ current, ∀ c < n, (∃ a, word c = word p ++ [a]) → ¬ done c) :
    LinkInv patterns n word (current.foldl linkParent nodes)
      fun i => done i ∨ ∃ p ∈ current, ∃ a, word i = word p ++ [a] := by
  induction current generalizing nodes done with
  | nil => simpa using h
  | cons p current ih =>
    obtain ⟨hpl, hnodup⟩ := List.nodup_cons.mp hnodup
    obtain ⟨hp, hlen⟩ := hcur p List.mem_cons_self
    have hroot : word p ≠ [] := List.ne_nil_of_length_pos (by omega)
    have hstep := linkParent_inv h hp hroot (fun i hi hle => hdone i hi (by omega))
      (hnot p List.mem_cons_self)
    have hrest : ∀ q ∈ current, ∀ c < n, (∃ a, word c = word q ++ [a]) →
        ¬ (done c ∨ ∃ a, word c = word p ++ [a]) := by
      rintro q hq c hcn hcw (hdc | ⟨b, hb⟩)
      · exact hnot q (List.mem_cons_of_mem p hq) c hcn hcw hdc
      · obtain ⟨a, ha⟩ := hcw
        have hqn := (hcur q (List.mem_cons_of_mem p hq)).1
        have hqp := h.shape.inj q p hqn hp (List.append_inj_left' (ha.symm.trans hb) rfl)
        exact hpl (hqp ▸ hq)
    apply (ih hstep (fun i hi hle => .inl (hdone i hi hle)) hnodup
      (fun q hq => hcur q (List.mem_cons_of_mem p hq)) hrest).congr
    intro i _
    simp only [List.mem_cons, exists_eq_or_imp, or_assoc]

def IsLevel (n : Nat) (word : Nat → Bytes) (d : Nat) (current : List Nat) : Prop :=
  current.Nodup ∧ ∀ i, i ∈ current ↔ i < n ∧ (word i).length = d

theorem LinkInv.exists_parent (h : LinkInv patterns n word nodes done) (hi : i < n) (hlen : (word i).length = d + 1) :
    ∃ p < n, (word p).length = d ∧ ∃ a, word i = word p ++ [a] := by
  have hpos : 0 < i := by
    rcases Nat.eq_zero_or_pos i with rfl | hpos
    · rw [h.shape.root] at hlen
      simp at hlen
    · exact hpos
  obtain ⟨p, hp, hword⟩ := h.shape.parent i hpos hi
  rw [hword, List.length_append, List.length_singleton] at hlen
  exact ⟨p, by omega, by omega, _, hword⟩

theorem children_isLevel (h : LinkInv patterns n word nodes done) (hlevel : IsLevel n word d current) :
    IsLevel n word (d + 1) (current.flatMap (children nodes)) := by
  obtain ⟨hnodup, hcur⟩ := hlevel
  constructor
  · rw [List.nodup_flatMap]
    refine ⟨fun p hp => (h.shape.children_spec ((hcur p).mp hp).1).1, ?_⟩
    apply hnodup.imp_of_mem
    intro p q hp hq hpq c hcp hcq
    obtain ⟨hpn, -⟩ := (hcur p).mp hp
    obtain ⟨hqn, -⟩ := (hcur q).mp hq
    obtain ⟨-, -, a, ha⟩ := ((h.shape.children_spec hpn).2 c).mp hcp
    obtain ⟨-, -, b, hb⟩ := ((h.shape.children_spec hqn).2 c).mp hcq
    exact hpq (h.shape.inj p q hpn hqn (List.append_inj_left' (ha.symm.trans hb) rfl))
  · intro i
    rw [List.mem_flatMap]
    constructor
    · rintro ⟨p, hp, hip⟩
      obtain ⟨hpn, hplen⟩ := (hcur p).mp hp
      obtain ⟨-, hin, a, ha⟩ := ((h.shape.children_spec hpn).2 i).mp hip
      exact ⟨hin, by rw [ha, List.length_append, hplen, List.length_singleton]⟩
    · rintro ⟨hin, hlen⟩
      obtain ⟨p, hpn, hplen, a, ha⟩ := h.exists_parent hin hlen
      have hpos : 0 < i := Nat.pos_of_ne_zero (by rintro rfl; rw [h.shape.root] at hlen; simp at hlen)
      exact ⟨p, (hcur p).mpr ⟨hpn, hplen⟩, ((h.shape.children_spec hpn).2 i).mpr ⟨hpos, hin, a, ha⟩⟩

theorem linkLevel_inv (hd : 0 < d) (h : LinkInv patterns n word nodes fun i => (word i).length ≤ d)
    (hlevel : IsLevel n word d current) :
    LinkInv patterns n word (linkLevel nodes current).1 (fun i => (word i).length ≤ d + 1) ∧
    IsLevel n word (d + 1) (linkLevel nodes current).2 := by
  refine ⟨?_, children_isLevel h hlevel⟩
  have hfold := foldl_linkParent_inv current h hd (fun i _ hle => hle) hlevel.1
    (fun p hp => (hlevel.2 p).mp hp) (by
      rintro p hp c _ ⟨a, ha⟩
      have := ((hlevel.2 p).mp hp).2
      rw [ha, List.length_append, List.length_singleton]
      omega)
  apply hfold.congr
  intro i hi
  constructor
  · rintro (hle | ⟨p, hp, a, ha⟩)
    · omega
    · have := ((hlevel.2 p).mp hp).2
      rw [ha, List.length_append, List.length_singleton]
      omega
  · intro hle
    rcases Nat.lt_or_ge d (word i).length with hlt | hge
    · obtain ⟨p, hpn, hplen, a, ha⟩ := h.exists_parent (d := d) hi (by omega)
      exact .inr ⟨p, (hlevel.2 p).mpr ⟨hpn, hplen⟩, a, ha⟩
    · exact .inl hge

theorem length_lt_of_level_nil (h : LinkInv patterns n word nodes done) (hlevel : IsLevel n word d []) (hi : i < n) :
    (word i).length < d := by
  by_contra hge
  -- cutting the word at depth `d` would give a node of the empty level
  have hmem : InTree patterns ((word i).take d) := by
    rcases (h.words _).mp ⟨i, hi, rfl⟩ with hnil | ⟨p, hp, hpre⟩
    · exact .inl (by rw [hnil, List.take_nil])
    · exact .inr ⟨p, hp, (List.take_prefix d (word i)).trans hpre⟩
  obtain ⟨j, hj, hword⟩ := (h.words _).mpr hmem
  have hlen : (word j).length = d := by
    rw [hword, List.length_take]
    omega
  simpa using (hlevel.2 j).mpr ⟨hj, hlen⟩

theorem linkLevels_inv (fuel : Nat) (hd : 0 < d) (h : LinkInv patterns n word nodes fun i => (word i).length ≤ d)
    (hlevel : IsLevel n word d current) (hfuel : n ≤ d + fuel) :
    LinkInv patterns n word (linkLevels fuel nodes current) fun _ => True := by
  induction fuel generalizing nodes d current with
  | zero =>
    apply h.congr
    intro i hi
    have := h.shape.length_word_le hi
    simp only [iff_true]
    omega
  | succ _ ih =>
    simp only [linkLevels]
    split_ifs with hempty
    · apply h.congr
      intro i hi
      simp only [iff_true]
      exact Nat.le_of_lt (length_lt_of_level_nil h (hempty ▸ hlevel) hi)
    · obtain ⟨hinv, hnext⟩ := linkLevel_inv hd h hlevel
      exact ih (Nat.succ_pos d) hinv hnext (by omega)

theorem linkRootChild_inv (h : LinkInv patterns n word nodes done) {c : Nat} {a : UInt8} (hc : c < n)
    (hword : word c = [a]) (hnot : ¬ done c) :
    LinkInv patterns n word (linkRootChild nodes c) fun i => done i ∨ i = c := by
  have hfresh := h.fresh c hc hnot
  have hleaf := h.leaf_iff hc
  have hfail : IsLongestSuffix (InTree patterns) (word c).tail (word 0) := by
    rw [hword, h.shape.root]
    exact .nil _
  have hnil : ∀ lang : Bytes → Prop, IsLongestSuffix lang (word 0) [] := by
    intro lang
    rw [h.shape.root]
    exact .nil lang
  refine h.modify hc ?_ ?_
  · exact fun v => ⟨rfl, rfl, rfl⟩
  · refine ⟨by simpa [hfresh.failure] using h.shape.pos, by simpa only [hfresh.failure] using hfail,
      ?_, ?_⟩
    · simpa using matched_of_failure hfresh hfail (hnil _)
    · exact pending_of_failure hfresh hleaf hfail (hnil _)

theorem foldl_linkRootChild_inv (l : List Nat) (h : LinkInv patterns n word nodes done) (hnodup : l.Nodup)
    (hl : ∀ c ∈ l, c < n ∧ (∃ a, word c = [a]) ∧ ¬ done c) :
    LinkInv patterns n word (l.foldl linkRootChild nodes) fun i => done i ∨ i ∈ l := by
  induction l generalizing nodes done with
  | nil => simpa using h
  | cons c l ih =>
    obtain ⟨hcl, hnodup⟩ := List.nodup_cons.mp hnodup
    obtain ⟨hc, ⟨a, hword⟩, hnot⟩ := hl c List.mem_cons_self
    have hstep := linkRootChild_inv h hc hword hnot
    apply (ih hstep hnodup ?_).congr
    · intro i _
      simp only [List.mem_cons, or_assoc]
    · intro b hb
      obtain ⟨hbn, hbw, hbd⟩ := hl b (List.mem_cons_of_mem c hb)
      refine ⟨hbn, hbw, ?_⟩
      rintro (hd | rfl)
      · exact hbd hd
      · exact hcl hb

end Link

theorem linkFailures_spec {patterns : List Bytes} {nodes : List RedactionNode} {word : Nat → Bytes}
    (htree : TreeFor patterns nodes word) (hnonempty : [] ∉ patterns) :
    LinkInv patterns nodes.length word (linkFailures nodes) fun _ => True := by
  have hroot := htree.shape.root
  have hzero : LinkInv patterns nodes.length word nodes fun i => i = 0 := by
    refine ⟨rfl, htree.shape, htree.words, ?_, ?_⟩
    · rintro i hi rfl
      obtain ⟨hfail, hmatch, hlook⟩ := htree.payload 0 hi
      rw [hroot] at hmatch hlook ⊢
      refine ⟨by rw [hfail]; exact hi, ?_, ⟨[], .nil _, ?_⟩, ⟨[], .nil _, hlook⟩⟩
      · rw [hfail, hroot]
        exact .nil _
      · rw [hmatch, if_neg hnonempty]
        rfl
    · intro i hi _
      obtain ⟨hfail, hmatch, hlook⟩ := htree.payload i hi
      exact ⟨hfail, hmatch, hlook⟩
  have hlevel0 : IsLevel nodes.length word 0 [0] := by
    refine ⟨by simp, ?_⟩
    intro i
    rw [List.mem_singleton]
    constructor
    · rintro rfl
      exact ⟨htree.shape.pos, by simp [hroot]⟩
    · rintro ⟨hi, hlen⟩
      exact htree.shape.inj i 0 hi htree.shape.pos (by rw [hroot, List.length_eq_zero_iff.mp hlen])
  have hlevel : IsLevel nodes.length word 1 (children nodes 0) := by
    simpa using children_isLevel hzero hlevel0
  have hone : ∀ c ∈ children nodes 0, c < nodes.length ∧ (∃ a, word c = [a]) ∧ ¬ c = 0 := by
    intro c hc
    obtain ⟨hcn, hlen⟩ := (hlevel.2 c).mp hc
    refine ⟨hcn, List.length_eq_one_iff.mp hlen, ?_⟩
    rintro rfl
    rw [hroot] at hlen
    simp at hlen
  have hfirst : LinkInv patterns nodes.length word ((children nodes 0).foldl linkRootChild nodes)
      fun i => (word i).length ≤ 1 := by
    apply (foldl_linkRootChild_inv _ hzero hlevel.1 hone).congr
    intro i hi
    rw [hlevel.2 i]
    constructor
    · rintro (rfl | ⟨-, hlen⟩)
      · simp [hroot]
      · omega
    · intro hle
      rcases Nat.lt_or_ge 0 (word i).length with hpos | hnil
      · exact .inr ⟨hi, by omega⟩
      · exact .inl (List.mem_singleton.mp ((hlevel0.2 i).mpr ⟨hi, by omega⟩))
  exact linkLevels_inv nodes.length Nat.one_pos hfirst hlevel (by omega)

end NeroCD.Redaction
