import NeroCD.Redactor.Failure

-- One stream: the live spans (those from `head` on) are the merged occurrences beyond the emitted text, and exactly
-- the bytes before the longest word under way have been emitted.

namespace NeroCD.Redaction

open NeroCD.Matching

-- `protect`.

-- Popping: the spans that remain and the grown span account for the same positions.
theorem popOverlapping_spec (l : List RedactionInterval) (span : RedactionInterval)
    (hspan : span.start < span.stop) (hsep : Separated l.reverse) (hstop : ∀ d ∈ l, d.stop ≤ span.stop) :
    Separated ((popOverlapping l span).1.reverse ++ [(popOverlapping l span).2]) ∧
    (∀ d ∈ (popOverlapping l span).1.reverse ++ [(popOverlapping l span).2], d.stop ≤ span.stop) ∧
    (∀ x, CoveredBy ((popOverlapping l span).1.reverse ++ [(popOverlapping l span).2]) x ↔
      CoveredBy l x ∨ span.Covers x) ∧
    (∀ x, InsideOf ((popOverlapping l span).1.reverse ++ [(popOverlapping l span).2]) x ↔
      InsideOf l x ∨ span.Inside x) := by
  induction l generalizing span with
  | nil => simpa [popOverlapping] using Separated.nil.concat hspan (by simp)
  | cons last rest ih =>
    have hlast := hstop last List.mem_cons_self
    have hproper := hsep.proper last (by simp)
    by_cases hover : span.start < last.stop
    · have hhull : { span with start := min span.start last.start } = span.hull last := by
        simp [Span.hull, hlast]
      have hoverlaps : span.Overlaps last := by
        simp only [Span.Overlaps]
        omega
      have hgrown : (span.hull last).stop = span.stop := by simp [Span.hull, hlast]
      rw [List.reverse_cons] at hsep
      obtain ⟨hs, hst, hc, hi⟩ := ih (span.hull last) (by simp only [Span.hull]; omega) hsep.append_left
        (fun d hd => hgrown ▸ hstop d (List.mem_cons_of_mem last hd))
      simp only [popOverlapping, hover, if_true, hhull]
      rw [hgrown] at hst
      refine ⟨hs, hst, ?_, ?_⟩
      · intro x
        rw [hc, Span.hull_covers hoverlaps, coveredBy_cons]
        tauto
      · intro x
        rw [hi, Span.hull_inside hoverlaps, insideOf_cons]
        tauto
    · simp only [popOverlapping, hover, if_false]
      have hbefore : ∀ a ∈ (last :: rest).reverse, a.stop ≤ span.start := by
        intro a ha
        rw [List.reverse_cons] at hsep ha
        rcases List.mem_append.mp ha with ha | ha
        · have := (List.pairwise_append.mp hsep.ordered).2.2 a ha last (by simp)
          omega
        · rw [List.mem_singleton.mp ha]
          omega
      refine ⟨hsep.concat hspan hbefore, ?_, fun x => ?_, fun x => ?_⟩
      · intro d hd
        rcases List.mem_append.mp hd with hd | hd
        · exact hstop d (List.mem_reverse.mp hd)
        · rw [List.mem_singleton.mp hd]
      · simp only [coveredBy_append, coveredBy_reverse, coveredBy_cons, coveredBy_nil, or_false]
      · simp only [insideOf_append, insideOf_reverse, insideOf_cons, insideOf_nil, or_false]

def RedactionStream.live (s : RedactionStream) : List RedactionInterval := s.spans.drop s.head

theorem live_protect (grow : Nat → Nat) {s : RedactionStream} (hhead : s.head ≤ s.spans.length)
    (span : RedactionInterval) :
    (protect grow s span).live =
      (popOverlapping s.live.reverse span).1.reverse ++ [(popOverlapping s.live.reverse span).2] := by
  simp only [RedactionStream.live, protect]
  generalize popOverlapping (s.spans.drop s.head).reverse span = popped
  have htake : (s.spans.take s.head).length = s.head := List.length_take_of_le hhead
  have hdrop : (s.spans.take s.head ++ popped.1.reverse).drop s.head = popped.1.reverse :=
    List.drop_left' htake
  split_ifs
  all_goals
    first
    | rw [List.drop_zero, hdrop]
    | rw [List.drop_append_of_le_length (by rw [List.length_append, htake]; omega), hdrop]

theorem head_protect_le (grow : Nat → Nat) {s : RedactionStream} (hhead : s.head ≤ s.spans.length)
    (span : RedactionInterval) : (protect grow s span).head ≤ (protect grow s span).spans.length := by
  simp only [protect]
  split_ifs <;> simp only [List.length_append, List.length_take_of_le hhead] <;> omega

-- `emit`.

theorem skipEmitted_spec (spans : List RedactionInterval) (emitted : Nat) {fuel head : Nat}
    (hhead : head ≤ spans.length) (hfuel : spans.length ≤ head + fuel) :
    skipEmitted spans emitted fuel head ≤ spans.length ∧
    spans.drop (skipEmitted spans emitted fuel head) =
      (spans.drop head).dropWhile fun d => d.stop ≤ emitted := by
  induction fuel generalizing head with
  | zero =>
    have hend : head = spans.length := by omega
    simp [skipEmitted, hend]
  | succ _ ih =>
    simp only [skipEmitted]
    cases hget : spans[head]? with
    | none =>
      have hend : spans.length ≤ head := List.getElem?_eq_none_iff.mp hget
      simp [List.drop_of_length_le hend, hhead]
    | some d =>
      obtain ⟨hlt, hd⟩ := List.getElem?_eq_some_iff.mp hget
      have hcons : spans.drop head = d :: spans.drop (head + 1) := by
        rw [List.drop_eq_getElem_cons hlt, hd]
      by_cases hstop : d.stop ≤ emitted
      · simp only [hstop, if_true, hcons, List.dropWhile_cons, decide_true]
        exact ih hlt (by omega)
      · simp only [hstop, if_false, hcons, List.dropWhile_cons, decide_false]
        exact ⟨hhead, rfl⟩

-- The live spans describe the text from `emitted` on, and the bytes from there on are in the ring.
structure EmitInv (s : RedactionStream) (text : Bytes) (covered inside : Nat → Prop) : Prop where
  head_le : s.head ≤ s.spans.length
  separated : Separated s.live
  covered : ∀ x, s.emitted ≤ x → (covered x ↔ CoveredBy s.live x)
  inside : ∀ x, s.emitted ≤ x → (inside x ↔ InsideOf s.live x)
  ring : ∀ x, s.emitted ≤ x → x < text.length → text[x]? = some (s.ring.getD (x % s.ring.length) 0)
  stops : ∀ d ∈ s.live, d.stop ≤ text.length

section Emit

variable {s : RedactionStream} {text : Bytes} {covered inside : Nat → Prop}

theorem emitByte_spec (h : EmitInv s text covered inside) (hlt : s.emitted < text.length) :
    EmitInv (emitByte s).1 text covered inside ∧
    (emitByte s).1.emitted = s.emitted + 1 ∧
    (emitByte s).2 = piece redactionMarker text covered inside s.emitted := by
  obtain ⟨hle, hdrop⟩ := skipEmitted_spec s.spans s.emitted h.head_le (show s.spans.length ≤
    s.head + s.spans.length by omega)
  simp only [emitByte]
  generalize skipEmitted s.spans s.emitted s.spans.length s.head = head at hle hdrop
  have hsame := fun x hx => coveredBy_dropWhile s.live (e := s.emitted) (x := x) hx
  have hlive : (s.spans.drop head) = s.live.dropWhile fun d => d.stop ≤ s.emitted := hdrop
  have hsep : Separated (s.spans.drop head) := hlive ▸ h.separated.dropWhile _
  refine ⟨⟨hle, hsep, ?_, ?_, ?_, ?_⟩, by trivial, ?_⟩
  · intro x hx
    have hx' : s.emitted ≤ x := Nat.le_of_succ_le hx
    rw [h.covered x hx', ← (hsame x hx').1, ← hlive]
    rfl
  · intro x hx
    have hx' : s.emitted ≤ x := Nat.le_of_succ_le hx
    rw [h.inside x hx', ← (hsame x hx').2, ← hlive]
    rfl
  · exact fun x hx => h.ring x (Nat.le_of_succ_le hx)
  · intro d hd
    have hd' : d ∈ s.spans.drop head := hd
    rw [hlive] at hd'
    exact h.stops d ((List.dropWhile_sublist _).subset hd')
  · -- what is written is read off the first live span
    have hcov : covered s.emitted ↔ CoveredBy (s.spans.drop head) s.emitted := by
      rw [h.covered _ le_rfl, hlive, (hsame _ le_rfl).1]
    have hin : inside s.emitted ↔ InsideOf (s.spans.drop head) s.emitted := by
      rw [h.inside _ le_rfl, hlive, (hsame _ le_rfl).2]
    have hbyte := h.ring s.emitted le_rfl hlt
    cases hget : s.spans[head]? with
    | none =>
      have hnil : s.spans.drop head = [] := List.drop_of_length_le (List.getElem?_eq_none_iff.mp hget)
      rw [hnil] at hcov hin
      have hncov : ¬ covered s.emitted := by simp [hcov]
      have hnin : ¬ inside s.emitted := by simp [hin]
      simp [piece, hncov, hnin, hbyte]
    | some d =>
      obtain ⟨hlt', hd⟩ := List.getElem?_eq_some_iff.mp hget
      have hcons : s.spans.drop head = d :: s.spans.drop (head + 1) := by
        rw [List.drop_eq_getElem_cons hlt', hd]
      have hstop : s.emitted < d.stop := by
        have hhead : (s.live.dropWhile fun d => d.stop ≤ s.emitted).head? = some d := by
          rw [← hlive, hcons, List.head?_cons]
        have := List.head?_dropWhile_not (fun d : Span => decide (d.stop ≤ s.emitted)) s.live
        rw [hhead] at this
        simpa using this
      rw [hcons] at hsep hcov hin
      rw [coveredBy_cons, or_iff_left (hsep.not_coveredBy_tail hstop)] at hcov
      rw [insideOf_cons, or_iff_left (hsep.not_insideOf_tail hstop)] at hin
      simp only [Span.Covers, Span.Inside, hstop, and_true] at hcov hin
      simp only
      split_ifs with hstart heq
      · have hnin : ¬ inside s.emitted := by rw [hin]; omega
        rw [piece, if_neg hnin, if_pos (hcov.mpr hstart)]
      · have hins : inside s.emitted := hin.mpr (by omega)
        rw [piece, if_pos hins]
      · have hncov : ¬ covered s.emitted := by rw [hcov]; exact hstart
        have hnin : ¬ inside s.emitted := by rw [hin]; omega
        rw [piece, if_neg hnin, if_neg hncov, hbyte]
        rfl

def SameInput (s s' : RedactionStream) : Prop :=
  s'.state = s.state ∧ s'.position = s.position ∧ s'.ring = s.ring

theorem emitLoop_spec (n : Nat) (h : EmitInv s text covered inside) (hn : s.emitted + n ≤ text.length) :
    EmitInv (emitLoop n s).1 text covered inside ∧
    (emitLoop n s).1.emitted = s.emitted + n ∧ SameInput s (emitLoop n s).1 ∧
    (emitLoop n s).2 = segment redactionMarker text covered inside s.emitted (s.emitted + n) := by
  induction n generalizing s with
  | zero => exact ⟨h, rfl, ⟨rfl, rfl, rfl⟩, by simp [emitLoop]⟩
  | succ n ih =>
    obtain ⟨hinv, hemitted, hwritten⟩ := emitByte_spec h (by omega)
    obtain ⟨hinv', hemitted', hsame, hrest⟩ := ih hinv (by omega)
    simp only [emitLoop]
    refine ⟨hinv', by omega, hsame, ?_⟩
    rw [hwritten, hrest, hemitted, ← segment_append (Nat.le_succ s.emitted) (show s.emitted + 1 ≤ s.emitted +
      (n + 1) by omega), segment_succ le_rfl, segment_self, List.nil_append]
    congr 2
    omega

theorem emit_spec (until_ : Nat) (h : EmitInv s text covered inside) (hfrom : s.emitted ≤ until_)
    (hto : until_ ≤ text.length) :
    EmitInv (emit s until_).1 text covered inside ∧
    (emit s until_).1.emitted = until_ ∧ SameInput s (emit s until_).1 ∧
    (emit s until_).2 = segment redactionMarker text covered inside s.emitted until_ := by
  have hlen : s.emitted + (until_ - s.emitted) = until_ := by omega
  obtain ⟨hinv, hemitted, hsame, hwritten⟩ := emitLoop_spec (until_ - s.emitted) h (by omega)
  rw [hlen] at hemitted hwritten
  simp only [emit]
  generalize emitLoop (until_ - s.emitted) s = looped at *
  split_ifs with hend
  · -- no live span is left when the slice is reset
    have hnil : looped.1.live = [] := List.drop_of_length_le (by omega)
    have hreset : ({ looped.1 with spans := [], head := 0 } : RedactionStream).live = looped.1.live := by
      rw [hnil]
      rfl
    exact ⟨⟨le_rfl, hreset ▸ hinv.separated, hreset ▸ hinv.covered, hreset ▸ hinv.inside, hinv.ring,
      hreset ▸ hinv.stops⟩, hemitted, hsame, hwritten⟩
  · exact ⟨hinv, hemitted, hsame, hwritten⟩

end Emit

-- `writeChunk`.

structure Automaton (patterns : List Bytes) (longest : Nat) (nodes : List RedactionNode)
    (word : Nat → Bytes) : Prop where
  linked : LinkInv patterns nodes.length word nodes fun _ => True
  bounded : ∀ p ∈ patterns, p.length ≤ longest

structure StreamInv (patterns : List Bytes) (longest : Nat) (nodes : List RedactionNode)
    (word : Nat → Bytes) (s : RedactionStream) (text out : Bytes) : Prop where
  position : s.position = text.length
  state_lt : s.state < nodes.length
  state : IsLongestSuffix (InTree patterns) text (word s.state)
  ring_length : s.ring.length = longest
  emitted : ∃ u, IsLongestSuffix (UnderWay (IsPattern patterns)) text u ∧ s.emitted = text.length - u.length
  spans : EmitInv s text (Covered (IsPattern patterns) text) (Straddled (IsPattern patterns) text)
  output : out = segment redactionMarker text (Covered (IsPattern patterns) text)
    (Straddled (IsPattern patterns) text) 0 s.emitted

section Write

variable {patterns : List Bytes} {longest : Nat} {nodes : List RedactionNode} {word : Nat → Bytes}
  {s : RedactionStream} {text out : Bytes}

theorem newStream_inv (hauto : Automaton patterns longest nodes word) :
    StreamInv patterns longest nodes word { ring := List.replicate longest 0 } [] [] where
  position := rfl
  state_lt := hauto.linked.shape.pos
  state := by
    rw [hauto.linked.shape.root]
    exact .nil _
  ring_length := List.length_replicate
  emitted := ⟨[], .nil _, rfl⟩
  spans := ⟨le_rfl, .nil, by simp [RedactionStream.live], by simp [RedactionStream.live], by simp,
    by simp [RedactionStream.live]⟩
  output := by simp

theorem Automaton.length_underWay_lt (hauto : Automaton patterns longest nodes word) {u : Bytes}
    (hu : UnderWay (IsPattern patterns) u) : u.length < longest := by
  obtain ⟨v, hne, hv⟩ := hu
  have hle := hauto.bounded _ hv
  have hpos := List.length_pos_iff.mpr hne
  rw [List.length_append] at hle
  omega

-- Reading a byte keeps every byte not yet emitted in the ring: fewer than `longest` are waiting.
theorem ring_set (hauto : Automaton patterns longest nodes word)
    (h : StreamInv patterns longest nodes word s text out) (hlong : 0 < longest) (b : UInt8) {x : Nat}
    (hx : s.emitted ≤ x) (hlt : x < (text ++ [b]).length) :
    (text ++ [b])[x]? = some ((s.ring.set (s.position % s.ring.length) b).getD
      (x % (s.ring.set (s.position % s.ring.length) b).length) 0) := by
  obtain ⟨u, hu, hemitted⟩ := h.emitted
  rw [List.length_set, h.position, h.ring_length, List.getD_eq_getElem?_getD, List.getElem?_set,
    h.ring_length]
  rw [List.length_append, List.length_singleton] at hlt
  rcases Nat.lt_succ_iff_lt_or_eq.mp hlt with hold | rfl
  · have hmod : text.length % longest ≠ x % longest := by
      intro heq
      rcases hu.mem with hnil | hmem
      · simp only [hnil, List.length_nil] at hemitted
        omega
      · have hwait := hauto.length_underWay_lt hmem
        have hdvd : longest ∣ text.length - x :=
          Nat.dvd_of_mod_eq_zero (Nat.sub_mod_eq_zero_of_mod_eq heq)
        have := Nat.le_of_dvd (by omega) hdvd
        omega
    rw [if_neg hmod, List.getElem?_append_left hold, h.spans.ring x hx hold, h.ring_length,
      List.getD_eq_getElem?_getD]
  · rw [if_pos rfl, if_pos (Nat.mod_lt _ hlong)]
    simp

theorem protect_spec (grow : Nat → Nat) (hauto : Automaton patterns longest nodes word)
    (h : StreamInv patterns longest nodes word s text out) (hlong : 0 < longest) {b : UInt8} {m : Bytes}
    (hm : IsLongestSuffix (IsPattern patterns) (text ++ [b]) m) (state : Nat) :
    let read := { s with
      ring := s.ring.set (s.position % s.ring.length) b
      position := s.position + 1
      state := state }
    let s' := if 0 < m.length then protect grow read ⟨read.position - m.length, read.position⟩ else read
    EmitInv s' (text ++ [b]) (Covered (IsPattern patterns) (text ++ [b]))
        (Straddled (IsPattern patterns) (text ++ [b])) ∧
      s'.emitted = s.emitted ∧ SameInput read s' := by
  intro read s'
  have hpos : read.position = (text ++ [b]).length := by simp [read, h.position]
  have hring : ∀ x, s.emitted ≤ x → x < (text ++ [b]).length →
      (text ++ [b])[x]? = some (read.ring.getD (x % read.ring.length) 0) :=
    fun x hx hlt => ring_set hauto h hlong b hx hlt
  have hstops : ∀ d ∈ s.live, d.stop ≤ (text ++ [b]).length := by
    intro d hd
    have := h.spans.stops d hd
    rw [List.length_append]
    omega
  by_cases hsize : 0 < m.length
  · have hne : m ≠ [] := List.ne_nil_of_length_pos hsize
    have hmlen := hm.length_le
    have hlive := live_protect grow (s := read) h.spans.head_le (suffixSpan (text ++ [b]) m)
    have hspan : (⟨read.position - m.length, read.position⟩ : RedactionInterval) =
        suffixSpan (text ++ [b]) m := by
      rw [hpos]
      rfl
    have hproper : (suffixSpan (text ++ [b]) m).start < (suffixSpan (text ++ [b]) m).stop := by
      simp only [suffixSpan]
      omega
    obtain ⟨hsep, hstop, hcov, hin⟩ := popOverlapping_spec s.live.reverse _ hproper
      (by rw [List.reverse_reverse]; exact h.spans.separated)
      (fun d hd => hstops d (List.mem_reverse.mp hd))
    simp only [coveredBy_reverse] at hcov
    simp only [insideOf_reverse] at hin
    simp only [s', hsize, if_true, hspan]
    refine ⟨⟨head_protect_le grow h.spans.head_le _, ?_, ?_, ?_, hring, ?_⟩, rfl, ⟨rfl, rfl, rfl⟩⟩
    · rw [hlive]
      exact hsep
    · intro x hx
      rw [hlive, covered_concat_of_longest hm hne, h.spans.covered x hx]
      exact (hcov x).symm
    · intro x hx
      rw [hlive, straddled_concat_of_longest hm hne, h.spans.inside x hx]
      exact (hin x).symm
    · rw [hlive]
      exact hstop
  · have hnil : m = [] := List.length_eq_zero_iff.mp (by omega)
    subst hnil
    simp only [s', List.length_nil, Nat.lt_irrefl, if_false]
    refine ⟨⟨h.spans.head_le, h.spans.separated, ?_, ?_, hring, hstops⟩, rfl, ⟨rfl, rfl, rfl⟩⟩
    · intro x hx
      rw [covered_concat_of_none hm]
      exact h.spans.covered x hx
    · intro x hx
      rw [straddled_concat_of_none hm]
      exact h.spans.inside x hx

theorem writeByte_inv (grow : Nat → Nat) (hauto : Automaton patterns longest nodes word)
    (hlong : 0 < longest) (h : StreamInv patterns longest nodes word s text out) (b : UInt8) :
    StreamInv patterns longest nodes word (writeByte grow nodes s b).1 (text ++ [b])
      (out ++ (writeByte grow nodes s b).2) := by
  obtain ⟨hstate_lt, hadvance⟩ := advance_spec hauto.linked h.state_lt (fun _ _ _ => trivial) b
  have hstate := h.state.step inTree_prefixClosed hadvance
  have hnode := hauto.linked.linked _ hstate_lt trivial
  obtain ⟨m, hm, hmsize⟩ := hnode.matched
  obtain ⟨u', hu', husize⟩ := hnode.pending
  replace hm := hstate.of_longest inTree_of_isPattern hm
  replace hu' := hstate.of_longest inTree_of_underWay hu'
  obtain ⟨u, hu, hemitted⟩ := h.emitted
  have hstep := hu.length_step_le (underWay_prefixClosed _) hu'
  have hulen := hu.length_le
  have hulen' := hu'.length_le
  have hlen : (text ++ [b]).length = text.length + 1 := by simp
  obtain ⟨hinv, hemit, hsame⟩ := protect_spec grow hauto h hlong hm (advance nodes s.state b)
  -- the state and position that `emit` reads are those of the byte just read
  have hwrite : writeByte grow nodes s b =
      let read := { s with
        ring := s.ring.set (s.position % s.ring.length) b
        position := s.position + 1
        state := advance nodes s.state b }
      let s' := if 0 < m.length then protect grow read ⟨read.position - m.length, read.position⟩ else read
      emit s' ((text ++ [b]).length - u'.length) := by
    simp only [writeByte, hmsize]
    split_ifs
    · simp only [protect, husize, h.position, hlen]
    · simp only [husize, h.position, hlen]
  rw [hwrite]
  simp only at hinv hemit hsame ⊢
  generalize (if 0 < m.length then _ else _ : RedactionStream) = s' at hinv hemit hsame ⊢
  obtain ⟨hspans, hto, hsame', hwritten⟩ := emit_spec ((text ++ [b]).length - u'.length) hinv
    (by omega) (by omega)
  obtain ⟨hst, hpos, hring⟩ := hsame
  obtain ⟨hst', hpos', hring'⟩ := hsame'
  refine ⟨?_, ?_, ?_, ?_, ⟨u', hu', hto⟩, hspans, ?_⟩
  · rw [hpos', hpos, h.position, hlen]
  · rw [hst', hst]
    exact hstate_lt
  · rw [hst', hst]
    exact hstate
  · rw [hring', hring, List.length_set, h.ring_length]
  · -- what was emitted before stays what the longer text calls for
    have hbefore : out = segment redactionMarker (text ++ [b]) (Covered (IsPattern patterns) (text ++ [b]))
        (Straddled (IsPattern patterns) (text ++ [b])) 0 s.emitted := by
      rw [h.output]
      apply segment_congr
      · exact fun x _ hx => (covered_append_iff [b] hu (by omega)).symm
      · exact fun x _ hx => (straddled_append_iff [b] hu (by omega)).symm
      · exact fun x _ hx => (List.getElem?_append_left (by omega)).symm
    rw [hwritten, hto, hemit, hbefore]
    exact segment_append (Nat.zero_le _) (by omega)

theorem writeChunk_inv (grow : Nat → Nat) (hauto : Automaton patterns longest nodes word)
    (hlong : 0 < longest) (chunk : Bytes) (h : StreamInv patterns longest nodes word s text out) :
    StreamInv patterns longest nodes word (writeChunk grow nodes s chunk).1 (text ++ chunk)
      (out ++ (writeChunk grow nodes s chunk).2) := by
  induction chunk generalizing s text out with
  | nil => simpa [writeChunk] using h
  | cons b _ ih =>
    have hrest := ih (writeByte_inv grow hauto hlong h b)
    simpa [writeChunk, List.append_assoc] using hrest

theorem emit_rest (h : StreamInv patterns longest nodes word s text out) :
    out ++ (emit s s.position).2 = segment redactionMarker text (Covered (IsPattern patterns) text)
      (Straddled (IsPattern patterns) text) 0 text.length := by
  obtain ⟨u, -, hemitted⟩ := h.emitted
  have hpos := h.position
  obtain ⟨-, -, -, hwritten⟩ := emit_spec s.position h.spans (by omega) (by omega)
  rw [hwritten, h.output, segment_append (Nat.zero_le _) (by omega), hpos]

end Write

end NeroCD.Redaction
