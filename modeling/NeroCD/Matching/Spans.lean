import Mathlib.Data.List.Infix
import Mathlib.Data.List.Range

-- Half-open spans of a text, merged where they strictly overlap, and the text with a marker for every merged span.  A
-- covered position that is strictly inside no span is where a marker is written.

namespace NeroCD.Matching

structure Span where
  start : Nat
  stop : Nat
deriving DecidableEq, Repr

namespace Span

def Covers (d : Span) (x : Nat) : Prop := d.start ≤ x ∧ x < d.stop

def Inside (d : Span) (x : Nat) : Prop := d.start < x ∧ x < d.stop

def hull (a b : Span) : Span := ⟨min a.start b.start, max a.stop b.stop⟩

def Overlaps (a b : Span) : Prop := a.start < b.stop ∧ b.start < a.stop

theorem hull_covers {a b : Span} (h : a.Overlaps b) (x : Nat) :
    (a.hull b).Covers x ↔ a.Covers x ∨ b.Covers x := by
  simp only [Overlaps, Covers, hull] at *
  omega

theorem hull_inside {a b : Span} (h : a.Overlaps b) (x : Nat) :
    (a.hull b).Inside x ↔ a.Inside x ∨ b.Inside x := by
  simp only [Overlaps, Inside, hull] at *
  omega

end Span

-- Neighbours may touch but not overlap.
structure Separated (l : List Span) : Prop where
  ordered : l.Pairwise fun a b => a.stop ≤ b.start
  proper : ∀ d ∈ l, d.start < d.stop

def CoveredBy (l : List Span) (x : Nat) : Prop := ∃ d ∈ l, d.Covers x

def InsideOf (l : List Span) (x : Nat) : Prop := ∃ d ∈ l, d.Inside x

section Lists

variable {l l' : List Span} {d : Span} {x : Nat}

@[simp] theorem coveredBy_nil : ¬ CoveredBy [] x := by simp [CoveredBy]

@[simp] theorem insideOf_nil : ¬ InsideOf [] x := by simp [InsideOf]

@[simp] theorem coveredBy_cons : CoveredBy (d :: l) x ↔ d.Covers x ∨ CoveredBy l x := by
  simp [CoveredBy]

@[simp] theorem insideOf_cons : InsideOf (d :: l) x ↔ d.Inside x ∨ InsideOf l x := by
  simp [InsideOf]

@[simp] theorem coveredBy_append : CoveredBy (l ++ l') x ↔ CoveredBy l x ∨ CoveredBy l' x := by
  simp [CoveredBy, or_and_right, exists_or]

@[simp] theorem insideOf_append : InsideOf (l ++ l') x ↔ InsideOf l x ∨ InsideOf l' x := by
  simp [InsideOf, or_and_right, exists_or]

theorem Separated.nil : Separated [] := ⟨.nil, by simp⟩

theorem Separated.tail (h : Separated (d :: l)) : Separated l :=
  ⟨h.ordered.of_cons, fun a ha => h.proper a (List.mem_cons_of_mem d ha)⟩

theorem Separated.append_left (h : Separated (l ++ l')) : Separated l :=
  ⟨(List.pairwise_append.mp h.ordered).1, fun a ha => h.proper a (List.mem_append_left l' ha)⟩

theorem Separated.concat (h : Separated l) (hd : d.start < d.stop)
    (hstop : ∀ a ∈ l, a.stop ≤ d.start) : Separated (l ++ [d]) where
  ordered := List.pairwise_append.mpr ⟨h.ordered, List.pairwise_singleton _ d, by simpa using hstop⟩
  proper := by
    intro a ha
    rcases List.mem_append.mp ha with ha | ha
    · exact h.proper a ha
    · rwa [List.mem_singleton.mp ha]

theorem Separated.start_ge_of_mem_tail (h : Separated (d :: l)) {a : Span} (ha : a ∈ l) :
    d.stop ≤ a.start :=
  List.rel_of_pairwise_cons h.ordered ha

theorem Separated.not_coveredBy_tail (h : Separated (d :: l)) (hx : x < d.stop) :
    ¬ CoveredBy l x := by
  rintro ⟨a, ha, hcov⟩
  have := h.start_ge_of_mem_tail ha
  simp only [Span.Covers] at hcov
  omega

theorem InsideOf.coveredBy (h : InsideOf l x) : CoveredBy l x := by
  obtain ⟨d, hd, hlt, hstop⟩ := h
  exact ⟨d, hd, Nat.le_of_lt hlt, hstop⟩

theorem Separated.not_insideOf_tail (h : Separated (d :: l)) (hx : x < d.stop) :
    ¬ InsideOf l x :=
  fun hin => h.not_coveredBy_tail hx hin.coveredBy

theorem coveredBy_dropWhile (l : List Span) {e x : Nat} (hx : e ≤ x) :
    (CoveredBy (l.dropWhile fun d => d.stop ≤ e) x ↔ CoveredBy l x) ∧
    (InsideOf (l.dropWhile fun d => d.stop ≤ e) x ↔ InsideOf l x) := by
  induction l with
  | nil => simp
  | cons d l ih =>
    by_cases hstop : d.stop ≤ e
    · simp only [List.dropWhile_cons, hstop, decide_true, if_true, coveredBy_cons, insideOf_cons, ih.1, ih.2]
      constructor
      · simp only [Span.Covers, iff_or_self]
        omega
      · simp only [Span.Inside, iff_or_self]
        omega
    · simp [hstop]

theorem Separated.dropWhile {l : List Span} (h : Separated l) (p : Span → Bool) :
    Separated (l.dropWhile p) :=
  ⟨h.ordered.sublist (List.dropWhile_sublist p), fun d hd => h.proper d ((List.dropWhile_sublist p).subset hd)⟩

end Lists

-- Merging by a left-to-right scan of spans ordered by their start.

-- `merged` is kept with its last span first.
def mergeInto (merged : List Span) (found : Span) : List Span :=
  match merged with
  | [] => [found]
  | last :: rest =>
    if found.start < last.stop then { last with stop := max last.stop found.stop } :: rest
    else found :: last :: rest

def mergeSpans (spans : List Span) : List Span :=
  (spans.foldl mergeInto []).reverse

section Merge

variable {merged : List Span} {found : Span}

-- One scan step: the merged list stays separated and now also accounts for `found`.
theorem mergeInto_spec (hsep : Separated merged.reverse) (hfound : found.start < found.stop)
    (hstart : ∀ d ∈ merged, d.start ≤ found.start) :
    Separated (mergeInto merged found).reverse ∧
    (∀ d ∈ mergeInto merged found, d.start ≤ found.start) ∧
    (∀ x, CoveredBy (mergeInto merged found) x ↔ CoveredBy merged x ∨ found.Covers x) ∧
    (∀ x, InsideOf (mergeInto merged found) x ↔ InsideOf merged x ∨ found.Inside x) := by
  cases merged with
  | nil => simpa [mergeInto] using Separated.nil.concat hfound (by simp)
  | cons last rest =>
    have hlast := hstart last List.mem_cons_self
    have hproper := hsep.proper last (by simp)
    rw [List.reverse_cons] at hsep
    have hsplit := List.pairwise_append.mp hsep.ordered
    have hbefore : ∀ a ∈ rest.reverse, a.stop ≤ last.start :=
      fun a ha => hsplit.2.2 a ha last (by simp)
    by_cases hover : found.start < last.stop
    · -- the last span grows to the hull of itself and the one found
      have hhull : { last with stop := max last.stop found.stop } = last.hull found := by
        simp [Span.hull, hlast]
      have hoverlaps : last.Overlaps found := by
        simp only [Span.Overlaps]
        omega
      simp only [mergeInto, hover, if_true, hhull]
      refine ⟨?_, ?_, ?_, ?_⟩
      · rw [List.reverse_cons]
        apply hsep.append_left.concat
        · simp only [Span.hull]
          omega
        · intro a ha
          have := hbefore a ha
          simp only [Span.hull]
          omega
      · intro d hd
        rcases List.mem_cons.mp hd with rfl | hd
        · exact Nat.min_le_right _ _
        · exact hstart d (List.mem_cons_of_mem last hd)
      · intro x
        simp only [coveredBy_cons, Span.hull_covers hoverlaps]
        tauto
      · intro x
        simp only [insideOf_cons, Span.hull_inside hoverlaps]
        tauto
    · simp only [mergeInto, hover, if_false]
      refine ⟨?_, ?_, ?_, ?_⟩
      · rw [List.reverse_cons, List.reverse_cons]
        apply hsep.concat hfound
        intro a ha
        rcases List.mem_append.mp ha with ha | ha
        · have := hbefore a ha
          omega
        · rw [List.mem_singleton.mp ha]
          omega
      · intro d hd
        rcases List.mem_cons.mp hd with rfl | hd
        · exact Nat.le_refl _
        · exact hstart d hd
      · intro x
        rw [coveredBy_cons, or_comm]
      · intro x
        rw [insideOf_cons, or_comm]

theorem foldl_mergeInto_spec (merged spans : List Span) (hsep : Separated merged.reverse)
    (hproper : ∀ d ∈ spans, d.start < d.stop)
    (hsorted : spans.Pairwise fun a b => a.start ≤ b.start)
    (hstart : ∀ d ∈ merged, ∀ b ∈ spans, d.start ≤ b.start) :
    Separated (spans.foldl mergeInto merged).reverse ∧
    (∀ x, CoveredBy (spans.foldl mergeInto merged) x ↔ CoveredBy merged x ∨ CoveredBy spans x) ∧
    (∀ x, InsideOf (spans.foldl mergeInto merged) x ↔ InsideOf merged x ∨ InsideOf spans x) := by
  induction spans generalizing merged with
  | nil => simpa using hsep
  | cons found rest ih =>
    obtain ⟨hsep', hstart', hcov, hin⟩ := mergeInto_spec hsep
      (hproper found List.mem_cons_self) (fun d hd => hstart d hd found List.mem_cons_self)
    have hlater : ∀ b ∈ rest, found.start ≤ b.start := fun b hb => List.rel_of_pairwise_cons hsorted hb
    obtain ⟨hs, hc, hi⟩ := ih (mergeInto merged found) hsep' (fun d hd => hproper d (List.mem_cons_of_mem found hd))
      hsorted.of_cons (fun d hd b hb => Nat.le_trans (hstart' d hd) (hlater b hb))
    rw [List.foldl_cons]
    refine ⟨hs, ?_, ?_⟩
    · intro x
      rw [hc, hcov, coveredBy_cons, or_assoc]
    · intro x
      rw [hi, hin, insideOf_cons, or_assoc]

@[simp] theorem coveredBy_reverse {l : List Span} {x : Nat} : CoveredBy l.reverse x ↔ CoveredBy l x := by
  simp [CoveredBy]

@[simp] theorem insideOf_reverse {l : List Span} {x : Nat} : InsideOf l.reverse x ↔ InsideOf l x := by
  simp [InsideOf]

theorem mergeSpans_spec {spans : List Span} (hproper : ∀ d ∈ spans, d.start < d.stop)
    (hsorted : spans.Pairwise fun a b => a.start ≤ b.start) :
    Separated (mergeSpans spans) ∧
    (∀ x, CoveredBy (mergeSpans spans) x ↔ CoveredBy spans x) ∧
    (∀ x, InsideOf (mergeSpans spans) x ↔ InsideOf spans x) := by
  obtain ⟨hsep, hcov, hin⟩ := foldl_mergeInto_spec [] spans Separated.nil hproper hsorted (by simp)
  exact ⟨hsep, by simpa [mergeSpans] using hcov, by simpa [mergeSpans] using hin⟩

end Merge

-- The rendering of a text, position by position.

section Render

variable {α : Type*} (marker text : List α)

open Classical in
-- What one position contributes: its own symbol when no span covers it, a marker where a merged
-- span begins, and nothing inside one.
noncomputable def piece (covered inside : Nat → Prop) (x : Nat) : List α :=
  if inside x then [] else if covered x then marker else text[x]?.toList

noncomputable def segment (covered inside : Nat → Prop) (a b : Nat) : List α :=
  (List.range' a (b - a)).flatMap (piece marker text covered inside)

def render (offset : Nat) : List Span → List α
  | [] => text.drop offset
  | found :: rest => (text.drop offset).take (found.start - offset) ++ marker ++ render found.stop rest

variable {marker text} {covered inside covered' inside' : Nat → Prop} {a b c : Nat}

@[simp] theorem segment_self : segment marker text covered inside a a = [] := by
  simp [segment]

theorem segment_append (hab : a ≤ b) (hbc : b ≤ c) :
    segment marker text covered inside a b ++ segment marker text covered inside b c =
      segment marker text covered inside a c := by
  have hlen : c - a = (b - a) + (c - b) := by omega
  have hstart : a + 1 * (b - a) = b := by omega
  simp only [segment]
  rw [hlen, ← List.range'_append, hstart, List.flatMap_append]

theorem segment_succ (hab : a ≤ b) :
    segment marker text covered inside a (b + 1) =
      segment marker text covered inside a b ++ piece marker text covered inside b := by
  rw [← segment_append hab (Nat.le_succ b)]
  simp [segment]

theorem segment_congr {text' : List α} (hcov : ∀ x, a ≤ x → x < b → (covered x ↔ covered' x))
    (hin : ∀ x, a ≤ x → x < b → (inside x ↔ inside' x))
    (htext : ∀ x, a ≤ x → x < b → text[x]? = text'[x]?) :
    segment marker text covered inside a b = segment marker text' covered' inside' a b := by
  simp only [segment]
  apply List.flatMap_congr
  intro x hx
  have hx' := List.mem_range'_1.mp hx
  have hlt : x < b := by omega
  have hcov' : covered x = covered' x := propext (hcov x hx'.1 hlt)
  have hin' : inside x = inside' x := propext (hin x hx'.1 hlt)
  rw [piece, piece, htext x hx'.1 hlt, hcov', hin']

theorem segment_uncovered (hb : b ≤ text.length)
    (hcov : ∀ x, a ≤ x → x < b → ¬ covered x) (hin : ∀ x, a ≤ x → x < b → ¬ inside x) :
    segment marker text covered inside a b = (text.drop a).take (b - a) := by
  induction hn : b - a generalizing a with
  | zero => simp [segment, hn]
  | succ n ih =>
    have hab : a < b := by omega
    rw [← segment_append (Nat.le_succ a) hab,
      ih (fun x hx => hcov x (by omega)) (fun x hx => hin x (by omega)) (by omega), segment_succ le_rfl,
      segment_self, List.nil_append]
    have hget : text[a]? = some text[a] := List.getElem?_eq_getElem (by omega)
    simp only [piece, hcov a le_rfl hab, hin a le_rfl hab, if_false, hget, Option.toList_some]
    rw [List.drop_eq_getElem_cons (show a < text.length by omega), List.take_succ_cons]
    rfl

theorem segment_span {d : Span} (hd : d.start < d.stop) (hcov : ∀ x, d.Covers x → covered x)
    (hin : ∀ x, d.Covers x → (inside x ↔ x ≠ d.start)) :
    segment marker text covered inside d.start d.stop = marker := by
  rw [← segment_append (Nat.le_succ d.start) hd, segment_succ le_rfl, segment_self]
  have hfirst : d.Covers d.start := ⟨le_rfl, hd⟩
  have hrest : segment marker text covered inside (d.start + 1) d.stop = [] := by
    simp only [segment, List.flatMap_eq_nil_iff]
    intro x hx
    have hx' := List.mem_range'_1.mp hx
    have hinside : inside x := (hin x ⟨by omega, by omega⟩).mpr (by omega)
    simp [piece, hinside]
  have hstart : ¬ inside d.start := by simp [hin d.start hfirst]
  rw [hrest, piece, if_neg hstart, if_pos (hcov d.start hfirst)]
  simp

theorem render_eq_segment {l : List Span} (hsep : Separated l)
    (hstart : ∀ d ∈ l, a ≤ d.start) (hstop : ∀ d ∈ l, d.stop ≤ text.length) (ha : a ≤ text.length) :
    render marker text a l = segment marker text (CoveredBy l) (InsideOf l) a text.length := by
  induction l generalizing a with
  | nil => rw [render, segment_uncovered le_rfl (by simp) (by simp), List.take_of_length_le (by simp)]
  | cons d rest ih =>
    have had := hstart d List.mem_cons_self
    have hdstop := hstop d List.mem_cons_self
    have hd := hsep.proper d List.mem_cons_self
    have hrest : ∀ x, x < d.stop → ¬ CoveredBy rest x ∧ ¬ InsideOf rest x :=
      fun x hx => ⟨hsep.not_coveredBy_tail hx, hsep.not_insideOf_tail hx⟩
    have hbefore : segment marker text (CoveredBy (d :: rest)) (InsideOf (d :: rest)) a d.start =
        (text.drop a).take (d.start - a) := by
      apply segment_uncovered (by omega)
      · intro x _ hx
        have hnot := hrest x (by omega)
        simp only [coveredBy_cons, Span.Covers, hnot.1, or_false]
        omega
      · intro x _ hx
        have hnot := hrest x (by omega)
        simp only [insideOf_cons, Span.Inside, hnot.2, or_false]
        omega
    have hspan : segment marker text (CoveredBy (d :: rest)) (InsideOf (d :: rest)) d.start d.stop =
        marker := by
      apply segment_span hd
      · intro x hx
        simp [hx]
      · intro x hx
        simp only [Span.Covers] at hx
        have hnot := hrest x hx.2
        simp only [insideOf_cons, Span.Inside, hnot.2, or_false]
        omega
    have hafter : segment marker text (CoveredBy (d :: rest)) (InsideOf (d :: rest)) d.stop text.length =
        segment marker text (CoveredBy rest) (InsideOf rest) d.stop text.length := by
      apply segment_congr
      · intro x hx _
        simp only [coveredBy_cons, Span.Covers, or_iff_right_iff_imp]
        omega
      · intro x hx _
        simp only [insideOf_cons, Span.Inside, or_iff_right_iff_imp]
        omega
      · intro x _ _
        rfl
    rw [render, ih hsep.tail (fun b hb => hsep.start_ge_of_mem_tail hb)
      (fun b hb => hstop b (List.mem_cons_of_mem d hb)) hdstop, ← hafter, ← hbefore]
    nth_rewrite 2 [← hspan]
    rw [segment_append had (Nat.le_of_lt hd), segment_append (by omega) hdstop]

-- Parts of the text with a marker between any two of them, and no span reaches into a part.
theorem render_parts (marker text : List α) {spans : List Span} {offset : Nat} (hsep : Separated spans)
    (hstart : ∀ d ∈ spans, offset ≤ d.start) :
    ∃ first rest, render marker text offset spans = marker.intercalate (first :: rest) ∧
      ∀ part ∈ first :: rest, ∃ a n, offset ≤ a ∧ part = (text.drop a).take n ∧
        ∀ x, a ≤ x → x < a + n → ¬ CoveredBy spans x := by
  induction spans generalizing offset with
  | nil =>
    refine ⟨text.drop offset, [], by simp [render, List.intercalate], ?_⟩
    intro part hpart
    exact ⟨offset, text.length, le_rfl, by simp_all [List.take_of_length_le], by simp⟩
  | cons d spans ih =>
    obtain ⟨first, rest, heq, hparts⟩ := ih hsep.tail fun _ => hsep.start_ge_of_mem_tail
    have hd := hstart d List.mem_cons_self
    have hproper := hsep.proper d List.mem_cons_self
    refine ⟨(text.drop offset).take (d.start - offset), first :: rest, by simp [render, heq, List.intercalate], ?_⟩
    intro part hpart
    rcases List.mem_cons.mp hpart with rfl | hpart
    · refine ⟨offset, d.start - offset, le_rfl, rfl, ?_⟩
      intro x hx hlt
      have hrest := hsep.not_coveredBy_tail (x := x) (by omega)
      simp only [coveredBy_cons, Span.Covers, hrest, or_false]
      omega
    · obtain ⟨a, n, ha, hpart, hfree⟩ := hparts part hpart
      refine ⟨a, n, by omega, hpart, ?_⟩
      intro x hx hlt
      simp only [coveredBy_cons, Span.Covers, hfree x hx hlt, or_false]
      omega

end Render

end NeroCD.Matching
