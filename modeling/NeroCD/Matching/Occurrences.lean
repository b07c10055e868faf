import NeroCD.Matching.Suffix
import NeroCD.Matching.Spans

-- Occurrences of words in a text that grows at its right end.  Of those that end at one position only the longest
-- matters; and one that ends later starts no earlier than the longest word under way.

namespace NeroCD.Matching

variable {α : Type*}

def Occurs (lang : List α → Prop) (text : List α) (d : Span) : Prop :=
  d.start < d.stop ∧ d.stop ≤ text.length ∧ lang ((text.drop d.start).take (d.stop - d.start))

def Covered (lang : List α → Prop) (text : List α) (x : Nat) : Prop :=
  ∃ d, Occurs lang text d ∧ d.Covers x

def Straddled (lang : List α → Prop) (text : List α) (x : Nat) : Prop :=
  ∃ d, Occurs lang text d ∧ d.Inside x

def UnderWay (lang : List α → Prop) (w : List α) : Prop :=
  ∃ v, v ≠ [] ∧ lang (w ++ v)

theorem underWay_prefixClosed (lang : List α → Prop) : PrefixClosed (UnderWay lang) := by
  rintro w a ⟨v, -, hv⟩
  exact ⟨a :: v, by simp, by simpa using hv⟩

section

variable {lang : List α → Prop} {text : List α} {d : Span} {x : Nat}

@[simp] theorem not_covered_nil : ¬ Covered lang [] x := by
  rintro ⟨d, ⟨hlt, hle, -⟩, -⟩
  simp only [List.length_nil] at hle
  omega

@[simp] theorem not_straddled_nil : ¬ Straddled lang [] x := by
  rintro ⟨d, ⟨hlt, hle, -⟩, -⟩
  simp only [List.length_nil] at hle
  omega

theorem occurs_append_iff (rest : List α) (hstop : d.stop ≤ text.length) :
    Occurs lang (text ++ rest) d ↔ Occurs lang text d := by
  have hle : d.stop ≤ (text ++ rest).length := by
    rw [List.length_append]
    omega
  have hword : d.start < d.stop → ((text ++ rest).drop d.start).take (d.stop - d.start) =
      (text.drop d.start).take (d.stop - d.start) := by
    intro hlt
    rw [List.drop_append_of_le_length (by omega), List.take_append_of_le_length]
    rw [List.length_drop]
    omega
  constructor
  · rintro ⟨hlt, -, hmem⟩
    exact ⟨hlt, hstop, by rwa [hword hlt] at hmem⟩
  · rintro ⟨hlt, -, hmem⟩
    exact ⟨hlt, hle, by rwa [hword hlt]⟩

theorem occurs_at_end_iff (hstop : d.stop = text.length) :
    Occurs lang text d ↔ d.start < text.length ∧ lang (text.drop d.start) := by
  have hword : (text.drop d.start).take (text.length - d.start) = text.drop d.start :=
    List.take_of_length_le (by rw [List.length_drop])
  simp only [Occurs, hstop, hword, le_rfl, true_and]

variable {u w : List α} {a : α}

-- No occurrence that ends beyond `text` starts before the longest word under way.
theorem start_ge_of_underWay {rest : List α} (hu : IsLongestSuffix (UnderWay lang) text u)
    (hocc : Occurs lang (text ++ rest) d) (hstop : text.length < d.stop) : text.length - u.length ≤ d.start := by
  by_contra hlt
  obtain ⟨-, hle, hmem⟩ := hocc
  have hsplit : ((text ++ rest).drop d.start).take (d.stop - d.start) =
      text.drop d.start ++ rest.take (d.stop - text.length) := by
    rw [List.drop_append_of_le_length (by omega), List.take_append, List.length_drop,
      List.take_of_length_le (by rw [List.length_drop]; omega)]
    congr 2
    omega
  rw [hsplit] at hmem
  have hne : rest.take (d.stop - text.length) ≠ [] := by
    rw [List.length_append] at hle
    intro hnil
    have := congrArg List.length hnil
    rw [List.length_take, List.length_nil] at this
    omega
  have := hu.longest (text.drop d.start) (List.drop_suffix d.start text) ⟨_, hne, hmem⟩
  rw [List.length_drop] at this
  omega

-- What lies before the longest word under way is settled, whatever follows.
theorem exists_occurs_append_iff {touches : Span → Prop} (rest : List α)
    (hu : IsLongestSuffix (UnderWay lang) text u) (htouch : ∀ d, touches d → d.start ≤ x)
    (hx : x < text.length - u.length) :
    (∃ d, Occurs lang (text ++ rest) d ∧ touches d) ↔ ∃ d, Occurs lang text d ∧ touches d := by
  constructor
  · rintro ⟨d, hocc, hd⟩
    by_cases hstop : d.stop ≤ text.length
    · exact ⟨d, (occurs_append_iff rest hstop).mp hocc, hd⟩
    · have hge := start_ge_of_underWay hu hocc (by omega)
      have hle := htouch d hd
      omega
  · rintro ⟨d, hocc, hd⟩
    exact ⟨d, (occurs_append_iff rest hocc.2.1).mpr hocc, hd⟩

theorem covered_append_iff (rest : List α) (hu : IsLongestSuffix (UnderWay lang) text u)
    (hx : x < text.length - u.length) : Covered lang (text ++ rest) x ↔ Covered lang text x :=
  exists_occurs_append_iff rest hu (fun _ hd => hd.1) hx

theorem straddled_append_iff (rest : List α) (hu : IsLongestSuffix (UnderWay lang) text u)
    (hx : x < text.length - u.length) : Straddled lang (text ++ rest) x ↔ Straddled lang text x :=
  exists_occurs_append_iff rest hu (fun _ hd => Nat.le_of_lt hd.1) hx

theorem occurs_concat_iff :
    Occurs lang (text ++ [a]) d ↔
      Occurs lang text d ∨ (d.stop = text.length + 1 ∧ Occurs lang (text ++ [a]) d) := by
  by_cases hstop : d.stop ≤ text.length
  · rw [occurs_append_iff [a] hstop]
    constructor
    · exact .inl
    · rintro (hocc | ⟨heq, -⟩)
      · exact hocc
      · omega
  · constructor
    · intro hocc
      have hle := hocc.2.1
      rw [List.length_append, List.length_singleton] at hle
      exact .inr ⟨by omega, hocc⟩
    · rintro (hocc | ⟨-, hocc⟩)
      · exact absurd hocc.2.1 hstop
      · exact hocc

def suffixSpan (text w : List α) : Span := ⟨text.length - w.length, text.length⟩

theorem occurs_suffixSpan (hw : IsLongestSuffix lang text w) (hne : w ≠ []) :
    Occurs lang text (suffixSpan text w) := by
  have hlen := List.length_pos_iff.mpr hne
  have hle := hw.length_le
  rw [occurs_at_end_iff (show (suffixSpan text w).stop = text.length from rfl)]
  refine ⟨show text.length - w.length < text.length by omega, ?_⟩
  have hdrop : text.drop (text.length - w.length) = w := (List.suffix_iff_eq_drop.mp hw.suffix).symm
  simpa [suffixSpan, hdrop] using hw.mem.resolve_left hne

theorem start_ge_of_longest (hw : IsLongestSuffix lang text w) (hocc : Occurs lang text d)
    (hstop : d.stop = text.length) : text.length - w.length ≤ d.start ∧ w ≠ [] := by
  obtain ⟨hlt, hmem⟩ := (occurs_at_end_iff hstop).mp hocc
  have hlong := hw.longest _ (List.drop_suffix d.start text) hmem
  rw [List.length_drop] at hlong
  refine ⟨by omega, ?_⟩
  rintro rfl
  simp only [List.length_nil] at hlong
  omega

theorem occurs_concat_of_none (hw : IsLongestSuffix lang (text ++ [a]) []) :
    Occurs lang (text ++ [a]) d ↔ Occurs lang text d := by
  rw [occurs_concat_iff]
  constructor
  · rintro (hocc | ⟨hstop, hocc⟩)
    · exact hocc
    · exact absurd rfl (start_ge_of_longest hw hocc (by simpa using hstop)).2
  · exact .inl

theorem covered_concat_of_none (hw : IsLongestSuffix lang (text ++ [a]) []) :
    Covered lang (text ++ [a]) x ↔ Covered lang text x := by
  simp only [Covered, occurs_concat_of_none hw]

theorem straddled_concat_of_none (hw : IsLongestSuffix lang (text ++ [a]) []) :
    Straddled lang (text ++ [a]) x ↔ Straddled lang text x := by
  simp only [Straddled, occurs_concat_of_none hw]

theorem exists_occurs_concat_iff {touches : Span → Prop} (hw : IsLongestSuffix lang (text ++ [a]) w) (hne : w ≠ [])
    (hmono : ∀ d d', d'.start ≤ d.start → d.stop = d'.stop → touches d → touches d') :
    (∃ d, Occurs lang (text ++ [a]) d ∧ touches d) ↔
      (∃ d, Occurs lang text d ∧ touches d) ∨ touches (suffixSpan (text ++ [a]) w) := by
  constructor
  · rintro ⟨d, hocc, hd⟩
    rcases occurs_concat_iff.mp hocc with hold | ⟨hstop, hnew⟩
    · exact .inl ⟨d, hold, hd⟩
    · have hend : d.stop = (text ++ [a]).length := by simpa using hstop
      exact .inr (hmono d _ (start_ge_of_longest hw hnew hend).1 hend hd)
  · rintro (⟨d, hocc, hd⟩ | hd)
    · exact ⟨d, occurs_concat_iff.mpr (.inl hocc), hd⟩
    · exact ⟨_, occurs_suffixSpan hw hne, hd⟩

theorem covered_concat_of_longest (hw : IsLongestSuffix lang (text ++ [a]) w) (hne : w ≠ []) :
    Covered lang (text ++ [a]) x ↔ Covered lang text x ∨ (suffixSpan (text ++ [a]) w).Covers x := by
  apply exists_occurs_concat_iff hw hne
  intro d d' hstart hstop hd
  simp only [Span.Covers] at *
  omega

theorem straddled_concat_of_longest (hw : IsLongestSuffix lang (text ++ [a]) w) (hne : w ≠ []) :
    Straddled lang (text ++ [a]) x ↔
      Straddled lang text x ∨ (suffixSpan (text ++ [a]) w).Inside x := by
  apply exists_occurs_concat_iff hw hne
  intro d d' hstart hstop hd
  simp only [Span.Inside] at *
  omega

theorem covered_of_word (lang : List α → Prop) {word : List α} {start n : Nat} (hword : lang word) (hne : word ≠ [])
    (h : word <:+: (text.drop start).take n) : ∃ x, start ≤ x ∧ x < start + n ∧ Covered lang text x := by
  obtain ⟨s, t, heq⟩ := h
  have hpos := List.length_pos_iff.mpr hne
  have hlen := congrArg List.length heq
  simp only [List.length_append, List.length_take, List.length_drop] at hlen
  have hfound := congrArg (fun l => (l.drop s.length).take word.length) heq
  simp only [List.append_assoc, List.drop_left, List.take_left, List.drop_take, List.take_take,
    List.drop_drop] at hfound
  rw [Nat.min_eq_left (by omega)] at hfound
  refine ⟨start + s.length, by omega, by omega, ⟨start + s.length, start + s.length + word.length⟩, ⟨?_, ?_, ?_⟩, ?_⟩
  · exact Nat.lt_add_of_pos_right hpos
  · simp only
    omega
  · rwa [Nat.add_sub_cancel_left, ← hfound]
  · exact ⟨Nat.le_refl _, Nat.lt_add_of_pos_right hpos⟩

end

end NeroCD.Matching
