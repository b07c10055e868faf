import Mathlib.Data.List.Infix

-- Longest suffixes of a text that lie in a language of words, which is what a multi-pattern automaton keeps: the step
-- rule, the fallback rule, and the rule that a smaller language only needs to look inside the kept word.

namespace NeroCD.Matching

variable {α : Type*}

-- The empty word is always admitted, so that a longest suffix exists for every language.
structure IsLongestSuffix (lang : List α → Prop) (text word : List α) : Prop where
  suffix : word <:+ text
  mem : word = [] ∨ lang word
  longest : ∀ v, v <:+ text → lang v → v.length ≤ word.length

def PrefixClosed (lang : List α → Prop) : Prop :=
  ∀ w a, lang (w ++ [a]) → lang w

namespace IsLongestSuffix

variable {lang sub : List α → Prop} {text word other : List α}

theorem nil (lang : List α → Prop) : IsLongestSuffix lang [] [] :=
  ⟨List.suffix_rfl, .inl rfl, fun _ hv _ => hv.length_le⟩

theorem self (h : lang word) : IsLongestSuffix lang word word :=
  ⟨List.suffix_rfl, .inr h, fun _ hv _ => hv.length_le⟩

theorem length_le (h : IsLongestSuffix lang text word) : word.length ≤ text.length :=
  h.suffix.length_le

theorem of_longest (hsub : ∀ v, sub v → lang v) (h : IsLongestSuffix lang text word)
    (hw : IsLongestSuffix sub word other) : IsLongestSuffix sub text other where
  suffix := hw.suffix.trans h.suffix
  mem := hw.mem
  longest := by
    intro v hv hmem
    have hlen := h.longest v hv (hsub v hmem)
    exact hw.longest v (List.suffix_of_suffix_length_le hv h.suffix hlen) hmem

theorem of_tail (hnot : ¬ lang text) (h : IsLongestSuffix lang text.tail word) :
    IsLongestSuffix lang text word where
  suffix := h.suffix.trans (List.tail_suffix text)
  mem := h.mem
  longest := by
    intro v hv hmem
    cases text with
    | nil => exact h.longest v hv hmem
    | cons _ _ =>
      rcases List.suffix_cons_iff.mp hv with rfl | hv
      · exact absurd hmem hnot
      · exact h.longest v hv hmem

theorem of_fallback (hsub : ∀ v, sub v → lang v) (hnot : ¬ sub text)
    (hfall : IsLongestSuffix lang text.tail word) (h : IsLongestSuffix sub word other) :
    IsLongestSuffix sub text other :=
  of_tail hnot (of_longest hsub hfall h)

-- Reading one more symbol only needs the kept word, not the text.
theorem step (hclosed : PrefixClosed lang) (h : IsLongestSuffix lang text word) {a : α}
    (hstep : IsLongestSuffix lang (word ++ [a]) other) :
    IsLongestSuffix lang (text ++ [a]) other where
  suffix := hstep.suffix.trans (List.suffix_append_self_iff.mpr h.suffix)
  mem := hstep.mem
  longest := by
    intro v hv hmem
    rcases List.suffix_concat_iff.mp hv with rfl | ⟨u, rfl, hu⟩
    · simp
    · have hlen := h.longest u hu (hclosed u a hmem)
      have hsuf := List.suffix_of_suffix_length_le hu h.suffix hlen
      exact hstep.longest (u ++ [a]) (List.suffix_append_self_iff.mpr hsuf) hmem

-- One fallback of the automaton: the kept word does not extend, so its fallback is tried instead.
theorem step_fallback (hclosed : PrefixClosed lang) {a : α} (hne : word ≠ [])
    (hnot : ¬ lang (word ++ [a])) {fall : List α} (hfall : IsLongestSuffix lang word.tail fall)
    (hstep : IsLongestSuffix lang (fall ++ [a]) other) :
    IsLongestSuffix lang (word ++ [a]) other := by
  apply of_tail hnot
  rw [List.tail_append_of_ne_nil hne]
  exact hfall.step hclosed hstep

-- The root does not extend either: nothing ends here.
theorem step_root {a : α} (hnot : ¬ lang [a]) : IsLongestSuffix lang [a] [] :=
  of_tail hnot (nil lang)

theorem length_step_le (hclosed : PrefixClosed lang) {a : α}
    (h : IsLongestSuffix lang text word) (h' : IsLongestSuffix lang (text ++ [a]) other) :
    other.length ≤ word.length + 1 := by
  rcases List.suffix_concat_iff.mp h'.suffix with rfl | ⟨u, rfl, hu⟩
  · simp
  · rcases h'.mem with hnil | hmem
    · simp at hnil
    · have hlen := h.longest u hu (hclosed u a hmem)
      simpa using hlen

end IsLongestSuffix

end NeroCD.Matching
