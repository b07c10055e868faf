import Mathlib.Data.List.Sort

-- Go's package `sort`. The order in which `sort.Slice` puts equal elements and the order in which a map is walked are
-- open: a program is modelled for every choice of the two.  `sort.Search` looks for the first index at which a test
-- holds.

namespace NeroCD.Sorting

variable {α β K : Type} [LinearOrder K] {less : α → α → Bool} {key : α → K}

def ByKey (less : α → α → Bool) (key : α → K) : Prop := ∀ a b, less a b = true ↔ key a < key b

structure Choices where
  sort : ∀ {α : Type}, (α → α → Bool) → List α → List α
  sort_perm : ∀ {α : Type} (less : α → α → Bool) (l : List α), (sort less l).Perm l
  sort_sorted : ∀ {α K : Type} [LinearOrder K] {less : α → α → Bool} {key : α → K}, ByKey less key →
    ∀ l, (sort less l).Pairwise fun a b => key a ≤ key b
  walk : ∀ {α : Type}, List α → List α
  walk_perm : ∀ {α : Type} (l : List α), (walk l).Perm l

theorem ByKey.not_less (h : ByKey less key) (a b : α) : less b a = false ↔ key a ≤ key b := by
  rw [← Bool.not_eq_true, h b a, not_lt]

def Choices.plain : Choices where
  sort less l := l.insertionSort fun a b => less b a = false
  sort_perm less l := List.perm_insertionSort _ l
  sort_sorted {α K} _ less key h l := by
    have hTotal : Std.Total fun a b : α => less b a = false :=
      ⟨fun a b => by simpa only [h.not_less] using le_total (key a) (key b)⟩
    have hTrans : IsTrans α fun a b : α => less b a = false :=
      ⟨fun a b c hab hbc => by
        rw [h.not_less] at hab hbc ⊢
        exact hab.trans hbc⟩
    exact (List.pairwise_insertionSort (fun a b => less b a = false) l).imp fun hab => (h.not_less _ _).mp hab
  walk l := l
  walk_perm l := .refl l

namespace Choices

variable (choices other : Choices)

theorem mem_sort {l : List α} {a : α} : a ∈ choices.sort less l ↔ a ∈ l := (choices.sort_perm less l).mem_iff

-- With distinct keys there is one sorted order, whatever the order of the input.
theorem sort_eq {l l' sorted : List α} (h : ByKey less key) (hPerm : sorted.Perm l')
    (hSorted : sorted.Pairwise fun a b => key a ≤ key b) (hl : l.Perm l')
    (hKey : ∀ a ∈ l', ∀ b ∈ l', key a = key b → a = b) : choices.sort less l = sorted := by
  have hSort := (choices.sort_perm less l).trans hl
  refine List.Perm.eq_of_pairwise (fun a b ha hb hab hba => ?_) (choices.sort_sorted h l) hSorted
    (hSort.trans hPerm.symm)
  exact hKey a (hSort.subset ha) b (hPerm.subset hb) (le_antisymm hab hba)

theorem sort_congr {l l' : List α} (h : ByKey less key) (hl : l.Perm l')
    (hKey : ∀ a ∈ l', ∀ b ∈ l', key a = key b → a = b) : choices.sort less l = other.sort less l' :=
  choices.sort_eq h (other.sort_perm less l') (other.sort_sorted h l') hl hKey

end Choices

section Search

def search (test : Nat → Bool) : Nat → Nat → Nat → Nat
  | 0, low, _ => low
  | fuel + 1, low, high =>
    if low < high then
      if test ((low + high) / 2) then search test fuel low ((low + high) / 2)
      else search test fuel ((low + high) / 2 + 1) high
    else low

theorem search_eq {test : Nat → Bool} {first fuel low high : Nat} (hFuel : high - low ≤ fuel) (hLow : low ≤ first)
    (hHigh : first ≤ high) (hBelow : ∀ i, i < first → test i = false)
    (hAbove : ∀ i, first ≤ i → i < high → test i = true) : search test fuel low high = first := by
  induction fuel generalizing low high with
  | zero =>
    rw [search]
    omega
  | succ _ ih =>
    rw [search]
    by_cases hOpen : low < high
    · rw [if_pos hOpen]
      by_cases hMiddle : first ≤ (low + high) / 2
      · rw [hAbove _ hMiddle (by omega), if_pos rfl]
        exact ih (by omega) hLow hMiddle fun i hi hlt => hAbove i hi (by omega)
      · rw [hBelow _ (by omega)]
        exact ih (by omega) (by omega) hHigh hAbove
    · rw [if_neg hOpen]
      omega

end Search

end NeroCD.Sorting
