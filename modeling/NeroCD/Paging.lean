import Mathlib.Data.List.Sort
import Mathlib.Data.Nat.ModEq

-- Bounded scans of a list in key order. A full page moves the cursor to its last key, a shorter page drops it, so no
-- item is passed over for longer than one lap.

namespace NeroCD.Paging

variable {α κ : Type} [LinearOrder κ]

def after (key : α → κ) (cursor : Option κ) (x : α) : Bool :=
  cursor.all (fun c => decide (c < key x))

def page (key : α → κ) (size : Nat) (cursor : Option κ) (items : List α) : List α :=
  ((items.filter (after key cursor)).insertionSort (fun x y => key x ≤ key y)).take size

def nextCursor (key : α → κ) (size : Nat) (examined : List α) : Option κ :=
  if examined.length = size then examined.getLast?.map key else none

def ahead (key : α → κ) (cursor : Option κ) (target : α) (items : List α) : Nat :=
  items.countP (fun x => after key cursor x && decide (key x < key target))

def remaining (key : α → κ) (cursor : Option κ) (items : List α) : Nat :=
  items.countP (after key cursor)

-- The pages up to the target if it is ahead of the cursor, and otherwise also the rest of the lap.
def wait (key : α → κ) (size : Nat) (cursor : Option κ) (target : α) (items : List α) : Nat :=
  if after key cursor target then ahead key cursor target items / size + 1
  else remaining key cursor items / size + 1 + (ahead key none target items / size + 1)

variable {key : α → κ} {size : Nat} {cursor : Option κ} {items : List α} {target : α}

omit [LinearOrder κ] in
theorem countP_add_le (p q r : α → Bool) (xs : List α) (hp : ∀ x, p x → r x) (hq : ∀ x, q x → r x)
    (hpq : ∀ x, p x → ¬ q x) : xs.countP p + xs.countP q ≤ xs.countP r := by
  induction xs with
  | nil => simp
  | cons x _ _ =>
    simp only [List.countP_cons]
    by_cases hpx : p x
    · have hqx : ¬ q x := hpq x hpx
      have hrx : r x := hp x hpx
      simp only [hpx, hqx, hrx, if_true, Bool.false_eq_true, if_false]
      omega
    · by_cases hqx : q x
      · have hrx : r x := hq x hqx
        simp only [hpx, hqx, hrx, if_true, Bool.false_eq_true, if_false]
        omega
      · simp only [hpx, hqx, Bool.false_eq_true, if_false]
        omega

theorem after_some (c : κ) (x : α) : after key (some c) x = true ↔ c < key x := by
  simp [after]

theorem sorted_pairwise (key : α → κ) (xs : List α) :
    (xs.insertionSort (fun x y => key x ≤ key y)).Pairwise (fun x y => key x ≤ key y) := by
  have : Std.Total (fun x y : α => key x ≤ key y) := ⟨fun x y => le_total (key x) (key y)⟩
  have : IsTrans α (fun x y => key x ≤ key y) := ⟨fun _ _ _ h h' => le_trans h h'⟩
  exact List.pairwise_insertionSort _ xs

theorem page_pairwise (key : α → κ) (size : Nat) (cursor : Option κ) (items : List α) :
    (page key size cursor items).Pairwise (fun x y => key x ≤ key y) :=
  (sorted_pairwise key _).sublist (List.take_sublist _ _)

theorem mem_page {x : α} (hx : x ∈ page key size cursor items) :
    x ∈ items ∧ after key cursor x = true := by
  have h := List.mem_of_mem_take hx
  rw [List.mem_insertionSort, List.mem_filter] at h
  exact h

theorem page_of_notMem (hMem : target ∈ items) (hAfter : after key cursor target = true)
    (hNot : target ∉ page key size cursor items) :
    (page key size cursor items).length = size ∧
      ∀ x ∈ page key size cursor items, key x ≤ key target := by
  have hSorted := sorted_pairwise key (items.filter (after key cursor))
  have hIn : target ∈ (items.filter (after key cursor)).insertionSort (fun x y => key x ≤ key y) := by
    rw [List.mem_insertionSort, List.mem_filter]
    exact ⟨hMem, hAfter⟩
  unfold page at hNot ⊢
  generalize (items.filter (after key cursor)).insertionSort (fun x y => key x ≤ key y) = sorted at *
  rw [← List.take_append_drop size sorted, List.mem_append] at hIn
  have hDrop : target ∈ sorted.drop size := hIn.resolve_left hNot
  refine ⟨?_, fun x hx => ?_⟩
  · have hPos := List.length_pos_of_mem hDrop
    rw [List.length_drop] at hPos
    rw [List.length_take]
    omega
  · rw [← List.take_append_drop size sorted, List.pairwise_append] at hSorted
    exact hSorted.2.2 x hx target hDrop

theorem le_getLast_of_pairwise {xs : List α} (hSorted : xs.Pairwise (fun x y => key x ≤ key y))
    (last : α) (hLast : xs.getLast? = some last) (x : α) (hx : x ∈ xs) : key x ≤ key last := by
  obtain ⟨front, rfl⟩ := List.getLast?_eq_some_iff.mp hLast
  rw [List.pairwise_append] at hSorted
  rcases List.mem_append.mp hx with hFront | hx
  · exact hSorted.2.2 x hFront last (by simp)
  · simp only [List.mem_singleton] at hx
    exact le_of_eq (congrArg key hx)

theorem page_length_le (key : α → κ) (size : Nat) (cursor : Option κ) (items : List α) (p : α → Bool)
    (hp : ∀ x ∈ page key size cursor items, p x = true) :
    (page key size cursor items).length ≤ items.countP (fun x => after key cursor x && p x) := by
  have hCount : (page key size cursor items).countP p = (page key size cursor items).length :=
    List.countP_eq_length.mpr hp
  have hSub : (page key size cursor items).countP p ≤
      ((items.filter (after key cursor)).insertionSort (fun x y => key x ≤ key y)).countP p :=
    (List.take_sublist _ _).countP_le
  rw [(List.perm_insertionSort _ _).countP_eq, List.countP_filter] at hSub
  have hComm : items.countP (fun x => p x && after key cursor x) =
      items.countP (fun x => after key cursor x && p x) :=
    List.countP_congr fun x _ => by rw [Bool.and_comm]
  omega

theorem nextCursor_full (hSize : 0 < size) (hFull : (page key size cursor items).length = size) :
    ∃ last ∈ page key size cursor items,
      nextCursor key size (page key size cursor items) = some (key last) ∧
        ∀ x ∈ page key size cursor items, key x ≤ key last := by
  have hNonempty : page key size cursor items ≠ [] := List.ne_nil_of_length_pos (by omega)
  have hLast := List.getLast?_eq_some_getLast hNonempty
  refine ⟨_, List.getLast_mem hNonempty, ?_, ?_⟩
  · simp only [nextCursor, hFull, if_true, hLast, Option.map_some]
  · exact le_getLast_of_pairwise (page_pairwise key size cursor items) _ hLast

theorem after_of_lt (x y : α) (hx : after key cursor x = true) (hxy : key x < key y) :
    after key cursor y = true := by
  cases cursor with
  | none => rfl
  | some c => exact (after_some c y).mpr (((after_some c x).mp hx).trans hxy)

theorem countP_nextCursor (hSize : 0 < size) (p : α → Bool)
    (hFull : (page key size cursor items).length = size)
    (hp : ∀ x ∈ page key size cursor items, p x = true) :
    items.countP (fun x => after key (nextCursor key size (page key size cursor items)) x && p x) + size ≤
      items.countP (fun x => after key cursor x && p x) := by
  obtain ⟨last, hLast, hNext, hLe⟩ := nextCursor_full hSize hFull
  have hCount := page_length_le key size cursor items
    (fun x => p x && decide (key x ≤ key last))
    (fun x hx => by simp only [hp x hx, hLe x hx, decide_true, Bool.and_self])
  rw [hFull] at hCount
  rw [hNext]
  have hAdd := countP_add_le (fun x => after key (some (key last)) x && p x)
    (fun x => after key cursor x && (p x && decide (key x ≤ key last)))
    (fun x => after key cursor x && p x) items
    (fun x hx => by
      rw [Bool.and_eq_true, after_some] at hx
      rw [Bool.and_eq_true]
      exact ⟨after_of_lt last x (mem_page hLast).2 hx.1, hx.2⟩)
    (fun x hx => by
      simp only [Bool.and_eq_true] at hx ⊢
      exact ⟨hx.1, hx.2.1⟩)
    (fun x hx hx' => by
      rw [Bool.and_eq_true, after_some] at hx
      simp only [Bool.and_eq_true, decide_eq_true_eq] at hx'
      exact absurd hx.1 (not_lt.mpr hx'.2.2))
  omega

theorem div_add_one_le (a b : Nat) (hSize : 0 < size) (h : a + size ≤ b) : a / size + 1 ≤ b / size := by
  rw [← Nat.add_div_right a hSize]
  exact Nat.div_le_div_right h

theorem wait_nextCursor (hSize : 0 < size) (hMem : target ∈ items)
    (hKey : ∀ x ∈ items, key x = key target → x = target)
    (hNot : target ∉ page key size cursor items) :
    wait key size (nextCursor key size (page key size cursor items)) target items + 1 ≤
      wait key size cursor target items := by
  by_cases hAfter : after key cursor target = true
  · -- The target is ahead: the page lies between the cursor and the target.
    obtain ⟨hFull, hLe⟩ := page_of_notMem hMem hAfter hNot
    have hLt : ∀ x ∈ page key size cursor items, key x < key target := fun x hx =>
      lt_of_le_of_ne (hLe x hx) fun hEq => hNot (hKey x (mem_page hx).1 hEq ▸ hx)
    obtain ⟨last, hLast, hNext, _⟩ := nextCursor_full hSize hFull
    have hAfter' : after key (nextCursor key size (page key size cursor items)) target = true := by
      rw [hNext, after_some]
      exact hLt last hLast
    have hCount := countP_nextCursor hSize (fun x => decide (key x < key target)) hFull
      (fun x hx => decide_eq_true (hLt x hx))
    have hDiv := div_add_one_le _ _ hSize hCount
    simp only [wait, hAfter, hAfter', if_true, ahead]
    omega
  · by_cases hFull : (page key size cursor items).length = size
    · -- The target is behind and the lap goes on.
      obtain ⟨last, hLast, hNext, _⟩ := nextCursor_full hSize hFull
      have hAfter' : ¬ after key (nextCursor key size (page key size cursor items)) target = true := by
        rw [hNext, after_some]
        exact fun hLt => hAfter (after_of_lt last target (mem_page hLast).2 hLt)
      have hCount : remaining key (nextCursor key size (page key size cursor items)) items + size ≤
          remaining key cursor items := by
        have h := countP_nextCursor hSize (fun _ => true) hFull (fun _ _ => rfl)
        simp only [Bool.and_true] at h
        exact h
      have hDiv := div_add_one_le _ _ hSize hCount
      rw [wait, if_neg hAfter', wait, if_neg hAfter]
      omega
    · -- The lap ends and the next one starts without a cursor.
      have hNext : nextCursor key size (page key size cursor items) = none := if_neg hFull
      have hStart : after key none target = true := rfl
      have hPos := Nat.zero_le (remaining key cursor items / size)
      rw [hNext, wait, if_pos hStart, wait, if_neg hAfter]
      omega

-- Wherever the cursor stands, the target is on one of the next `length / size + 2` pages.
theorem wait_le (cursor : Option κ) (target : α) (items : List α) :
    wait key size cursor target items ≤ items.length / size + 2 := by
  unfold wait
  split
  · have hLe : ahead key cursor target items ≤ items.length := List.countP_le_length
    have := Nat.div_le_div_right (c := size) hLe
    omega
  · next hAfter =>
    have hAdd := countP_add_le (after key cursor)
      (fun x => after key none x && decide (key x < key target)) (fun _ => true) items
      (fun _ _ => rfl) (fun _ _ => rfl) (fun x hx hx' => by
        simp only [Bool.and_eq_true, decide_eq_true_eq] at hx'
        exact hAfter (after_of_lt x target hx hx'.2))
    have hLe : remaining key cursor items + ahead key none target items ≤ items.length :=
      hAdd.trans List.countP_le_length
    have hDiv : remaining key cursor items / size + ahead key none target items / size ≤
        (remaining key cursor items + ahead key none target items) / size :=
      Nat.div_add_div_le_add_div
    have := Nat.div_le_div_right (c := size) hLe
    omega

theorem wait_pos (cursor : Option κ) (target : α) (items : List α) :
    0 < wait key size cursor target items := by
  unfold wait
  split
  · exact Nat.succ_pos _
  · exact Nat.succ_pos _

end NeroCD.Paging
