import NeroCD.BackupRetention.Selection

-- Retention settles: once the selected copies are deleted, nothing more is selected.

namespace NeroCD.BackupRetention

open NeroCD.Sorting

variable {Time : Type} {calendar : Calendar Time} {choices : Choices}

def discard (x : Item Time) : Item Time := { x with availability := .deleted }

def withoutSelected (selection : Selection Time) (inventory : List (Item Time)) : List (Item Time) :=
  inventory.map fun x =>
    if named (selection.items.filter (·.selected)) x then discard x else x

section Batch

theorem cutBatch_whole {n : Nat} {items : List (Item Time)} (h : (cutBatch n items).2 = false) (hn : n ≤ batchLimit) :
    n + (items.filter (·.selected)).length ≤ batchLimit := by
  induction items generalizing n with
  | nil => simpa using hn
  | cons _ _ ih =>
    simp only [cutBatch] at h
    split at h
    · rename_i hSelected
      split at h
      · cases h
      · have hRest := ih h (by omega)
        rw [List.filter_cons, if_pos hSelected, List.length_cons]
        omega
    · rename_i hSelected
      rw [List.filter_cons, if_neg hSelected]
      exact ih h hn

variable {judgement : Judgement Time} {inventory : List (Item Time)}

theorem judged_whole (hFair : judgement.Fair) (hScoped : judgement.Scoped) (h : Distinct inventory)
    (hWhole : (judged choices calendar judgement inventory).truncated = false) :
    ((choices.sort (older calendar) inventory).filter fun x =>
      (judgement.final choices calendar inventory x).selected).length ≤ batchLimit := by
  have hCut : (cutBatch 0 (choices.sort (older calendar) (afterLocation choices calendar judgement .remoteCopy
      (afterLocation choices calendar judgement .localCopy (inventory.map reset))))).2 = false := by
    simp only [judged, finish, Bool.or_eq_false_iff] at hWhole
    exact hWhole.1
  have hLength := cutBatch_whole hCut (Nat.zero_le _)
  rw [judged_items hFair hScoped h, sort_older_map (final_sameCopy hFair) h choices, List.filter_map, List.length_map,
    Nat.zero_add] at hLength
  exact hLength

theorem named_selected (hFair : judgement.Fair) (hScoped : judgement.Scoped) (h : Distinct inventory)
    (hWhole : (judged choices calendar judgement inventory).truncated = false) {x : Item Time} (hx : x ∈ inventory) :
    named ((judged choices calendar judgement inventory).items.filter (·.selected)) x =
      (judgement.final choices calendar inventory x).selected := by
  rw [named, judged_selected hFair hScoped h (choices.sort_perm _ _) (choices.sort_sorted older_byKey _),
    List.take_of_length_le (judged_whole hFair hScoped h hWhole), Bool.eq_iff_iff, List.contains_eq_mem,
    decide_eq_true_eq, List.mem_map]
  constructor
  · rintro ⟨y, hy, hID⟩
    obtain ⟨hy, hSelected⟩ := List.mem_filter.mp hy
    exact h.eq (choices.mem_sort.mp hy) hx hID ▸ hSelected
  · exact fun hSelected => ⟨x, List.mem_filter.mpr ⟨choices.mem_sort.mpr hx, hSelected⟩, rfl⟩

end Batch

section Settling

def remaining (judgement : Judgement Time) (location : Location) (ranked : List (Item Time)) : List (Item Time) :=
  ranked.filter fun y => !(judgement location ranked y).selected

def Judgement.Settles (judgement : Judgement Time) (calendar : Calendar Time) : Prop :=
  ∀ location (ranked : List (Item Time)), ranked.Pairwise (fun a b => newer calendar a b = true) → Distinct ranked →
    (∀ y ∈ ranked, 0 ≤ y.bytes.toInt) → (∀ y ∈ ranked, y.selected = false) → ∀ x ∈ remaining judgement location ranked,
      (judgement location (remaining judgement location ranked) x).selected = true →
        (judgement location ranked x).selected = true

variable {judgement : Judgement Time} {inventory : List (Item Time)} {chosen : Item Time → Bool}

def discardIf (chosen : Item Time → Bool) (x : Item Time) : Item Time := if chosen x then discard x else x

theorem discardIf_copyID (x : Item Time) : (discardIf chosen x).copyID = x.copyID := by
  unfold discardIf
  split <;> rfl

theorem present_discard (x : Item Time) (location : Location) : present (reset (discard x)) location = false := by
  simp [present, reset, discard]

theorem final_at {location : Location} (hLocation : location.judged = true) {x : Item Time}
    (hx : present (reset x) location = true) :
    judgement.final choices calendar inventory x =
      judgement location (ranking choices calendar (inventory.map reset) location) (reset x) := by
  simp only [present, Bool.and_eq_true, beq_iff_eq] at hx
  have hSame : x.location = location := hx.1
  subst hSame
  rw [Judgement.final, if_pos hLocation]

theorem filter_discarded {location : Location} (hLocation : location.judged = true)
    (hChosen : ∀ x ∈ inventory, chosen x = (judgement.final choices calendar inventory x).selected) :
    ((inventory.map (discardIf chosen)).map reset).filter (present · location) =
      ((inventory.map reset).filter (present · location)).filter fun y =>
        !(judgement location (ranking choices calendar (inventory.map reset) location) y).selected := by
  rw [List.map_map, List.filter_map, List.filter_filter, List.filter_map]
  have hFilter : ∀ x ∈ inventory, present (reset (discardIf chosen x)) location =
      (!(judgement location (ranking choices calendar (inventory.map reset) location) (reset x)).selected &&
        present (reset x) location) := by
    intro x hx
    cases hPresent : present (reset x) location with
    | false =>
      unfold discardIf
      split
      · rw [present_discard, Bool.and_false]
      · rw [hPresent, Bool.and_false]
    | true =>
      have hFinal : judgement.final choices calendar inventory x =
          judgement location (ranking choices calendar (inventory.map reset) location) (reset x) :=
        final_at hLocation hPresent
      rw [← hFinal, ← hChosen x hx]
      unfold discardIf
      split
      · rename_i hYes
        rw [present_discard, hYes]
        rfl
      · rename_i hNo
        rw [Bool.not_eq_true] at hNo
        rw [hPresent, hNo]
        rfl
  simp only [Function.comp_def]
  rw [List.filter_congr hFilter]
  refine List.map_congr_left fun x hx => ?_
  obtain ⟨hx, hKept⟩ := List.mem_filter.mp hx
  rw [← hFilter x hx] at hKept
  unfold discardIf at hKept
  split at hKept
  · rw [present_discard] at hKept
    cases hKept
  · rename_i hNo
    rw [discardIf, if_neg hNo]

theorem ranking_discarded (h : Distinct inventory) {location : Location} (hLocation : location.judged = true)
    (hChosen : ∀ x ∈ inventory, chosen x = (judgement.final choices calendar inventory x).selected) (other : Choices) :
    ranking other calendar ((inventory.map (discardIf chosen)).map reset) location =
      remaining judgement location (ranking choices calendar (inventory.map reset) location) := by
  have hPerm : (ranking choices calendar (inventory.map reset) location).Perm
      ((inventory.map reset).filter (present · location)) := choices.sort_perm _ _
  have hSorted : (ranking choices calendar (inventory.map reset) location).Pairwise fun a b =>
      OrderDual.toDual (key calendar a) ≤ OrderDual.toDual (key calendar b) := choices.sort_sorted (newer_byKey id) _
  rw [ranking, filter_discarded hLocation hChosen]
  refine other.sort_eq (newer_byKey id) (hPerm.filter _) (hSorted.filter _) (.refl _) fun a ha b hb hKey => ?_
  exact ((h.reset.filter _).filter _).key_inj ha hb (OrderDual.toDual.injective hKey)

theorem final_discarded (hScoped : judgement.Scoped) (hSettles : judgement.Settles calendar) (h : Distinct inventory)
    (hSizes : ∀ x ∈ inventory, 0 ≤ x.bytes.toInt)
    (hChosen : ∀ x ∈ inventory, chosen x = (judgement.final choices calendar inventory x).selected) (other : Choices)
    {x : Item Time} (hx : x ∈ inventory) :
    (judgement.final other calendar (inventory.map (discardIf chosen)) (discardIf chosen x)).selected = false := by
  have hSecond : Distinct ((inventory.map (discardIf chosen)).map reset) :=
    (h.map fun x => discardIf_copyID x).reset
  have hMem : reset (discardIf chosen x) ∈ (inventory.map (discardIf chosen)).map reset :=
    List.mem_map_of_mem (List.mem_map_of_mem hx)
  unfold Judgement.final
  split
  · rename_i hLocation
    by_cases hRanked : reset (discardIf chosen x) ∈ ranking other calendar
        ((inventory.map (discardIf chosen)).map reset) (discardIf chosen x).location
    · rw [ranking_discarded h hLocation hChosen] at hRanked ⊢
      have hUnselected := (List.mem_filter.mp hRanked).2
      rw [Bool.not_eq_true'] at hUnselected
      rw [← Bool.not_eq_true]
      intro hAgain
      have hBefore := hSettles _ _ (ranking_strict h.reset) (ranking_distinct h.reset) (fun y hy => ?_)
        (fun y hy => ?_) _ hRanked hAgain
      · rw [hUnselected] at hBefore
        cases hBefore
      · obtain ⟨z, hz, rfl⟩ := List.mem_map.mp (mem_ranking.mp hy).1
        exact hSizes z hz
      · obtain ⟨z, -, rfl⟩ := List.mem_map.mp (mem_ranking.mp hy).1
        rfl
    · have hUnnamed : named (ranking other calendar ((inventory.map (discardIf chosen)).map reset)
          (discardIf chosen x).location) (reset (discardIf chosen x)) = false := by
        rw [named, List.contains_eq_mem, decide_eq_false_iff_not, List.mem_map]
        rintro ⟨y, hy, hID⟩
        exact hRanked (hSecond.eq (mem_ranking.mp hy).1 hMem hID ▸ hy)
      rw [hScoped _ _ _ hUnnamed]
      rfl
  · rfl

theorem judged_nothing (hFair : judgement.Fair) (hScoped : judgement.Scoped) (h : Distinct inventory)
    (hNone : ∀ x ∈ inventory, (judgement.final choices calendar inventory x).selected = false) :
    (judged choices calendar judgement inventory).items.filter (·.selected) = [] := by
  have hFilter : ((choices.sort (older calendar) inventory).filter fun x =>
      (judgement.final choices calendar inventory x).selected) = [] := by
    refine List.filter_eq_nil_iff.mpr fun x hx => ?_
    rw [hNone x (choices.mem_sort.mp hx)]
    decide
  refine List.map_eq_nil_iff.mp ((judged_selected hFair hScoped h (choices.sort_perm (older calendar) inventory)
    (choices.sort_sorted older_byKey _)).trans ?_)
  rw [hFilter]
  rfl

theorem judged_settles (hFair : judgement.Fair) (hScoped : judgement.Scoped) (hSettles : judgement.Settles calendar)
    (h : Distinct inventory) (hSizes : ∀ x ∈ inventory, 0 ≤ x.bytes.toInt)
    (hWhole : (judged choices calendar judgement inventory).truncated = false) (other : Choices) :
    (judged other calendar judgement
      (withoutSelected (judged choices calendar judgement inventory) inventory)).items.filter (·.selected) = [] := by
  refine judged_nothing hFair hScoped (h.map fun x => discardIf_copyID x) fun y hy => ?_
  obtain ⟨x, hx, rfl⟩ := List.mem_map.mp hy
  exact final_discarded hScoped hSettles h hSizes (fun x hx => named_selected hFair hScoped h hWhole hx) other hx

end Settling

section Database

variable {limits : Limits} {enabled : Bool} {ranked newerCopies olderCopies : List (Item Time)} {x : Item Time}
variable {kept : Item Time → Bool}

theorem Placed.filter (h : Placed calendar ranked newerCopies olderCopies x) (hx : kept x = true) :
    Placed calendar (ranked.filter kept) (newerCopies.filter kept) (olderCopies.filter kept) x := by
  refine ⟨?_, h.strict.filter _⟩
  rw [h.split, List.filter_append, List.filter_cons, if_pos hx]

-- With the largest limit the running size can never exceed it.
theorem sizeTail_largest (total : Int64) (ranked : List (Item Time)) : sizeTail Int64.maxValue total ranked = [] := by
  induction ranked generalizing total with
  | nil => rfl
  | cons x _ ih =>
    have hNot : ¬Int64.maxValue < addSize Int64.maxValue total x.bytes := by
      rw [Int64.lt_iff_toInt_lt]
      have hUpper := (addSize Int64.maxValue total x.bytes).toInt_lt
      have hTop : Int64.maxValue.toInt = 2 ^ 63 - 1 := rfl
      omega
    simp only [sizeTail, hNot, if_false]
    exact ih _

theorem sum_filter_le {copies : List (Item Time)} (h : ∀ y ∈ copies, 0 ≤ y.bytes.toInt) :
    ((copies.filter kept).map (·.bytes.toInt)).sum ≤ (copies.map (·.bytes.toInt)).sum := by
  refine List.Sublist.sum_le_sum (List.filter_sublist.map _) fun n hn => ?_
  obtain ⟨y, hy, rfl⟩ := List.mem_map.mp hn
  exact h y hy

theorem head_filter (hHead : ∀ y, ranked.head? = some y → kept y = true) : (ranked.filter kept).head? = ranked.head? := by
  cases ranked with
  | nil => rfl
  | cons first _ => rw [List.filter_cons, if_pos (hHead first rfl), List.head?_cons, List.head?_cons]

theorem sum_tail_filter_le (hPlaced : Placed calendar ranked newerCopies olderCopies x)
    (hSizes : ∀ y ∈ ranked, 0 ≤ y.bytes.toInt) (hHead : ∀ y, ranked.head? = some y → kept y = true) :
    ((newerCopies.filter kept).tail.map (·.bytes.toInt)).sum ≤ (newerCopies.tail.map (·.bytes.toInt)).sum := by
  rw [hPlaced.split] at hSizes hHead
  cases newerCopies with
  | nil => exact Int.le_refl _
  | cons first _ =>
    rw [List.filter_cons, if_pos (hHead first rfl), List.tail_cons, List.tail_cons]
    exact sum_filter_le fun y hy => hSizes y (List.mem_cons_of_mem _ (List.mem_append_left _ hy))

theorem matchedCopies_filter (hPlaced : Placed calendar ranked newerCopies olderCopies x) (hNodup : ranked.Nodup)
    (hSizes : ∀ y ∈ ranked, 0 ≤ y.bytes.toInt) (hHead : ∀ y, ranked.head? = some y → kept y = true)
    (hx : kept x = true) (h : x ∈ matchedCopies calendar limits (ranked.filter kept)) :
    x ∈ matchedCopies calendar limits ranked := by
  have hKept := hPlaced.filter hx
  have hKeptNodup := hNodup.filter kept
  have hMem : x ∈ ranked := hPlaced.split ▸ List.mem_append_right _ List.mem_cons_self
  rw [matchedCopies, List.mem_append, List.mem_append] at h ⊢
  obtain (hCount | hAge) | hSize := h
  · refine .inl (.inl ?_)
    split at hCount
    · rename_i hOn
      rw [if_pos hOn, hPlaced.mem_drop hNodup]
      exact ((hKept.mem_drop hKeptNodup _).mp hCount).trans (List.length_filter_le _ _)
    · cases hCount
  · refine .inl (.inr ?_)
    split at hAge
    · rename_i hOn
      rw [head_filter hHead] at hAge
      rw [if_pos hOn]
      exact List.mem_filter.mpr ⟨hMem, (List.mem_filter.mp hAge).2⟩
    · cases hAge
  · refine .inr ?_
    split at hSize
    · rename_i hOn
      rw [if_pos hOn]
      have hPositive := Int64.lt_iff_toInt_lt.mp hOn
      by_cases hLargest : limits.maxBytes = Int64.maxValue
      · rw [hLargest, sizeTail_largest] at hSize
        cases hSize
      · have hMax : limits.maxBytes.toInt < 2 ^ 63 - 1 := by
          have hUpper := limits.maxBytes.toInt_lt
          have hNe : limits.maxBytes.toInt ≠ 2 ^ 63 - 1 := fun hEq => hLargest (Int64.toInt_inj.mp hEq)
          omega
        rw [hPlaced.mem_sizeTail hMax hPositive hNodup hSizes]
        exact ((hKept.mem_sizeTail hMax hPositive hKeptNodup fun y hy => hSizes y (List.mem_of_mem_filter hy)).mp
          hSize).trans_le (sum_tail_filter_le hPlaced hSizes hHead)
    · cases hSize

theorem find_filter {found : Item Time} (hFind : ranked.find? known = some found) (hFound : kept found = true) :
    (ranked.filter kept).find? known = some found := by
  induction ranked with
  | nil => cases hFind
  | cons first _ ih =>
    rw [List.find?_cons] at hFind
    cases hKnown : known first with
    | true =>
      rw [hKnown] at hFind
      obtain rfl := Option.some.inj hFind
      simp [hFound, hKnown]
    | false =>
      rw [hKnown] at hFind
      rw [List.filter_cons]
      split
      · rw [List.find?_cons, hKnown]
        exact ih hFind
      · exact ih hFind

theorem named_self {copies : List (Item Time)} (hx : x ∈ copies) : named copies x = true := by
  rw [named, List.contains_eq_mem, decide_eq_true_eq]
  exact List.mem_map_of_mem hx

-- The newest copy and the newest known one are never selected, so they stay what they are.
theorem databaseJudgement_settles (p : Policy) : (databaseJudgement calendar p).Settles calendar := by
  intro location ranked hStrict hDistinct hSizes hMarks x hx hAgain
  obtain ⟨hRanked, hKept⟩ := List.mem_filter.mp hx
  obtain ⟨newerCopies, olderCopies, hPlaced⟩ := Placed.of_mem hStrict hRanked
  have hUnselected : ∀ y ∈ ranked, ¬(databaseJudgement calendar p location ranked y).selected = true →
      (!(databaseJudgement calendar p location ranked y).selected) = true := fun y _ h => by simpa using h
  have hHead : ∀ y, ranked.head? = some y → (!(databaseJudgement calendar p location ranked y).selected) = true := by
    intro y hy
    have hMem : y ∈ ranked := List.mem_of_mem_head? hy
    refine hUnselected y hMem fun hSelected => ?_
    have hNamed := ((verdict_selected (hMarks y hMem)).mp hSelected).2.2.2.1
    rw [hy, named_self (by simp)] at hNamed
    cases hNamed
  have hKnown : ∀ y, ranked.find? known = some y →
      (!(databaseJudgement calendar p location ranked y).selected) = true := by
    intro y hy
    have hMem : y ∈ ranked := List.mem_of_find?_eq_some hy
    refine hUnselected y hMem fun hSelected => ?_
    have hNamed := ((verdict_selected (hMarks y hMem)).mp hSelected).2.2.2.2.1
    rw [hy, named_self (by simp)] at hNamed
    cases hNamed
  obtain ⟨hEnabled, hMatched, hFree, hFirst, hFirstKnown, hAvailable⟩ := (verdict_selected (hMarks x hRanked)).mp hAgain
  refine (verdict_selected (hMarks x hRanked)).mpr ⟨hEnabled, ?_, hFree, ?_, ?_, hAvailable⟩
  · refine named_self (matchedCopies_filter hPlaced hDistinct.nodup hSizes hHead hKept ?_)
    exact (named_iff (hDistinct.filter _) hx (matchedCopies_subset _ _)).mp hMatched
  · rwa [remaining, head_filter hHead] at hFirst
  · cases hFind : ranked.find? known with
    | none => rfl
    | some found =>
      rw [remaining, find_filter hFind (hKnown found hFind)] at hFirstKnown
      exact hFirstKnown

end Database

section Storage

variable {limits : Limits} {enabled : Bool} {at_ : Time} {newerCopies olderCopies : List (Item Time)} {x : Item Time}

def sizeLimit : Int := 4611686018427387904

theorem sizeWith_eq {total bytes : Int64} (hTotal : 0 ≤ total.toInt) (hBytes : 0 ≤ bytes.toInt) :
    (sizeWith total bytes).toInt = min (total.toInt + bytes.toInt) sizeLimit := by
  have hBound : (4611686018427387904 : Int64).toInt = sizeLimit := rfl
  have hZero : (0 : Int64).toInt = 0 := rfl
  have hUpper := bytes.toInt_lt
  have hSub : (4611686018427387904 - bytes).toInt = sizeLimit - bytes.toInt := by
    rw [← hBound]
    exact toInt_sub_nonneg (by decide) hBytes
  have hNotNegative : ¬bytes < 0 := by
    rw [Int64.lt_iff_toInt_lt, hZero]
    omega
  simp only [sizeWith, hNotNegative, decide_false, Bool.false_or, decide_eq_true_eq, Int64.lt_iff_toInt_lt, hSub]
  split
  · rw [hBound]
    omega
  · rw [Int64.toInt_add, Int.bmod_eq_of_le]
    · omega
    · omega
    · simp only [sizeLimit] at *
      omega

def exceededAt (limits : Limits) : Nat → Int64 → Bool → List (Item Time) → Bool
  | _, _, exceeded, [] => exceeded
  | offset, total, exceeded, y :: rest =>
    exceededAt limits (offset + 1) (sizeWith total y.bytes) (exceeds limits offset (sizeWith total y.bytes) exceeded) rest

theorem storageVerdict_split (hOther : ∀ y ∈ newerCopies, y.copyID ≠ x.copyID) (offset : Nat) (total : Int64)
    (exceeded : Bool) :
    storageVerdict calendar enabled limits at_ offset total exceeded (newerCopies ++ x :: olderCopies) x =
      judge (dueAt calendar enabled limits at_ (offset + newerCopies.length)
        (exceededAt limits offset total exceeded (newerCopies ++ [x])) x) x := by
  induction newerCopies generalizing offset total exceeded with
  | nil => simp [storageVerdict, exceededAt]
  | cons y _ ih =>
    have hNe : y.copyID ≠ x.copyID := hOther y List.mem_cons_self
    simp only [List.cons_append, storageVerdict, hNe, if_false, exceededAt, List.length_cons]
    rw [ih fun z hz => hOther z (List.mem_cons_of_mem _ hz), Nat.add_assoc, Nat.add_comm 1]

-- The sizes only grow, so the limit is exceeded at a copy if it ever was.
theorem exceededAt_iff (hSizes : ∀ y ∈ newerCopies ++ [x], 0 ≤ y.bytes.toInt) {offset : Nat} {total : Int64}
    {exceeded : Bool} (hTotal : 0 ≤ total.toInt) (hBelow : total.toInt ≤ sizeLimit) :
    exceededAt limits offset total exceeded (newerCopies ++ [x]) = true ↔ exceeded = true ∨
      0 < offset + newerCopies.length ∧ 0 < limits.maxBytes ∧
        limits.maxBytes.toInt < min (total.toInt + ((newerCopies ++ [x]).map (·.bytes.toInt)).sum) sizeLimit := by
  induction newerCopies generalizing offset total exceeded with
  | nil =>
    have hSize := sizeWith_eq hTotal (hSizes x List.mem_cons_self)
    simp only [List.nil_append, exceededAt, exceeds, Bool.or_eq_true, Bool.and_eq_true, decide_eq_true_eq,
      Int64.lt_iff_toInt_lt (x := limits.maxBytes), hSize, List.length_nil, Nat.add_zero, List.map_cons, List.map_nil,
      List.sum_cons, List.sum_nil, Int.add_zero, and_assoc]
  | cons y rest ih =>
    have hy := hSizes y List.mem_cons_self
    have hSize := sizeWith_eq hTotal hy
    have hRest : ∀ z ∈ rest ++ [x], 0 ≤ z.bytes.toInt := fun z hz => hSizes z (List.mem_cons_of_mem _ hz)
    have hSum := sum_nonneg hRest
    have hBound : (0 : Int) ≤ sizeLimit := by decide
    simp only [List.cons_append, exceededAt, List.length_cons, List.map_cons, List.sum_cons]
    rw [ih hRest (by omega) (by omega), hSize]
    simp only [exceeds, Bool.or_eq_true, Bool.and_eq_true, decide_eq_true_eq,
      Int64.lt_iff_toInt_lt (x := limits.maxBytes), hSize, and_assoc]
    constructor
    · rintro ((h | ⟨hOffset, hOn, hOver⟩) | ⟨hOffset, hOn, hOver⟩)
      · exact .inl h
      · exact .inr ⟨by omega, hOn, by omega⟩
      · exact .inr ⟨by omega, hOn, by omega⟩
    · rintro (h | ⟨hOffset, hOn, hOver⟩)
      · exact .inl (.inl h)
      · exact .inr ⟨by omega, hOn, by omega⟩

theorem judge_selected (due : Bool) (x : Item Time) :
    (judge due x).selected = true ↔ due = true ∧ x.protectedReasons = [] ∧ x.availability = .available := by
  simp only [judge, protect]
  split
  · rename_i hUnavailable
    simp only [Bool.and_eq_true, bne_iff_ne] at hUnavailable
    simp [appendReason_isEmpty, hUnavailable]
  · rename_i hAvailable
    simp only [Bool.and_eq_true, bne_iff_ne, not_and, not_not] at hAvailable
    simp only [Bool.and_eq_true, List.isEmpty_iff]
    exact ⟨fun h => ⟨h.1, h.2, hAvailable h.1⟩, fun h => ⟨h.1, h.2.1⟩⟩

theorem dueAt_mono {offset offset' : Nat} {exceeded exceeded' : Bool} (hOffset : offset ≤ offset')
    (hExceeded : exceeded = true → exceeded' = true) (h : dueAt calendar enabled limits at_ offset exceeded x = true) :
    dueAt calendar enabled limits at_ offset' exceeded' x = true := by
  simp only [dueAt, Bool.and_eq_true, Bool.or_eq_true, decide_eq_true_eq] at h ⊢
  obtain ⟨hEnabled, (hCount | hAge) | hSize⟩ := h
  · exact ⟨hEnabled, .inl (.inl ⟨hCount.1, by omega⟩)⟩
  · exact ⟨hEnabled, .inl (.inr hAge)⟩
  · exact ⟨hEnabled, .inr (hExceeded hSize)⟩

variable {ranked : List (Item Time)}

theorem Placed.storage_selected (hPlaced : Placed calendar ranked newerCopies olderCopies x) (hDistinct : Distinct ranked) :
    (storageVerdict calendar enabled limits at_ 0 0 false ranked x).selected = true ↔
      dueAt calendar enabled limits at_ newerCopies.length (exceededAt limits 0 0 false (newerCopies ++ [x])) x = true ∧
        x.protectedReasons = [] ∧ x.availability = .available := by
  have hOther : ∀ y ∈ newerCopies, y.copyID ≠ x.copyID := by
    intro y hy hID
    have hEq := hDistinct.eq (hPlaced.split ▸ List.mem_append_left _ hy)
      (hPlaced.split ▸ List.mem_append_right _ List.mem_cons_self) hID
    have hNewer := hPlaced.newer hy
    rw [hEq, newer_irrefl] at hNewer
    cases hNewer
  rw [hPlaced.split, storageVerdict_split hOther, judge_selected, Nat.zero_add]

theorem exceededAt_filter {kept : Item Time → Bool} (hx : kept x = true)
    (hSizes : ∀ y ∈ newerCopies ++ [x], 0 ≤ y.bytes.toInt)
    (h : exceededAt limits 0 0 false (newerCopies.filter kept ++ [x]) = true) :
    exceededAt limits 0 0 false (newerCopies ++ [x]) = true := by
  have hZero : (0 : Int64).toInt = 0 := rfl
  have hFilter : newerCopies.filter kept ++ [x] = (newerCopies ++ [x]).filter kept := by
    rw [List.filter_append, List.filter_cons, if_pos hx, List.filter_nil]
  have hFewer : ∀ y ∈ newerCopies.filter kept ++ [x], 0 ≤ y.bytes.toInt := by
    rw [hFilter]
    exact fun y hy => hSizes y (List.mem_of_mem_filter hy)
  have hSum : (((newerCopies ++ [x]).filter kept).map (·.bytes.toInt)).sum ≤
      ((newerCopies ++ [x]).map (·.bytes.toInt)).sum := sum_filter_le hSizes
  rw [← hFilter] at hSum
  rw [exceededAt_iff hFewer (by decide) (by decide)] at h
  rw [exceededAt_iff hSizes (by decide) (by decide)]
  obtain hFalse | ⟨hOffset, hOn, hOver⟩ := h
  · cases hFalse
  · have hLength := List.length_filter_le kept newerCopies
    exact .inr ⟨by omega, hOn, by omega⟩

theorem storageJudgement_settles (p : Policy) (at_ : Time) : (storageJudgement calendar p at_).Settles calendar := by
  intro location ranked hStrict hDistinct hSizes _ x hx hAgain
  obtain ⟨hRanked, hKept⟩ := List.mem_filter.mp hx
  obtain ⟨newerCopies, olderCopies, hPlaced⟩ := Placed.of_mem hStrict hRanked
  have hFewer : Placed calendar (remaining (storageJudgement calendar p at_) location ranked)
      (newerCopies.filter fun y => !(storageJudgement calendar p at_ location ranked y).selected)
      (olderCopies.filter fun y => !(storageJudgement calendar p at_ location ranked y).selected) x :=
    hPlaced.filter hKept
  have hAhead : ∀ y ∈ newerCopies ++ [x], 0 ≤ y.bytes.toInt := by
    intro y hy
    refine hSizes y (hPlaced.split ▸ ?_)
    simp only [List.mem_append, List.mem_cons, List.not_mem_nil, or_false] at hy ⊢
    exact hy.imp_right .inl
  obtain ⟨hDue, hFree, hAvailable⟩ := (hFewer.storage_selected (hDistinct.filter _)).mp hAgain
  refine (hPlaced.storage_selected hDistinct).mpr ⟨dueAt_mono (List.length_filter_le _ _) (fun h => ?_) hDue, hFree,
    hAvailable⟩
  exact exceededAt_filter hKept hAhead h

end Storage

-- A selection that was not cut, once carried out, selects nothing more.
theorem selection_settles [Inhabited Time] (choices other : Choices) (calendar : Calendar Time) (p : Policy) (at_ : Time)
    (inventory : List (Item Time)) (hDistinct : (inventory.map (·.copyID)).Nodup)
    (hSizes : ∀ x ∈ inventory, 0 ≤ x.bytes) :
    ((selectBackupRetention choices calendar p inventory).truncated = false →
      (selectBackupRetention other calendar p
        (withoutSelected (selectBackupRetention choices calendar p inventory) inventory)).items.filter (·.selected) =
          []) ∧
    ((selectStorageBackupRetention choices calendar p inventory at_).truncated = false →
      (selectStorageBackupRetention other calendar p
        (withoutSelected (selectStorageBackupRetention choices calendar p inventory at_) inventory)
          at_).items.filter (·.selected) = []) := by
  have h : Distinct inventory := hDistinct
  have hNonneg : ∀ x ∈ inventory, 0 ≤ x.bytes.toInt := fun x hx => Int64.le_iff_toInt_le.mp (hSizes x hx)
  have hAfter : ∀ selection : Selection Time, Distinct (withoutSelected selection inventory) := fun _ =>
    h.map fun x => discardIf_copyID x
  constructor
  · intro hWhole
    rw [selectBackupRetention_eq p (hAfter _), selectBackupRetention_eq p h] at *
    exact judged_settles (databaseJudgement_fair p) (databaseJudgement_scoped p) (databaseJudgement_settles p) h
      hNonneg hWhole other
  · intro hWhole
    rw [selectStorageBackupRetention_eq p at_ (hAfter _), selectStorageBackupRetention_eq p at_ h] at *
    exact judged_settles (storageJudgement_fair p) (storageJudgement_scoped p at_) (storageJudgement_settles p at_) h
      hNonneg hWhole other

theorem sample_settles :
    (selectBackupRetention .plain dayCalendar countPolicy
      (withoutSelected (selectBackupRetention .plain dayCalendar countPolicy sampleInventory)
        sampleInventory)).items.filter (·.selected) = [] :=
  (selection_settles .plain .plain dayCalendar countPolicy 0 sampleInventory (by decide) (by decide)).1
    (by decide +kernel)

theorem newestKnown_spared [Inhabited Time] (choices : Choices) (p : Policy) {inventory : List (Item Time)}
    {x : Item Time} (h : Distinct inventory) (hx : x ∈ inventory) (hNewest : NewestKnown calendar inventory x) :
    named ((selectBackupRetention choices calendar p inventory).items.filter (·.selected)) x = false := by
  rw [← Bool.not_eq_true, named, selectBackupRetention_eq p h, judged_selected (databaseJudgement_fair p)
    (databaseJudgement_scoped p) h (choices.sort_perm _ _) (choices.sort_sorted older_byKey _), List.contains_eq_mem,
    decide_eq_true_eq, List.mem_map]
  rintro ⟨y, hy, hID⟩
  obtain ⟨hy, hSelected⟩ := List.mem_filter.mp (List.mem_of_mem_take hy)
  rw [h.eq (choices.mem_sort.mp hy) hx hID, Judgement.final] at hSelected
  split at hSelected
  · -- the first known copy of the ranking is `x`
    have hPresent : present (reset x) x.location = true := by
      have hKnown := hNewest.1
      simp only [known, Bool.or_eq_true, beq_iff_eq] at hKnown
      obtain hKnown | hKnown := hKnown <;> simp [present, reset, hKnown]
    have hRanked : reset x ∈ ranking choices calendar (inventory.map reset) x.location :=
      mem_ranking.mpr ⟨List.mem_map_of_mem hx, hPresent⟩
    obtain ⟨_, _, hPlaced⟩ := Placed.of_mem (ranking_strict h.reset) hRanked
    have hFirst := (hPlaced.known_iff (ranking_peers rfl)).mp
      ⟨hNewest.1, peers_reset x ▸ List.forall_mem_map.mpr hNewest.2⟩
    have hFree := ((verdict_selected rfl).mp hSelected).2.2.2.2.1
    simp [hFirst, named] at hFree
  · simp [reset] at hSelected

def afterPasses [Inhabited Time] (calendar : Calendar Time) (inventory : List (Item Time))
    (passes : List (Choices × Policy)) : List (Item Time) :=
  passes.foldl (fun copies pass => withoutSelected (selectBackupRetention pass.1 calendar pass.2 copies) copies)
    inventory

-- The newest known copy of a location outlives every sequence of passes, under whatever policies.
theorem newest_known_kept [Inhabited Time] (calendar : Calendar Time) (passes : List (Choices × Policy))
    (inventory : List (Item Time)) (hDistinct : (inventory.map (·.copyID)).Nodup) (x : Item Time) (hx : x ∈ inventory)
    (hNewest : NewestKnown calendar inventory x) :
    x ∈ afterPasses calendar inventory passes ∧ NewestKnown calendar (afterPasses calendar inventory passes) x := by
  induction passes generalizing inventory with
  | nil => exact ⟨hx, hNewest⟩
  | cons pass passes ih =>
    have h : Distinct inventory := hDistinct
    have hSpared := newestKnown_spared pass.1 pass.2 h hx hNewest
    refine ih _ (h.map fun y => discardIf_copyID y) (List.mem_map.mpr ⟨x, hx, by rw [hSpared]; rfl⟩) ⟨hNewest.1, ?_⟩
    intro y hy hKnown
    obtain ⟨hy, hPresent⟩ := List.mem_filter.mp hy
    obtain ⟨z, hz, rfl⟩ := List.mem_map.mp hy
    split at hKnown
    · cases hKnown
    · rename_i hLeft
      rw [if_neg hLeft] at hPresent ⊢
      exact hNewest.2 z (List.mem_filter.mpr ⟨hz, hPresent⟩) hKnown

theorem sample_newest_kept : sampleCopy "a" 3 10 ∈ afterPasses dayCalendar sampleInventory
    [(.plain, countPolicy), (.plain, largestPolicy)] :=
  (newest_known_kept dayCalendar [(.plain, countPolicy), (.plain, largestPolicy)] sampleInventory (by decide)
    (sampleCopy "a" 3 10) List.mem_cons_self (by unfold NewestKnown; decide)).1

end NeroCD.BackupRetention
