import NeroCD.BackupRetention
import Mathlib.Data.List.GetD

-- The passes over a location without their indices: each item of the inventory is judged by the list of the
-- copies of its location, newest first.

namespace NeroCD.BackupRetention

open NeroCD.Sorting

variable {Time : Type} {calendar : Calendar Time}

section Orders

def key (calendar : Calendar Time) (item : Item Time) : Int ×ₗ String :=
  toLex (calendar.instant item.createdAt, item.copyID)

theorem older_byKey : ByKey (older calendar) (key calendar) := by
  intro a b
  rw [older, key, key, Prod.Lex.toLex_lt_toLex]
  by_cases h : calendar.instant a.createdAt = calendar.instant b.createdAt
  · simp [h]
  · simp [h]

variable {a b : Item Time} {items : List (Item Time)}

theorem newer_iff : newer calendar a b = true ↔ key calendar b < key calendar a := by
  rw [newer, key, key, Prod.Lex.toLex_lt_toLex]
  by_cases h : calendar.instant a.createdAt = calendar.instant b.createdAt
  · simp [h]
  · simp [h, Ne.symm h]

theorem newer_byKey {α : Type} (f : α → Item Time) :
    ByKey (fun a b => newer calendar (f a) (f b)) fun a => OrderDual.toDual (key calendar (f a)) :=
  fun _ _ => newer_iff

def Distinct (items : List (Item Time)) : Prop := (items.map (·.copyID)).Nodup

theorem Distinct.eq (h : Distinct items) (ha : a ∈ items) (hb : b ∈ items) (hID : a.copyID = b.copyID) :
    a = b := List.inj_on_of_nodup_map h ha hb hID

theorem Distinct.key_inj (h : Distinct items) (ha : a ∈ items) (hb : b ∈ items)
    (hKey : key calendar a = key calendar b) : a = b :=
  h.eq ha hb (congrArg (fun k => (ofLex k).2) hKey)

theorem Distinct.nodup (h : Distinct items) : items.Nodup := List.Nodup.of_map _ h

theorem Distinct.perm {other : List (Item Time)} (h : Distinct items) (hPerm : other.Perm items) :
    Distinct other := (hPerm.map _).nodup_iff.mpr h

theorem Distinct.filter (h : Distinct items) (p : Item Time → Bool) :
    Distinct (items.filter p) := h.sublist (List.filter_sublist.map _)

theorem Distinct.map (h : Distinct items) {f : Item Time → Item Time} (hf : ∀ x, (f x).copyID = x.copyID) :
    Distinct (items.map f) := by
  rw [Distinct, List.map_map]
  exact (List.map_congr_left fun x _ => hf x : items.map ((·.copyID) ∘ f) = _) ▸ h

end Orders

def ranking (choices : Choices) (calendar : Calendar Time) (items : List (Item Time)) (location : Location) :
    List (Item Time) := choices.sort (newer calendar) (items.filter (present · location))

section Positions

variable [Inhabited Time] {choices : Choices} {items : List (Item Time)}

theorem itemAt_mem {i : Nat} (h : i < items.length) : itemAt items i ∈ items := by
  rw [itemAt, List.getD_eq_getElem _ _ h]
  exact List.getElem_mem h

theorem map_itemAt (items : List (Item Time)) (p : Item Time → Bool) :
    ((List.range items.length).filter fun i => p (itemAt items i)).map (itemAt items) = items.filter p := by
  have hAll : (List.range items.length).map (itemAt items) = items := by
    refine List.ext_getElem (by simp) fun i hi _ => ?_
    simp only [List.getElem_map, List.getElem_range]
    rw [itemAt, List.getD_eq_getElem _ _ (by simpa using hi)]
  conv_rhs => rw [← hAll, List.filter_map]
  rfl

theorem mem_indices {location : Location} {i : Nat} :
    i ∈ indices choices calendar items location ↔ i < items.length ∧ present (itemAt items i) location = true := by
  rw [indices, choices.mem_sort, List.mem_filter, List.mem_range]

theorem indices_nodup (items : List (Item Time)) (location : Location) :
    (indices choices calendar items location).Nodup :=
  (choices.sort_perm _ _).nodup_iff.mpr (List.nodup_range.filter _)

theorem map_indices (h : Distinct items) (location : Location) (other : Choices) :
    (indices choices calendar items location).map (itemAt items) = ranking other calendar items location := by
  have hPerm : ((indices choices calendar items location).map (itemAt items)).Perm
      (items.filter (present · location)) :=
    map_itemAt items (present · location) ▸ (choices.sort_perm _ _).map _
  have hSorted : ((indices choices calendar items location).map (itemAt items)).Pairwise fun a b =>
      OrderDual.toDual (key calendar a) ≤ OrderDual.toDual (key calendar b) :=
    List.pairwise_map.mpr (choices.sort_sorted (newer_byKey (itemAt items)) _)
  refine (other.sort_eq (newer_byKey id) hPerm hSorted (.refl _) fun a ha b hb hKey => ?_).symm
  exact (h.filter _).key_inj ha hb (OrderDual.toDual.injective hKey)

theorem mem_iff_named (h : Distinct items) {positions : List Nat} (hPositions : ∀ i ∈ positions, i < items.length)
    {j : Nat} (hj : j < items.length) :
    j ∈ positions ↔ (itemAt items j).copyID ∈ (positions.map (itemAt items)).map (·.copyID) := by
  simp only [List.map_map, List.mem_map, Function.comp_apply]
  constructor
  · exact fun hMem => ⟨j, hMem, rfl⟩
  · rintro ⟨i, hi, hID⟩
    have hEq := h.eq (itemAt_mem (hPositions i hi)) (itemAt_mem hj) hID
    rw [itemAt, itemAt, List.getD_eq_getElem _ _ (hPositions i hi), List.getD_eq_getElem _ _ hj,
      h.nodup.getElem_inj_iff] at hEq
    exact hEq ▸ hi

end Positions

section Updates

theorem getElem_modifyEach {f : Item Time → Item Time} {positions : List Nat} (h : positions.Nodup)
    (items : List (Item Time)) (j : Nat) :
    (positions.foldl (fun items i => items.modify i f) items)[j]? =
      items[j]?.map fun x => if j ∈ positions then f x else x := by
  induction positions generalizing items with
  | nil => simp
  | cons i _ ih =>
    obtain ⟨hi, hRest⟩ := List.nodup_cons.mp h
    rw [List.foldl_cons, ih hRest, List.getElem?_modify]
    by_cases hij : i = j
    · subst hij
      simp [hi, Function.comp_def]
    · simp [hij, Ne.symm hij]

variable [Inhabited Time]

theorem itemAt_modify_known {f : Item Time → Item Time} (hf : ∀ x, known (f x) = known x) (items : List (Item Time))
    (i j : Nat) : known (itemAt (items.modify i f) j) = known (itemAt items j) := by
  rw [itemAt, itemAt, List.getD_eq_getElem?_getD, List.getD_eq_getElem?_getD, List.getElem?_modify]
  cases items[j]? with
  | none => rfl
  | some x =>
    by_cases hij : i = j
    · simp [hij, hf]
    · simp [hij]

theorem getElem_protectKnown (indices : List Nat) (items : List (Item Time)) (j : Nat) :
    (protectKnown indices items)[j]? = items[j]?.map fun x =>
      if (indices.find? fun i => known (itemAt items i)) = some j then protect "newest" x else x := by
  unfold protectKnown
  split
  · rename_i hNone
    simp [hNone]
  · rename_i i hSome
    rw [hSome, List.getElem?_modify]
    by_cases hij : i = j
    · simp [hij]
    · simp [hij]

end Updates

-- The database selection of one location, copy by copy.
section Database

def sizeTail (maxBytes : Int64) : Int64 → List (Item Time) → List (Item Time)
  | _, [] => []
  | total, x :: rest =>
    let total := addSize maxBytes total x.bytes
    if maxBytes < total then rest else sizeTail maxBytes total rest

def matchedCopies (calendar : Calendar Time) (limits : Limits) (ranked : List (Item Time)) : List (Item Time) :=
  (if 0 < limits.keepCount then ranked.drop (min limits.keepCount.toNat ranked.length) else []) ++
  (if 0 < limits.keepDays then
    ranked.filter fun x => ranked.head?.any fun newest =>
      before calendar x.createdAt (calendar.addDays newest.createdAt (-limits.keepDays))
  else []) ++
  if 0 < limits.maxBytes then sizeTail limits.maxBytes 0 ranked.tail else []

def named (copies : List (Item Time)) (x : Item Time) : Bool := (copies.map (·.copyID)).contains x.copyID

def guarded (ranked : List (Item Time)) (x : Item Time) : Item Time :=
  let first := if named ranked.head?.toList x then protect "newest" x else x
  if named (ranked.find? known).toList x then protect "newest" first else first

def verdict (calendar : Calendar Time) (enabled : Bool) (limits : Limits) (ranked : List (Item Time))
    (x : Item Time) : Item Time :=
  if enabled && named (matchedCopies calendar limits ranked) x then mark (guarded ranked x) else guarded ranked x

variable [Inhabited Time] {choices : Choices} {limits : Limits} {items : List (Item Time)}

theorem map_beyondSize (maxBytes total : Int64) (positions : List Nat) :
    (beyondSize maxBytes items total positions).map (itemAt items) =
      sizeTail maxBytes total (positions.map (itemAt items)) := by
  induction positions generalizing total with
  | nil => rfl
  | cons _ _ ih =>
    simp only [beyondSize, sizeTail, List.map_cons]
    split
    · rfl
    · exact ih _

theorem map_matchedBy (first : Nat) (rest : List Nat) :
    (matchedBy calendar limits items (first :: rest) (itemAt items first).createdAt).map (itemAt items) =
      matchedCopies calendar limits ((first :: rest).map (itemAt items)) := by
  simp only [matchedBy, matchedCopies, List.map_append]
  congr 1
  · congr 1
    · split
      · rw [List.map_drop, List.length_map]
      · rfl
    · split
      · rw [List.filter_map]
        rfl
      · rfl
  · split
    · exact map_beyondSize _ _ _
    · rfl

theorem beyondSize_sublist (maxBytes total : Int64) (positions : List Nat) :
    (beyondSize maxBytes items total positions).Sublist positions := by
  induction positions generalizing total with
  | nil => exact .refl _
  | cons _ _ ih =>
    simp only [beyondSize]
    split
    · exact List.sublist_cons_self _ _
    · exact (ih _).trans (List.sublist_cons_self _ _)

variable {positions : List Nat} {j : Nat} {x : Item Time}

theorem matchedBy_subset {newest : Time} {i : Nat} (h : i ∈ matchedBy calendar limits items positions newest) :
    i ∈ positions := by
  obtain (hCount | hAge) | hSize := List.mem_append.mp h |>.imp_left List.mem_append.mp
  · split at hCount
    · exact List.mem_of_mem_drop hCount
    · cases hCount
  · split at hAge
    · exact List.mem_of_mem_filter hAge
    · cases hAge
  · split at hSize
    · exact List.mem_of_mem_tail ((beyondSize_sublist _ _ _).subset hSize)
    · cases hSize

theorem mem_iff_named_at (h : Distinct items) (hPositions : ∀ i ∈ positions, i < items.length)
    (hx : items[j]? = some x) : j ∈ positions ↔ named (positions.map (itemAt items)) x = true := by
  obtain ⟨hj, rfl⟩ := List.getElem?_eq_some_iff.mp hx
  have hItem : itemAt items j = items[j] := List.getD_eq_getElem _ _ hj
  rw [mem_iff_named h hPositions hj, hItem, named, List.contains_eq_mem, decide_eq_true_eq]

theorem find_known (first : Nat) :
    (positions.find? fun i => known (itemAt (items.modify first (protect "newest")) i)) =
      positions.find? fun i => known (itemAt items i) := by
  congr 1
  funext i
  exact itemAt_modify_known (f := protect "newest") (fun _ => rfl) items first i

theorem find_known_iff (h : Distinct items) (hPositions : ∀ i ∈ positions, i < items.length)
    (hx : items[j]? = some x) :
    (positions.find? fun i => known (itemAt items i)) = some j ↔
      named ((positions.map (itemAt items)).find? known).toList x = true := by
  have hFound : ∀ i ∈ (positions.find? fun i => known (itemAt items i)).toList, i < items.length := fun i hi =>
    hPositions i (List.mem_of_find?_eq_some (Option.mem_toList.mp hi))
  have hMap : ((positions.map (itemAt items)).find? known).toList =
      (positions.find? fun i => known (itemAt items i)).toList.map (itemAt items) := by
    rw [List.find?_map, Option.toList_map]
    rfl
  rw [hMap, ← mem_iff_named_at h hFound hx, Option.mem_toList]

theorem mem_walk_iff (choices : Choices) (enabled : Bool) (h : Distinct items) {first : Nat} {rest : List Nat}
    (hPositions : ∀ i ∈ first :: rest, i < items.length) (hx : items[j]? = some x) :
    (j ∈ choices.walk (if enabled = true then
      (matchedBy calendar limits items (first :: rest) (itemAt items first).createdAt).dedup else [])) ↔
      (enabled && named (matchedCopies calendar limits ((first :: rest).map (itemAt items))) x) = true := by
  rw [(choices.walk_perm _).mem_iff]
  cases enabled with
  | false => simp
  | true =>
    rw [if_pos rfl, List.mem_dedup, mem_iff_named_at h (fun i hi => hPositions i (matchedBy_subset hi)) hx,
      map_matchedBy, Bool.true_and]

omit [Inhabited Time] in
theorem verdict_nil (enabled : Bool) : verdict calendar enabled limits [] = id := by
  funext x
  simp [verdict, matchedCopies, named, guarded, sizeTail]

theorem selectAt_eq (h : Distinct items) (enabled : Bool) (location : Location) (other : Choices) :
    selectAt choices calendar enabled limits location items =
      (items.map (verdict calendar enabled limits (ranking other calendar items location)),
        (ranking other calendar items location).head?.map (·.createdAt)) := by
  have hRanking : (indices choices calendar items location).map (itemAt items) =
      ranking other calendar items location := map_indices h location other
  have hBound : ∀ i ∈ indices choices calendar items location, i < items.length := fun i hi => (mem_indices.mp hi).1
  rw [← hRanking]
  unfold selectAt
  cases hIndices : indices choices calendar items location with
  | nil => simp [verdict_nil]
  | cons first rest =>
    rw [hIndices] at hBound
    refine Prod.ext (List.ext_getElem? fun j => ?_) rfl
    have hNodup : (choices.walk (if enabled = true then (matchedBy calendar limits items (first :: rest)
        (itemAt items first).createdAt).dedup else [])).Nodup := by
      refine (choices.walk_perm _).nodup_iff.mpr ?_
      split
      · exact List.nodup_dedup _
      · exact .nil
    simp only []
    rw [getElem_modifyEach hNodup, getElem_protectKnown, List.getElem?_modify, List.getElem?_map, find_known]
    cases hx : items[j]? with
    | none => rfl
    | some x =>
      have hFirst : j ∈ [first] ↔ named ([first].map (itemAt items)) x = true :=
        mem_iff_named_at h (by simpa using hBound first List.mem_cons_self) hx
      rw [List.mem_singleton, eq_comm] at hFirst
      simp only [Option.map_some, Option.map_eq_map, mem_walk_iff choices enabled h hBound hx, hFirst,
        find_known_iff h hBound hx]
      rfl

end Database

-- The storage selection of one location, copy by copy.
section Storage

def storageVerdict (calendar : Calendar Time) (enabled : Bool) (limits : Limits) (at_ : Time) :
    Nat → Int64 → Bool → List (Item Time) → Item Time → Item Time
  | _, _, _, [], x => x
  | offset, total, exceeded, y :: rest, x =>
    let total := sizeWith total y.bytes
    let exceeded := exceeds limits offset total exceeded
    if y.copyID = x.copyID then judge (dueAt calendar enabled limits at_ offset exceeded y) x
    else storageVerdict calendar enabled limits at_ (offset + 1) total exceeded rest x

variable {enabled : Bool} {limits : Limits} {at_ : Time}

theorem storageVerdict_unnamed {ranked : List (Item Time)} {x : Item Time} (h : named ranked x = false)
    (offset : Nat) (total : Int64) (exceeded : Bool) :
    storageVerdict calendar enabled limits at_ offset total exceeded ranked x = x := by
  induction ranked generalizing offset total exceeded with
  | nil => rfl
  | cons _ _ ih =>
    simp only [named, List.map_cons, List.contains_cons, Bool.or_eq_false_iff, beq_eq_false_iff_ne] at h
    simp only [storageVerdict]
    rw [if_neg (Ne.symm h.1)]
    exact ih h.2 _ _ _

variable [Inhabited Time] {choices : Choices} {items : List (Item Time)}

theorem getElem_storageLoop (h : Distinct items) {positions : List Nat} (hNodup : positions.Nodup)
    (hPositions : ∀ i ∈ positions, i < items.length) (current : List (Item Time))
    (hCurrent : ∀ i ∈ positions, current[i]? = items[i]?) (offset : Nat) (total : Int64) (exceeded : Bool) (j : Nat) :
    (storageLoop calendar enabled limits at_ offset total exceeded positions current)[j]? =
      if j ∈ positions then items[j]?.map (storageVerdict calendar enabled limits at_ offset total exceeded
        (positions.map (itemAt items))) else current[j]? := by
  induction positions generalizing current offset total exceeded with
  | nil => simp [storageLoop]
  | cons i rest ih =>
    obtain ⟨hi, hRest⟩ := List.nodup_cons.mp hNodup
    have hItem : itemAt current i = itemAt items i := by
      rw [itemAt, itemAt, List.getD_eq_getElem?_getD, List.getD_eq_getElem?_getD, hCurrent i List.mem_cons_self]
    have hLater : ∀ k ∈ rest, (current.modify i (judge (dueAt calendar enabled limits at_ offset (exceeds limits offset
        (sizeWith total (itemAt items i).bytes) exceeded) (itemAt items i))))[k]? = items[k]? := by
      intro k hk
      have hik : i ≠ k := fun hEq => hi (hEq ▸ hk)
      rw [List.getElem?_modify_ne _ _ hik]
      exact hCurrent k (List.mem_cons_of_mem _ hk)
    simp only [storageLoop, hItem]
    rw [ih hRest (fun k hk => hPositions k (List.mem_cons_of_mem _ hk)) _ hLater]
    by_cases hij : i = j
    · subst hij
      rw [if_neg hi, if_pos List.mem_cons_self, List.getElem?_modify_eq, hCurrent i List.mem_cons_self]
      cases hx : items[i]? with
      | none => rfl
      | some x =>
        have hx' : itemAt items i = x := by simp [itemAt, List.getD_eq_getElem?_getD, hx]
        simp [storageVerdict, hx']
    · rw [List.getElem?_modify_ne _ _ hij]
      by_cases hj : j ∈ rest
      · rw [if_pos hj, if_pos (List.mem_cons_of_mem _ hj)]
        cases hx : items[j]? with
        | none => rfl
        | some x =>
          -- The copy is not the one at the head.
          have hOther : (itemAt items i).copyID ≠ x.copyID := by
            have hNamed : j ∈ [i] ↔ named ([i].map (itemAt items)) x = true :=
              mem_iff_named_at h (by simpa using hPositions i List.mem_cons_self) hx
            intro hID
            exact hij (List.mem_singleton.mp (hNamed.mpr (by simp [named, hID]))).symm
          simp [storageVerdict, hOther]
      · rw [if_neg hj, if_neg fun hMem => (List.mem_cons.mp hMem).elim (fun hEq => hij hEq.symm) hj]

theorem selectStorageAt_eq (h : Distinct items) (location : Location) (other : Choices) :
    selectStorageAt choices calendar enabled limits at_ location items =
      (items.map (storageVerdict calendar enabled limits at_ 0 0 false (ranking other calendar items location)),
        (ranking other calendar items location).head?.map (·.createdAt)) := by
  have hRanking : (indices choices calendar items location).map (itemAt items) =
      ranking other calendar items location := map_indices h location other
  have hBound : ∀ i ∈ indices choices calendar items location, i < items.length := fun i hi => (mem_indices.mp hi).1
  have hNodup : (indices choices calendar items location).Nodup := indices_nodup items location
  rw [← hRanking]
  unfold selectStorageAt
  cases hIndices : indices choices calendar items location with
  | nil =>
    have hId : storageVerdict calendar enabled limits at_ 0 0 false [] = id := rfl
    simp [hId]
  | cons _ _ =>
    rw [hIndices] at hBound hNodup
    refine Prod.ext (List.ext_getElem? fun j => ?_) rfl
    simp only []
    rw [getElem_storageLoop h hNodup hBound items (fun _ _ => rfl), List.getElem?_map]
    split
    · rfl
    · rename_i hj
      cases hx : items[j]? with
      | none => rfl
      | some x =>
        rw [mem_iff_named_at h hBound hx, Bool.not_eq_true] at hj
        rw [Option.map_some, storageVerdict_unnamed hj]

end Storage

end NeroCD.BackupRetention
