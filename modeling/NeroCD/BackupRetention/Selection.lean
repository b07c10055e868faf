import NeroCD.BackupRetention.Order
import Mathlib.Algebra.Order.BigOperators.Group.List

-- The copies that the database selection chooses, without passes: the rule for one copy and the cut to a batch.

namespace NeroCD.BackupRetention

open NeroCD.Sorting

variable {Time : Type} {calendar : Calendar Time} {choices : Choices}

-- From the judged items to the batch.
section Batch

theorem cutBatch_selected (n : Nat) (items : List (Item Time)) :
    (cutBatch n items).1.filter (·.selected) = (items.filter (·.selected)).take (batchLimit - n) := by
  induction items generalizing n with
  | nil => simp [cutBatch]
  | cons _ _ ih =>
    simp only [cutBatch]
    split
    · rename_i hSelected
      split
      · rename_i hFull
        have hZero : batchLimit - (n + 1) = 0 := by omega
        have hZero' : batchLimit - n = 0 := by omega
        simp [ih, hZero, hZero']
      · rename_i hRoom
        have hSucc : batchLimit - n = batchLimit - (n + 1) + 1 := by omega
        simp [ih, hSelected, hSucc]
    · rename_i hSelected
      simp [ih, hSelected]

theorem shown_selected {items : List (Item Time)} {n : Nat} (h : (items.filter (·.selected)).length ≤ n) :
    ((items.filter (·.selected) ++ items.filter (!·.selected)).take n).filter (·.selected) =
      items.filter (·.selected) := by
  have hRest : ((items.filter (!·.selected)).take (n - (items.filter (·.selected)).length)).filter (·.selected) = [] := by
    refine List.filter_eq_nil_iff.mpr fun x hx => ?_
    simpa using (List.mem_filter.mp (List.mem_of_mem_take hx)).2
  rw [List.take_append, List.take_of_length_le h, List.filter_append, List.filter_filter, hRest]
  simp

theorem finish_selected (items : List (Item Time)) (localReference remoteReference : Option Time) :
    (finish choices calendar items localReference remoteReference).items.filter (·.selected) =
      ((choices.sort (older calendar) items).filter (·.selected)).take batchLimit := by
  have hCut := cutBatch_selected 0 (choices.sort (older calendar) items)
  rw [Nat.sub_zero] at hCut
  rw [← hCut]
  refine shown_selected ?_
  rw [hCut, List.length_take]
  exact (Nat.min_le_left _ _).trans (by decide)

end Batch

section Maps

theorem SameCopy.key {x y : Item Time} (h : SameCopy x y) : key calendar x = key calendar y := by
  rw [BackupRetention.key, BackupRetention.key, h.createdAt, h.copyID]

theorem SameCopy.present {x y : Item Time} (h : SameCopy x y) (location : Location) :
    present x location = present y location := by
  rw [BackupRetention.present, BackupRetention.present, h.location, h.availability]

variable {items : List (Item Time)} {f : Item Time → Item Time}

theorem sort_older_map (hf : ∀ x, SameCopy (f x) x) (h : Distinct items) (other : Choices) :
    choices.sort (older calendar) (items.map f) = (other.sort (older calendar) items).map f := by
  refine choices.sort_eq older_byKey ((other.sort_perm _ _).map f) ?_ (.refl _) ?_
  · refine List.pairwise_map.mpr ((other.sort_sorted older_byKey items).imp fun hab => ?_)
    rwa [(hf _).key, (hf _).key]
  · exact fun a ha b hb hKey => (h.map fun x => (hf x).copyID).key_inj ha hb hKey

end Maps

-- What becomes of one copy of the inventory.
section Copies

variable {judgement : Judgement Time} {inventory : List (Item Time)}

def Judgement.Scoped (judgement : Judgement Time) : Prop :=
  ∀ location ranked x, named ranked x = false → judgement location ranked x = x

theorem named_of_mem {ranked copies : List (Item Time)} (hSub : copies ⊆ ranked) {x : Item Time}
    (h : named ranked x = false) : named copies x = false := by
  simp only [named, List.contains_eq_mem, decide_eq_false_iff_not] at h ⊢
  exact fun hMem => h (List.map_subset _ hSub hMem)

theorem sizeTail_subset (maxBytes total : Int64) (ranked : List (Item Time)) :
    sizeTail maxBytes total ranked ⊆ ranked := by
  induction ranked generalizing total with
  | nil => exact fun _ h => h
  | cons _ _ ih =>
    simp only [sizeTail]
    split
    · exact fun _ h => List.mem_cons_of_mem _ h
    · exact fun _ h => List.mem_cons_of_mem _ (ih _ h)

theorem matchedCopies_subset (limits : Limits) (ranked : List (Item Time)) :
    matchedCopies calendar limits ranked ⊆ ranked := by
  intro x h
  obtain (hCount | hAge) | hSize := List.mem_append.mp h |>.imp_left List.mem_append.mp
  · split at hCount
    · exact List.mem_of_mem_drop hCount
    · cases hCount
  · split at hAge
    · exact List.mem_of_mem_filter hAge
    · cases hAge
  · split at hSize
    · exact List.mem_of_mem_tail (sizeTail_subset _ _ _ hSize)
    · cases hSize

theorem databaseJudgement_scoped (p : Policy) : (databaseJudgement calendar p).Scoped := by
  intro location ranked x h
  have hMatched : named (matchedCopies calendar (p.limits location) ranked) x = false :=
    named_of_mem (matchedCopies_subset _ ranked) h
  have hFirst : named ranked.head?.toList x = false :=
    named_of_mem (fun y hy => List.mem_of_mem_head? (by simpa using hy)) h
  have hKnown : named (ranked.find? known).toList x = false :=
    named_of_mem (fun y hy => List.mem_of_find?_eq_some (by simpa using hy)) h
  simp [databaseJudgement, verdict, guarded, hMatched, hFirst, hKnown]

theorem storageJudgement_scoped (p : Policy) (at_ : Time) : (storageJudgement calendar p at_).Scoped :=
  fun _ _ _ h => storageVerdict_unnamed h 0 0 false

def Location.judged : Location → Bool
  | .other _ => false
  | _ => true

def Judgement.final (judgement : Judgement Time) (choices : Choices) (calendar : Calendar Time)
    (inventory : List (Item Time)) (x : Item Time) : Item Time :=
  if x.location.judged then judgement x.location (ranking choices calendar (inventory.map reset) x.location) (reset x)
  else reset x

variable {items : List (Item Time)}

theorem filter_map_fixed {p : Item Time → Bool} {g : Item Time → Item Time} (hp : ∀ x ∈ items, p (g x) = p x)
    (hg : ∀ x ∈ items, p x = true → g x = x) : (items.map g).filter p = items.filter p := by
  have hFilter : items.filter (p ∘ g) = items.filter p := List.filter_congr hp
  rw [List.filter_map, hFilter]
  refine (List.map_congr_left fun x hx => ?_).trans (List.map_id _)
  exact hg x (List.mem_filter.mp hx).1 (List.mem_filter.mp hx).2

theorem unnamed (h : Distinct items) {x : Item Time} (hx : x ∈ items) {location : Location}
    (hLocation : x.location ≠ location) : named (ranking choices calendar items location) x = false := by
  rw [named, List.contains_eq_mem, decide_eq_false_iff_not, List.mem_map]
  rintro ⟨y, hy, hID⟩
  rw [ranking, choices.mem_sort, List.mem_filter] at hy
  obtain rfl := h.eq hy.1 hx hID
  simp only [present, Bool.and_eq_true, beq_iff_eq] at hy
  exact hLocation hy.2.1

theorem ranking_after (hFair : judgement.Fair) (hScoped : judgement.Scoped) (h : Distinct items)
    {location other : Location} (hOther : other ≠ location) :
    ranking choices calendar (afterLocation choices calendar judgement location items) other =
      ranking choices calendar items other := by
  rw [ranking, afterLocation, filter_map_fixed (fun x _ => (hFair _ _ x).present other) fun x hx hPresent => ?_]
  · rfl
  · simp only [present, Bool.and_eq_true, beq_iff_eq] at hPresent
    exact hScoped _ _ x (unnamed h hx fun hEq => hOther (hPresent.1.symm.trans hEq))

theorem judged_items (hFair : judgement.Fair) (hScoped : judgement.Scoped) (h : Distinct inventory) :
    afterLocation choices calendar judgement .remoteCopy
        (afterLocation choices calendar judgement .localCopy (inventory.map reset)) =
      inventory.map (judgement.final choices calendar inventory) := by
  have hReset := h.reset
  rw [afterLocation, ranking_after hFair hScoped hReset (by decide), afterLocation, List.map_map, List.map_map]
  refine List.map_congr_left fun x hx => ?_
  have hMem : reset x ∈ inventory.map reset := List.mem_map_of_mem hx
  have hUnnamed : ∀ location, x.location ≠ location → ∀ y, y.copyID = x.copyID →
      judgement location (ranking choices calendar (inventory.map reset) location) y = y := by
    intro location hLocation y hID
    refine hScoped _ _ _ ?_
    rw [named, hID]
    exact unnamed hReset hMem hLocation
  simp only [Function.comp_apply, Judgement.final]
  cases hLocation : x.location with
  | localCopy =>
    rw [if_pos (by rfl)]
    exact hUnnamed _ (by simp [hLocation]) _ (hFair _ _ _).copyID
  | remoteCopy =>
    rw [if_pos (by rfl), hUnnamed .localCopy (by simp [hLocation]) (reset x) rfl]
  | other _ =>
    rw [if_neg (by simp [Location.judged]), hUnnamed .localCopy (by simp [hLocation]) (reset x) rfl,
      hUnnamed .remoteCopy (by simp [hLocation]) (reset x) rfl]

theorem final_sameCopy (hFair : judgement.Fair) (x : Item Time) :
    SameCopy (judgement.final choices calendar inventory x) x := by
  unfold Judgement.final
  split
  · exact (hFair _ _ _).trans ⟨rfl, rfl, rfl, rfl, rfl⟩
  · exact ⟨rfl, rfl, rfl, rfl, rfl⟩

theorem judged_selected (hFair : judgement.Fair) (hScoped : judgement.Scoped) (h : Distinct inventory)
    {ordered : List (Item Time)} (hPerm : ordered.Perm inventory)
    (hOrdered : ordered.Pairwise fun a b => key calendar a ≤ key calendar b) :
    ((judged choices calendar judgement inventory).items.filter (·.selected)).map (·.copyID) =
      ((ordered.filter fun x => (judgement.final choices calendar inventory x).selected).take batchLimit).map
        (·.copyID) := by
  have hSort : choices.sort (older calendar) inventory = ordered :=
    choices.sort_eq older_byKey hPerm hOrdered (.refl _) fun _ ha _ hb hKey => h.key_inj ha hb hKey
  rw [judged, finish_selected, judged_items hFair hScoped h, sort_older_map (final_sameCopy hFair) h choices, hSort,
    List.filter_map, ← List.map_take, List.map_map]
  exact List.map_congr_left fun x _ => (final_sameCopy hFair x).copyID

end Copies

-- The rule for one copy, in terms of the copies of its location.
section Rule

variable (calendar : Calendar Time) (p : Policy) (inventory : List (Item Time))

def peers (x : Item Time) : List (Item Time) := inventory.filter (present · x.location)

def Newest (x : Item Time) : Prop := ∀ y ∈ peers inventory x, newer calendar y x = false

def NewestKnown (x : Item Time) : Prop :=
  known x = true ∧ ∀ y ∈ peers inventory x, known y = true → newer calendar y x = false

def rank (x : Item Time) : Nat := ((peers inventory x).filter fun y => newer calendar y x).length

def sizeAhead (x : Item Time) : Int :=
  (((peers inventory x).filter fun y => newer calendar y x && (peers inventory x).any fun z => newer calendar z y).map
    (·.bytes.toInt)).sum

def OverCount (x : Item Time) : Prop :=
  0 < (p.limits x.location).keepCount ∧ (p.limits x.location).keepCount ≤ rank calendar inventory x

def OverAge (x : Item Time) : Prop :=
  0 < (p.limits x.location).keepDays ∧ ∃ newest ∈ peers inventory x, Newest calendar inventory newest ∧
    before calendar x.createdAt (calendar.addDays newest.createdAt (-(p.limits x.location).keepDays)) = true

def OverSize (x : Item Time) : Prop :=
  0 < (p.limits x.location).maxBytes ∧ (p.limits x.location).maxBytes.toInt < sizeAhead calendar inventory x

structure Eligible (x : Item Time) : Prop where
  enabled : p.enabled = true
  judged : x.location.judged = true
  available : x.availability = .available
  unprotected : x.protectedReasons = []
  notNewest : ¬Newest calendar inventory x
  notNewestKnown : ¬NewestKnown calendar inventory x
  overLimit : OverCount calendar p inventory x ∨ OverAge calendar p inventory x ∨ OverSize calendar p inventory x

end Rule

-- The place of a copy in its ranking says all that the rule asks for.
section Places

variable {items ranked newerCopies olderCopies : List (Item Time)} {location : Location} {x : Item Time}

theorem newer_asymm {a b : Item Time} (h : newer calendar a b = true) : newer calendar b a = false := by
  rw [← Bool.not_eq_true, newer_iff]
  exact lt_asymm (newer_iff.mp h)

theorem newer_irrefl (a : Item Time) : newer calendar a a = false := by
  rw [← Bool.not_eq_true, newer_iff]
  exact lt_irrefl _

theorem mem_ranking : x ∈ ranking choices calendar items location ↔ x ∈ items ∧ present x location = true := by
  rw [ranking, choices.mem_sort, List.mem_filter]

theorem ranking_distinct (h : Distinct items) : Distinct (ranking choices calendar items location) :=
  (h.filter _).perm (choices.sort_perm _ _)

theorem ranking_strict (h : Distinct items) :
    (ranking choices calendar items location).Pairwise fun a b => newer calendar a b = true := by
  have hSorted : (ranking choices calendar items location).Pairwise fun a b =>
      OrderDual.toDual (key calendar a) ≤ OrderDual.toDual (key calendar b) := choices.sort_sorted (newer_byKey id) _
  have hDistinct : Distinct (ranking choices calendar items location) := ranking_distinct h
  refine ((List.Pairwise.and_mem.mp hSorted).and hDistinct.nodup).imp fun {a b} hab => ?_
  obtain ⟨⟨ha, hb, hLe⟩, hNe⟩ := hab
  exact newer_iff.mpr (lt_of_le_of_ne hLe fun hKey => hNe (hDistinct.key_inj ha hb hKey.symm))

theorem ranking_peers (hx : x.location = location) :
    (ranking choices calendar items location).Perm (peers items x) := by
  rw [peers, hx]
  exact choices.sort_perm _ _

structure Placed (calendar : Calendar Time) (ranked newerCopies olderCopies : List (Item Time)) (x : Item Time) :
    Prop where
  split : ranked = newerCopies ++ x :: olderCopies
  strict : ranked.Pairwise fun a b => newer calendar a b = true

theorem Placed.newer (h : Placed calendar ranked newerCopies olderCopies x) {y : Item Time} (hy : y ∈ newerCopies) :
    newer calendar y x = true := by
  have hStrict := h.split ▸ h.strict
  exact (List.pairwise_append.mp hStrict).2.2 y hy x List.mem_cons_self

theorem Placed.older (h : Placed calendar ranked newerCopies olderCopies x) {y : Item Time} (hy : y ∈ x :: olderCopies) :
    BackupRetention.newer calendar y x = false := by
  have hStrict := h.split ▸ h.strict
  obtain rfl | hy := List.mem_cons.mp hy
  · exact newer_irrefl _
  · exact newer_asymm ((List.pairwise_cons.mp (List.pairwise_append.mp hStrict).2.1).1 y hy)

theorem Placed.filter_newer (h : Placed calendar ranked newerCopies olderCopies x) :
    (ranked.filter fun y => BackupRetention.newer calendar y x) = newerCopies := by
  rw [h.split, List.filter_append, List.filter_eq_self.mpr fun y hy => h.newer hy,
    List.filter_eq_nil_iff.mpr fun y hy => by simp [h.older hy], List.append_nil]

theorem Placed.newest_iff (h : Placed calendar ranked newerCopies olderCopies x) (hPeers : ranked.Perm (peers items x)) :
    Newest calendar items x ↔ newerCopies = [] := by
  constructor
  · intro hNewest
    refine List.eq_nil_iff_forall_not_mem.mpr fun y hy => ?_
    have hFalse := hNewest y (hPeers.subset (h.split ▸ List.mem_append_left _ hy))
    rw [h.newer hy] at hFalse
    cases hFalse
  · rintro hNil y hy
    have hMem := hPeers.symm.subset hy
    rw [h.split, hNil, List.nil_append] at hMem
    exact h.older hMem

theorem Placed.head_iff (h : Placed calendar ranked newerCopies olderCopies x) :
    ranked.head? = some x ↔ newerCopies = [] := by
  rw [h.split]
  cases newerCopies with
  | nil => simp
  | cons y _ =>
    have hNe : y ≠ x := by
      rintro rfl
      have hNewer := h.newer List.mem_cons_self
      rw [newer_irrefl] at hNewer
      cases hNewer
    simp [hNe]

theorem Placed.known_iff (h : Placed calendar ranked newerCopies olderCopies x) (hPeers : ranked.Perm (peers items x)) :
    NewestKnown calendar items x ↔ ranked.find? known = some x := by
  have hUnknown : (∀ y ∈ peers items x, known y = true → BackupRetention.newer calendar y x = false) ↔
      ∀ y ∈ newerCopies, ¬known y = true := by
    constructor
    · intro hAll y hy hKnown
      have hFalse := hAll y (hPeers.subset (h.split ▸ List.mem_append_left _ hy)) hKnown
      rw [h.newer hy] at hFalse
      cases hFalse
    · intro hNone y hy hKnown
      have hMem := hPeers.symm.subset hy
      rw [h.split] at hMem
      obtain hNew | hOld := List.mem_append.mp hMem
      · exact absurd hKnown (hNone y hNew)
      · exact h.older hOld
  rw [NewestKnown, hUnknown, h.split, List.find?_append]
  constructor
  · rintro ⟨hKnown, hNone⟩
    rw [List.find?_eq_none.mpr hNone]
    simp [hKnown]
  · intro hFind
    cases hFirst : newerCopies.find? known with
    | none =>
      rw [hFirst, Option.none_or] at hFind
      exact ⟨List.find?_some hFind, List.find?_eq_none.mp hFirst⟩
    | some y =>
      rw [hFirst, Option.some_or, Option.some.injEq] at hFind
      have hNewer := h.newer (List.mem_of_find?_eq_some hFirst)
      rw [hFind, newer_irrefl] at hNewer
      cases hNewer

theorem Placed.rank_eq (h : Placed calendar ranked newerCopies olderCopies x) (hPeers : ranked.Perm (peers items x)) :
    rank calendar items x = newerCopies.length := by
  rw [rank, ← (hPeers.filter _).length_eq, h.filter_newer]

theorem any_perm {l l' : List (Item Time)} (hPerm : l.Perm l') (q : Item Time → Bool) : l.any q = l'.any q := by
  rw [Bool.eq_iff_iff, List.any_eq_true, List.any_eq_true]
  simp only [hPerm.mem_iff]

theorem Placed.filter_tail (h : Placed calendar ranked newerCopies olderCopies x) :
    (newerCopies.filter fun y => ranked.any fun z => BackupRetention.newer calendar z y) = newerCopies.tail := by
  have hStrict := h.strict
  rw [h.split] at hStrict ⊢
  cases newerCopies with
  | nil => rfl
  | cons first rest =>
    rw [List.cons_append, List.pairwise_cons] at hStrict
    have hFirst : ((first :: rest ++ x :: olderCopies).any fun z => BackupRetention.newer calendar z first) = false := by
      refine List.any_eq_false.mpr fun z hz => ?_
      obtain rfl | hz := List.mem_cons.mp hz
      · simp [newer_irrefl]
      · simp [newer_asymm (hStrict.1 z hz)]
    have hRest : ∀ y ∈ rest,
        ((first :: rest ++ x :: olderCopies).any fun z => BackupRetention.newer calendar z y) = true := fun y hy =>
      List.any_eq_true.mpr ⟨first, List.mem_cons_self, hStrict.1 y (List.mem_append_left _ hy)⟩
    rw [List.filter_cons, if_neg (by rw [hFirst]; decide), List.filter_eq_self.mpr hRest, List.tail_cons]

theorem Placed.sizeAhead_eq (h : Placed calendar ranked newerCopies olderCopies x)
    (hPeers : ranked.Perm (peers items x)) :
    sizeAhead calendar items x = (newerCopies.tail.map (·.bytes.toInt)).sum := by
  have hAny : (fun y => (peers items x).any fun z => BackupRetention.newer calendar z y) =
      fun y => ranked.any fun z => BackupRetention.newer calendar z y := funext fun y => any_perm hPeers.symm _
  have hFilter : ((peers items x).filter fun y => BackupRetention.newer calendar y x &&
      (peers items x).any fun z => BackupRetention.newer calendar z y).Perm newerCopies.tail := by
    have hSwap : (ranked.filter fun y => BackupRetention.newer calendar y x &&
        ranked.any fun z => BackupRetention.newer calendar z y) = newerCopies.tail := by
      rw [← h.filter_tail, ← h.filter_newer, List.filter_filter]
      simp only [Bool.and_comm]
    rw [← hSwap]
    simp only [congrFun hAny]
    exact (hPeers.filter _).symm
  exact (hFilter.map _).sum_eq

theorem Placed.of_mem (hStrict : ranked.Pairwise fun a b => BackupRetention.newer calendar a b = true)
    (hx : x ∈ ranked) : ∃ newerCopies olderCopies, Placed calendar ranked newerCopies olderCopies x := by
  obtain ⟨newerCopies, olderCopies, hSplit⟩ := List.append_of_mem hx
  exact ⟨newerCopies, olderCopies, hSplit, hStrict⟩

theorem newest_head (hStrict : ranked.Pairwise fun a b => BackupRetention.newer calendar a b = true)
    (hPeers : ranked.Perm (peers items x)) (hLocation : ∀ y ∈ ranked, y.location = x.location)
    (q : Item Time → Bool) :
    (∃ newest ∈ peers items x, Newest calendar items newest ∧ q newest = true) ↔ ranked.head?.any q = true := by
  have hHead : ∀ y ∈ ranked, (Newest calendar items y ↔ ranked.head? = some y) := by
    intro y hy
    obtain ⟨newerCopies, olderCopies, hPlaced⟩ := Placed.of_mem hStrict hy
    have hSame : peers items y = peers items x := by rw [peers, peers, hLocation y hy]
    rw [hPlaced.newest_iff (hSame ▸ hPeers), hPlaced.head_iff]
  constructor
  · rintro ⟨newest, hMem, hNewest, hq⟩
    rw [(hHead newest (hPeers.symm.subset hMem)).mp hNewest]
    simpa using hq
  · intro hAny
    obtain ⟨newest, hFirst, hq⟩ := (Option.any_eq_true _ _).mp hAny
    have hMem : newest ∈ ranked := List.mem_of_mem_head? hFirst
    exact ⟨newest, hPeers.subset hMem, (hHead newest hMem).mpr hFirst, hq⟩

section Sizes

variable {maxBytes total bytes : Int64}

theorem toInt_sub_nonneg (hMax : 0 ≤ maxBytes.toInt) (hBytes : 0 ≤ bytes.toInt) :
    (maxBytes - bytes).toInt = maxBytes.toInt - bytes.toInt := by
  have hUpper := maxBytes.toInt_lt
  have hUpper' := bytes.toInt_lt
  rw [Int64.toInt_sub]
  exact Int.bmod_eq_of_le (by omega) (by omega)

theorem addSize_eq (hMax : maxBytes.toInt < 2 ^ 63 - 1) (hBytes : 0 ≤ bytes.toInt) (hTotal : 0 ≤ total.toInt)
    (hBelow : total.toInt ≤ maxBytes.toInt) :
    (addSize maxBytes total bytes).toInt =
      if maxBytes.toInt < total.toInt + bytes.toInt then maxBytes.toInt + 1 else total.toInt + bytes.toInt := by
  have hOne : (1 : Int64).toInt = 1 := rfl
  simp only [addSize, Int64.lt_iff_toInt_lt, toInt_sub_nonneg (hTotal.trans hBelow) hBytes]
  split
  · rw [if_pos (by omega), Int64.toInt_add, hOne]
    exact Int.bmod_eq_of_le (by omega) (by omega)
  · rw [if_neg (by omega), Int64.toInt_add]
    exact Int.bmod_eq_of_le (by omega) (by omega)

end Sizes

theorem sum_nonneg {copies : List (Item Time)} (h : ∀ y ∈ copies, 0 ≤ y.bytes.toInt) :
    0 ≤ (copies.map (·.bytes.toInt)).sum := by
  refine List.sum_nonneg fun n hn => ?_
  obtain ⟨y, hy, rfl⟩ := List.mem_map.mp hn
  exact h y hy

theorem mem_sizeTail {maxBytes total : Int64} (hMax : maxBytes.toInt < 2 ^ 63 - 1) {ahead behind : List (Item Time)}
    (hSizes : ∀ y ∈ ahead ++ x :: behind, 0 ≤ y.bytes.toInt) (hNodup : (ahead ++ x :: behind).Nodup)
    (hTotal : 0 ≤ total.toInt) (hBelow : total.toInt ≤ maxBytes.toInt) :
    x ∈ sizeTail maxBytes total (ahead ++ x :: behind) ↔
      maxBytes.toInt < total.toInt + (ahead.map (·.bytes.toInt)).sum := by
  induction ahead generalizing total with
  | nil =>
    obtain ⟨hx, -⟩ := List.nodup_cons.mp hNodup
    have hNot : x ∉ sizeTail maxBytes total (x :: behind) := by
      simp only [sizeTail]
      split
      · exact hx
      · exact fun hMem => hx (sizeTail_subset _ _ _ hMem)
    simp only [List.nil_append, hNot, List.map_nil, List.sum_nil, Int.add_zero, false_iff]
    omega
  | cons y rest ih =>
    have hRest : ∀ z ∈ rest ++ x :: behind, 0 ≤ z.bytes.toInt := fun z hz => hSizes z (List.mem_cons_of_mem _ hz)
    have hSum := sum_nonneg fun z hz => hRest z (List.mem_append_left _ hz)
    have hAdd := addSize_eq hMax (hSizes y List.mem_cons_self) hTotal hBelow
    have hy := hSizes y List.mem_cons_self
    simp only [List.cons_append, sizeTail, List.map_cons, List.sum_cons, Int64.lt_iff_toInt_lt, hAdd]
    by_cases hOver : maxBytes.toInt < total.toInt + y.bytes.toInt
    · have hMem : x ∈ rest ++ x :: behind := List.mem_append_right _ List.mem_cons_self
      rw [if_pos hOver, if_pos (by omega)]
      exact iff_of_true hMem (by omega)
    · rw [if_neg hOver, if_neg hOver] at *
      rw [ih hRest (List.nodup_cons.mp hNodup).2 (by omega) (by omega), hAdd]
      omega

end Places

section Eligibility

variable {ranked copies : List (Item Time)} {x : Item Time} {enabled : Bool} {limits : Limits}

theorem appendReason_isEmpty (reasons : List String) (reason : String) :
    (appendReason reasons reason).isEmpty = false := by
  unfold appendReason
  split
  · rename_i hContains
    cases reasons with
    | nil => cases hContains
    | cons _ _ => rfl
  · cases reasons with
    | nil => rfl
    | cons _ _ => rfl

theorem mark_selected (x : Item Time) :
    (mark x).selected = (x.protectedReasons.isEmpty && x.availability == .available) := by
  simp only [mark, protect]
  split
  · rename_i hUnavailable
    simp only [bne_iff_ne] at hUnavailable
    simp [appendReason_isEmpty, hUnavailable]
  · rename_i hAvailable
    simp only [bne_iff_ne, not_not] at hAvailable
    simp [hAvailable]

theorem guarded_isEmpty (ranked : List (Item Time)) (x : Item Time) :
    (guarded ranked x).protectedReasons.isEmpty = (x.protectedReasons.isEmpty && !named ranked.head?.toList x &&
      !named (ranked.find? known).toList x) := by
  simp only [guarded, protect]
  cases named ranked.head?.toList x <;> cases named (ranked.find? known).toList x <;> simp [appendReason_isEmpty]

theorem guarded_mark (ranked : List (Item Time)) (x : Item Time) : (guarded ranked x).selected = x.selected := by
  simp only [guarded]
  split <;> split <;> rfl

theorem verdict_selected (hx : x.selected = false) :
    (verdict calendar enabled limits ranked x).selected = true ↔
      enabled = true ∧ named (matchedCopies calendar limits ranked) x = true ∧ x.protectedReasons = [] ∧
        named ranked.head?.toList x = false ∧ named (ranked.find? known).toList x = false ∧
        x.availability = .available := by
  unfold verdict
  split
  · rename_i hMatched
    rw [Bool.and_eq_true] at hMatched
    rw [mark_selected, guarded_isEmpty, (guarded_sameCopy ranked x).availability]
    simp [hMatched, and_assoc]
  · rename_i hMatched
    rw [guarded_mark, hx]
    simp only [Bool.and_eq_true] at hMatched
    exact iff_of_false (by decide) fun hAll => hMatched ⟨hAll.1, hAll.2.1⟩

theorem named_iff (h : Distinct ranked) (hx : x ∈ ranked) (hSub : copies ⊆ ranked) :
    named copies x = true ↔ x ∈ copies := by
  rw [named, List.contains_eq_mem, decide_eq_true_eq, List.mem_map]
  constructor
  · rintro ⟨y, hy, hID⟩
    exact h.eq (hSub hy) hx hID ▸ hy
  · exact fun hMem => ⟨x, hMem, rfl⟩

theorem mem_drop_iff {newerCopies olderCopies : List (Item Time)} (hNodup : (newerCopies ++ x :: olderCopies).Nodup)
    (k : Nat) : x ∈ (newerCopies ++ x :: olderCopies).drop k ↔ k ≤ newerCopies.length := by
  rw [List.drop_append]
  constructor
  · intro hMem
    by_contra hLarge
    obtain ⟨n, hn⟩ : ∃ n, k - newerCopies.length = n + 1 := ⟨k - newerCopies.length - 1, by omega⟩
    rw [List.drop_eq_nil_of_le (by omega), hn, List.nil_append, List.drop_succ_cons] at hMem
    exact (List.nodup_cons.mp (List.nodup_append.mp hNodup).2.1).1 (List.mem_of_mem_drop hMem)
  · intro hSmall
    rw [Nat.sub_eq_zero_of_le hSmall]
    exact List.mem_append_right _ List.mem_cons_self

variable {items : List (Item Time)} {p : Policy}

-- The three limits, one by one.
section Limits

variable {newerCopies olderCopies : List (Item Time)}

theorem Placed.mem_drop (hPlaced : Placed calendar ranked newerCopies olderCopies x) (hNodup : ranked.Nodup) (k : Nat) :
    x ∈ ranked.drop (min k ranked.length) ↔ k ≤ newerCopies.length := by
  have hLength : ranked.length = newerCopies.length + (olderCopies.length + 1) := by
    rw [hPlaced.split, List.length_append, List.length_cons]
  rw [hLength]
  rw [hPlaced.split] at hNodup ⊢
  rw [mem_drop_iff hNodup]
  omega

theorem Placed.mem_sizeTail {maxBytes : Int64} (hMax : maxBytes.toInt < 2 ^ 63 - 1) (hPositive : 0 < maxBytes.toInt)
    (hPlaced : Placed calendar ranked newerCopies olderCopies x) (hNodup : ranked.Nodup)
    (hSizes : ∀ y ∈ ranked, 0 ≤ y.bytes.toInt) :
    x ∈ sizeTail maxBytes 0 ranked.tail ↔ maxBytes.toInt < (newerCopies.tail.map (·.bytes.toInt)).sum := by
  have hZero : (0 : Int64).toInt = 0 := rfl
  rw [hPlaced.split] at hNodup hSizes ⊢
  cases newerCopies with
  | nil =>
    have hx : x ∉ olderCopies := (List.nodup_cons.mp hNodup).1
    simp only [List.nil_append, List.tail_cons, List.tail_nil, List.map_nil, List.sum_nil]
    exact iff_of_false (fun hMem => hx (sizeTail_subset _ _ _ hMem)) fun h => by omega
  | cons _ _ =>
    rw [List.cons_append, List.tail_cons, List.tail_cons,
      BackupRetention.mem_sizeTail hMax (fun y hy => hSizes y (List.mem_cons_of_mem _ hy))
        (List.nodup_cons.mp hNodup).2 (by rw [hZero]) (by rw [hZero]; omega), hZero, Int.zero_add]

theorem mem_overCount (hPlaced : Placed calendar ranked newerCopies olderCopies x) (hNodup : ranked.Nodup)
    (hPeers : ranked.Perm (peers items x)) :
    (x ∈ if 0 < (p.limits x.location).keepCount then
      ranked.drop (min (p.limits x.location).keepCount.toNat ranked.length) else []) ↔
        OverCount calendar p items x := by
  rw [OverCount, hPlaced.rank_eq hPeers]
  split
  · rw [hPlaced.mem_drop hNodup]
    omega
  · rename_i hOff
    exact iff_of_false List.not_mem_nil fun h => hOff h.1

theorem mem_overAge (hStrict : ranked.Pairwise fun a b => newer calendar a b = true)
    (hPeers : ranked.Perm (peers items x)) (hLocation : ∀ y ∈ ranked, y.location = x.location) (hx : x ∈ ranked) :
    (x ∈ if 0 < (p.limits x.location).keepDays then
      ranked.filter fun y => ranked.head?.any fun newest => before calendar y.createdAt
        (calendar.addDays newest.createdAt (-(p.limits x.location).keepDays)) else []) ↔
      OverAge calendar p items x := by
  rw [OverAge, newest_head hStrict hPeers hLocation]
  split
  · rename_i hOn
    simp only [List.mem_filter, hx, true_and, hOn]
  · rename_i hOff
    exact iff_of_false List.not_mem_nil fun h => hOff h.1

theorem mem_overSize (hMax : (p.limits x.location).maxBytes.toInt < 2 ^ 63 - 1)
    (hPlaced : Placed calendar ranked newerCopies olderCopies x) (hNodup : ranked.Nodup)
    (hPeers : ranked.Perm (peers items x)) (hSizes : ∀ y ∈ ranked, 0 ≤ y.bytes.toInt) :
    (x ∈ if 0 < (p.limits x.location).maxBytes then
      sizeTail (p.limits x.location).maxBytes 0 ranked.tail else []) ↔ OverSize calendar p items x := by
  rw [OverSize, hPlaced.sizeAhead_eq hPeers]
  split
  · rename_i hOn
    rw [hPlaced.mem_sizeTail hMax (Int64.lt_iff_toInt_lt.mp hOn) hNodup hSizes]
    exact ⟨fun h => ⟨hOn, h⟩, fun h => h.2⟩
  · rename_i hOff
    exact iff_of_false List.not_mem_nil fun h => hOff h.1

theorem mem_matchedCopies (hMax : (p.limits x.location).maxBytes.toInt < 2 ^ 63 - 1)
    (hStrict : ranked.Pairwise fun a b => newer calendar a b = true) (hNodup : ranked.Nodup)
    (hPeers : ranked.Perm (peers items x)) (hLocation : ∀ y ∈ ranked, y.location = x.location)
    (hSizes : ∀ y ∈ ranked, 0 ≤ y.bytes.toInt) (hx : x ∈ ranked) :
    x ∈ matchedCopies calendar (p.limits x.location) ranked ↔
      OverCount calendar p items x ∨ OverAge calendar p items x ∨ OverSize calendar p items x := by
  obtain ⟨newerCopies, olderCopies, hPlaced⟩ := Placed.of_mem hStrict hx
  rw [matchedCopies, List.mem_append, List.mem_append, mem_overCount hPlaced hNodup hPeers,
    mem_overAge hStrict hPeers hLocation hx, mem_overSize hMax hPlaced hNodup hPeers hSizes, or_assoc]

end Limits

theorem verdict_eligible (h : Distinct items) (hMax : (p.limits x.location).maxBytes.toInt < 2 ^ 63 - 1)
    (hSizes : ∀ y ∈ items, 0 ≤ y.bytes.toInt) (hx : x ∈ items) (hMark : x.selected = false)
    (hJudged : x.location.judged = true) :
    (verdict calendar p.enabled (p.limits x.location) (ranking choices calendar items x.location) x).selected = true ↔
      Eligible calendar p items x := by
  by_cases hPresent : present x x.location = true
  · have hRanked : x ∈ ranking choices calendar items x.location := mem_ranking.mpr ⟨hx, hPresent⟩
    have hStrict : (ranking choices calendar items x.location).Pairwise fun a b => newer calendar a b = true :=
      ranking_strict h
    have hDistinct : Distinct (ranking choices calendar items x.location) := ranking_distinct h
    have hPeers : (ranking choices calendar items x.location).Perm (peers items x) := ranking_peers rfl
    have hLocation : ∀ y ∈ ranking choices calendar items x.location, y.location = x.location := by
      intro y hy
      have hThere := (mem_ranking.mp hy).2
      simp only [present, Bool.and_eq_true, beq_iff_eq] at hThere
      exact hThere.1
    obtain ⟨newerCopies, olderCopies, hPlaced⟩ := Placed.of_mem hStrict hRanked
    have hNewest : named (ranking choices calendar items x.location).head?.toList x = true ↔
        Newest calendar items x := by
      rw [named_iff hDistinct hRanked fun y hy => List.mem_of_mem_head? (by simpa using hy), Option.mem_toList,
        hPlaced.newest_iff hPeers, hPlaced.head_iff]
    have hKnown : named ((ranking choices calendar items x.location).find? known).toList x = true ↔
        NewestKnown calendar items x := by
      rw [named_iff hDistinct hRanked fun y hy => List.mem_of_find?_eq_some (by simpa using hy), Option.mem_toList,
        hPlaced.known_iff hPeers]
    rw [verdict_selected hMark, named_iff hDistinct hRanked (matchedCopies_subset _ _),
      mem_matchedCopies hMax hStrict hDistinct.nodup hPeers hLocation (fun y hy => hSizes y (mem_ranking.mp hy).1) hRanked,
      ← Bool.not_eq_true, ← Bool.not_eq_true, hNewest, hKnown]
    exact ⟨fun ⟨hEnabled, hOver, hFree, hFirst, hFirstKnown, hAvailable⟩ =>
        ⟨hEnabled, hJudged, hAvailable, hFree, hFirst, hFirstKnown, hOver⟩,
      fun hEligible => ⟨hEligible.enabled, hEligible.overLimit, hEligible.unprotected, hEligible.notNewest,
        hEligible.notNewestKnown, hEligible.available⟩⟩
  · -- A deleted copy has no rank and is not available.
    have hDeleted : x.availability = .deleted := by simpa [present] using hPresent
    have hUnnamed : named (ranking choices calendar items x.location) x = false := by
      rw [named, List.contains_eq_mem, decide_eq_false_iff_not, List.mem_map]
      rintro ⟨y, hy, hID⟩
      obtain ⟨hy, hThere⟩ := mem_ranking.mp hy
      exact hPresent (h.eq hy hx hID ▸ hThere)
    have hSame : verdict calendar p.enabled (p.limits x.location) (ranking choices calendar items x.location) x = x :=
      databaseJudgement_scoped p x.location _ x hUnnamed
    rw [hSame, hMark]
    refine iff_of_false (by decide) fun hEligible => ?_
    have hAvailable := hEligible.available
    rw [hDeleted] at hAvailable
    cases hAvailable

theorem peers_reset (x : Item Time) : peers (items.map reset) (reset x) = (peers items x).map reset := by
  rw [peers, peers, List.filter_map]
  rfl

theorem eligible_reset : Eligible calendar p (items.map reset) (reset x) ↔ Eligible calendar p items x := by
  have hNewer : ∀ a b : Item Time, newer calendar (reset a) (reset b) = newer calendar a b := fun _ _ => rfl
  have hNewest : ∀ y, Newest calendar (items.map reset) (reset y) ↔ Newest calendar items y := by
    intro y
    simp only [Newest, peers_reset, List.forall_mem_map, hNewer]
  have hKnown : NewestKnown calendar (items.map reset) (reset x) ↔ NewestKnown calendar items x := by
    simp only [NewestKnown, peers_reset, List.forall_mem_map, hNewer]
    rfl
  have hRank : rank calendar (items.map reset) (reset x) = rank calendar items x := by
    rw [rank, peers_reset, List.filter_map, List.length_map]
    rfl
  have hSize : sizeAhead calendar (items.map reset) (reset x) = sizeAhead calendar items x := by
    rw [sizeAhead, peers_reset, List.filter_map, List.map_map, sizeAhead]
    simp only [Function.comp_def, List.any_map, hNewer]
    rfl
  have hAge : OverAge calendar p (items.map reset) (reset x) ↔ OverAge calendar p items x := by
    simp only [OverAge, peers_reset, List.mem_map, exists_exists_and_eq_and, hNewest]
    rfl
  constructor
  · rintro ⟨hEnabled, hJudged, hAvailable, hFree, hFirst, hFirstKnown, hOver⟩
    refine ⟨hEnabled, hJudged, hAvailable, hFree, fun h => hFirst ((hNewest x).mpr h),
      fun h => hFirstKnown (hKnown.mpr h), ?_⟩
    rwa [OverCount, hRank, hAge, OverSize, hSize] at hOver
  · rintro ⟨hEnabled, hJudged, hAvailable, hFree, hFirst, hFirstKnown, hOver⟩
    refine ⟨hEnabled, hJudged, hAvailable, hFree, fun h => hFirst ((hNewest x).mp h),
      fun h => hFirstKnown (hKnown.mp h), ?_⟩
    rwa [OverCount, hRank, hAge, OverSize, hSize]

theorem final_eligible (h : Distinct items) (hMax : ∀ location, (p.limits location).maxBytes.toInt < 2 ^ 63 - 1)
    (hSizes : ∀ y ∈ items, 0 ≤ y.bytes.toInt) (hx : x ∈ items) :
    ((databaseJudgement calendar p).final choices calendar items x).selected = true ↔ Eligible calendar p items x := by
  unfold Judgement.final
  split
  · rename_i hJudged
    have hResetSizes : ∀ y ∈ items.map reset, 0 ≤ y.bytes.toInt := by
      intro y hy
      obtain ⟨z, hz, rfl⟩ := List.mem_map.mp hy
      exact hSizes z hz
    rw [← eligible_reset]
    exact verdict_eligible h.reset (hMax _) hResetSizes (List.mem_map_of_mem hx) rfl hJudged
  · rename_i hJudged
    exact iff_of_false (by simp [reset]) fun hEligible => hJudged hEligible.judged

end Eligibility

open Classical in
-- The selected copies are the first hundred eligible ones, for limits that leave room above them.
theorem selected_are_eligible [Inhabited Time] (choices : Choices) (calendar : Calendar Time) (p : Policy)
    (inventory ordered : List (Item Time)) (hDistinct : (inventory.map (·.copyID)).Nodup)
    (hSizes : ∀ x ∈ inventory, 0 ≤ x.bytes) (hLocal : p.localLimits.maxBytes < Int64.maxValue)
    (hRemote : p.remoteLimits.maxBytes < Int64.maxValue) (hPerm : ordered.Perm inventory)
    (hOrdered : ordered.Pairwise fun a b => older calendar a b = true) :
    ((selectBackupRetention choices calendar p inventory).items.filter (·.selected)).map (·.copyID) =
      ((ordered.filter fun x => decide (Eligible calendar p inventory x)).take 100).map (·.copyID) := by
  have h : Distinct inventory := hDistinct
  have hTop : Int64.maxValue.toInt = 2 ^ 63 - 1 := rfl
  have hMax : ∀ location, (p.limits location).maxBytes.toInt < 2 ^ 63 - 1 := by
    intro location
    cases location with
    | remoteCopy => exact hTop ▸ Int64.lt_iff_toInt_lt.mp hRemote
    | localCopy => exact hTop ▸ Int64.lt_iff_toInt_lt.mp hLocal
    | other _ => exact hTop ▸ Int64.lt_iff_toInt_lt.mp hLocal
  have hKeys : ordered.Pairwise fun a b => key calendar a ≤ key calendar b :=
    hOrdered.imp fun hab => le_of_lt ((older_byKey _ _).mp hab)
  rw [selectBackupRetention_eq p h,
    judged_selected (databaseJudgement_fair p) (databaseJudgement_scoped p) h hPerm hKeys]
  congr 2
  refine List.filter_congr fun x hx => ?_
  rw [Bool.eq_iff_iff, decide_eq_true_eq]
  exact final_eligible h hMax (fun y hy => Int64.le_iff_toInt_le.mp (hSizes y hy)) (hPerm.subset hx)

open Classical in
theorem sample_selection :
    ((selectBackupRetention .plain dayCalendar countPolicy sampleInventory).items.filter (·.selected)).map (·.copyID) =
      (([sampleCopy "c" 1 30, sampleCopy "b" 2 20, sampleCopy "a" 3 10].filter fun x =>
        decide (Eligible dayCalendar countPolicy sampleInventory x)).take 100).map (·.copyID) :=
  selected_are_eligible .plain dayCalendar countPolicy sampleInventory
    [sampleCopy "c" 1 30, sampleCopy "b" 2 20, sampleCopy "a" 3 10] (by decide) (by decide) (by decide) (by decide)
    (List.reverse_perm sampleInventory) (by decide)

-- A limit of the largest size: the running size wraps around instead of exceeding it.
def largestPolicy : Policy := ⟨true, ⟨0, 0, Int64.maxValue⟩, ⟨0, 0, 0⟩⟩

def largeInventory : List (Item Int) :=
  [sampleCopy "a" 4 10, sampleCopy "b" 3 4611686018427387904, sampleCopy "c" 2 4611686018427387904,
    sampleCopy "d" 1 10]

theorem largest_limit_ignored :
    (largeInventory.map (·.copyID)).Nodup ∧ (∀ x ∈ largeInventory, 0 ≤ x.bytes) ∧
      Eligible dayCalendar largestPolicy largeInventory (sampleCopy "d" 1 10) ∧
      ∀ choices, (selectBackupRetention choices dayCalendar largestPolicy largeInventory).items.filter (·.selected) =
        [] := by
  have hDistinct : Distinct largeInventory := by
    unfold Distinct
    decide
  have hPlain : (selectBackupRetention .plain dayCalendar largestPolicy largeInventory).items.filter (·.selected) =
      [] := by decide +kernel
  refine ⟨hDistinct, by decide, ⟨rfl, rfl, rfl, rfl, ?_, ?_, .inr (.inr ⟨by decide, by decide +kernel⟩)⟩, fun choices => ?_⟩
  · unfold Newest
    decide
  · unfold NewestKnown
    decide
  · rw [selectBackupRetention_eq _ hDistinct] at hPlain ⊢
    rwa [judged_perm choices .plain (databaseJudgement_fair _) hDistinct (.refl _)]

end NeroCD.BackupRetention
