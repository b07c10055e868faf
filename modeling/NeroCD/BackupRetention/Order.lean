import NeroCD.BackupRetention.Passes

-- Retention does not depend on the order of the inventory, on how equal elements are sorted or on how maps are
-- walked.

namespace NeroCD.BackupRetention

open NeroCD.Sorting

variable {Time : Type}

def Policy.limits (p : Policy) : Location → Limits
  | .remoteCopy => p.remoteLimits
  | _ => p.localLimits

abbrev Judgement (Time : Type) := Location → List (Item Time) → Item Time → Item Time

def databaseJudgement (calendar : Calendar Time) (p : Policy) : Judgement Time := fun location ranked =>
  verdict calendar p.enabled (p.limits location) ranked

def storageJudgement (calendar : Calendar Time) (p : Policy) (at_ : Time) : Judgement Time := fun location ranked =>
  storageVerdict calendar p.enabled (p.limits location) at_ 0 0 false ranked

section Judged

variable (choices : Choices) (calendar : Calendar Time) (judgement : Judgement Time)

def afterLocation (location : Location) (items : List (Item Time)) : List (Item Time) :=
  items.map (judgement location (ranking choices calendar items location))

def reference (location : Location) (items : List (Item Time)) : Option Time :=
  (ranking choices calendar items location).head?.map (·.createdAt)

def judged (inventory : List (Item Time)) : Selection Time :=
  let items := inventory.map reset
  let afterLocal := afterLocation choices calendar judgement .localCopy items
  finish choices calendar (afterLocation choices calendar judgement .remoteCopy afterLocal)
    (reference choices calendar .localCopy items) (reference choices calendar .remoteCopy afterLocal)

end Judged

section Fair

variable {calendar : Calendar Time} {enabled : Bool} {limits : Limits} {at_ : Time}

structure SameCopy (x y : Item Time) : Prop where
  copyID : x.copyID = y.copyID
  createdAt : x.createdAt = y.createdAt
  location : x.location = y.location
  availability : x.availability = y.availability
  bytes : x.bytes = y.bytes

theorem guarded_sameCopy (ranked : List (Item Time)) (x : Item Time) : SameCopy (guarded ranked x) x := by
  simp only [guarded]
  split <;> split <;> exact ⟨rfl, rfl, rfl, rfl, rfl⟩

theorem mark_sameCopy (x : Item Time) : SameCopy (mark x) x := by
  simp only [mark]
  split <;> exact ⟨rfl, rfl, rfl, rfl, rfl⟩

theorem judge_sameCopy (due : Bool) (x : Item Time) : SameCopy (judge due x) x := by
  simp only [judge]
  split <;> exact ⟨rfl, rfl, rfl, rfl, rfl⟩

theorem SameCopy.trans {x y z : Item Time} (h : SameCopy x y) (h' : SameCopy y z) : SameCopy x z :=
  ⟨h.copyID.trans h'.copyID, h.createdAt.trans h'.createdAt, h.location.trans h'.location,
    h.availability.trans h'.availability, h.bytes.trans h'.bytes⟩

theorem verdict_sameCopy (ranked : List (Item Time)) (x : Item Time) :
    SameCopy (verdict calendar enabled limits ranked x) x := by
  unfold verdict
  split
  · exact (mark_sameCopy _).trans (guarded_sameCopy ranked x)
  · exact guarded_sameCopy ranked x

theorem storageVerdict_sameCopy (ranked : List (Item Time)) (x : Item Time) (offset : Nat) (total : Int64)
    (exceeded : Bool) : SameCopy (storageVerdict calendar enabled limits at_ offset total exceeded ranked x) x := by
  induction ranked generalizing offset total exceeded with
  | nil => exact ⟨rfl, rfl, rfl, rfl, rfl⟩
  | cons _ _ ih =>
    simp only [storageVerdict]
    split
    · exact judge_sameCopy _ x
    · exact ih _ _ _

def Judgement.Fair (judgement : Judgement Time) : Prop :=
  ∀ location ranked x, SameCopy (judgement location ranked x) x

theorem databaseJudgement_fair (p : Policy) : (databaseJudgement calendar p).Fair :=
  fun _ ranked x => verdict_sameCopy ranked x

theorem storageJudgement_fair (p : Policy) : (storageJudgement calendar p at_).Fair :=
  fun _ ranked x => storageVerdict_sameCopy ranked x 0 0 false

end Fair

section Equations

variable [Inhabited Time] {calendar : Calendar Time} {choices : Choices} {items : List (Item Time)}

omit [Inhabited Time] in
theorem Distinct.reset (h : Distinct items) : Distinct (items.map reset) := h.map fun _ => rfl

omit [Inhabited Time] in
theorem Distinct.afterLocation {judgement : Judgement Time} (hFair : judgement.Fair) (h : Distinct items)
    (location : Location) : Distinct (afterLocation choices calendar judgement location items) :=
  h.map fun x => (hFair _ _ x).copyID

theorem selectBackupRetention_eq (p : Policy) (h : Distinct items) :
    selectBackupRetention choices calendar p items =
      judged choices calendar (databaseJudgement calendar p) items := by
  simp only [selectBackupRetention]
  rw [selectAt_eq h.reset _ _ choices]
  simp only []
  rw [selectAt_eq (h.reset.map fun x => (verdict_sameCopy _ x).copyID) _ _ choices]
  rfl

theorem selectStorageBackupRetention_eq (p : Policy) (at_ : Time) (h : Distinct items) :
    selectStorageBackupRetention choices calendar p items at_ =
      judged choices calendar (storageJudgement calendar p at_) items := by
  simp only [selectStorageBackupRetention]
  rw [selectStorageAt_eq h.reset _ choices]
  simp only []
  rw [selectStorageAt_eq (h.reset.map fun x => (storageVerdict_sameCopy _ x _ _ _).copyID) _ choices]
  rfl

end Equations

section Permutations

variable {calendar : Calendar Time} {judgement : Judgement Time} {items shuffled : List (Item Time)}

theorem ranking_perm (choices other : Choices) (h : Distinct items) (hPerm : shuffled.Perm items)
    (location : Location) :
    ranking choices calendar shuffled location = ranking other calendar items location :=
  choices.sort_congr other (newer_byKey id) (hPerm.filter _) fun _ ha _ hb hKey =>
    (h.filter _).key_inj ha hb (OrderDual.toDual.injective hKey)

theorem afterLocation_perm (choices other : Choices) (h : Distinct items) (hPerm : shuffled.Perm items)
    (location : Location) : (afterLocation choices calendar judgement location shuffled).Perm
      (afterLocation other calendar judgement location items) := by
  rw [afterLocation, ranking_perm choices other h hPerm]
  exact hPerm.map _

theorem finish_perm (choices other : Choices) (h : Distinct items) (hPerm : shuffled.Perm items)
    (localReference remoteReference : Option Time) :
    finish choices calendar shuffled localReference remoteReference =
      finish other calendar items localReference remoteReference := by
  have hSort : choices.sort (older calendar) shuffled = other.sort (older calendar) items :=
    choices.sort_congr other older_byKey hPerm fun _ ha _ hb hKey => h.key_inj ha hb hKey
  rw [finish, hSort]
  rfl

theorem judged_perm (choices other : Choices) (hFair : judgement.Fair) (h : Distinct items)
    (hPerm : shuffled.Perm items) :
    judged choices calendar judgement shuffled = judged other calendar judgement items := by
  have hReset : (shuffled.map reset).Perm (items.map reset) := hPerm.map _
  have hLocal : (afterLocation choices calendar judgement .localCopy (shuffled.map reset)).Perm
      (afterLocation other calendar judgement .localCopy (items.map reset)) :=
    afterLocation_perm choices other h.reset hReset .localCopy
  have hDistinct : Distinct (afterLocation other calendar judgement .localCopy (items.map reset)) :=
    h.reset.afterLocation hFair .localCopy
  simp only [judged, reference, ranking_perm choices other h.reset hReset, ranking_perm choices other hDistinct hLocal]
  exact finish_perm choices other (hDistinct.afterLocation hFair .remoteCopy)
    (afterLocation_perm choices other hDistinct hLocal .remoteCopy) _ _

end Permutations

-- Every permutation of an inventory gives the same selection, however the program sorts equal elements and walks
-- its maps.
theorem selection_order_free [Inhabited Time] (choices other : Choices) (calendar : Calendar Time) (p : Policy)
    (at_ : Time) (inventory shuffled : List (Item Time)) (hDistinct : (inventory.map (·.copyID)).Nodup)
    (hPerm : shuffled.Perm inventory) :
    selectBackupRetention choices calendar p shuffled = selectBackupRetention other calendar p inventory ∧
      selectStorageBackupRetention choices calendar p shuffled at_ =
        selectStorageBackupRetention other calendar p inventory at_ := by
  have h : Distinct inventory := hDistinct
  constructor
  · rw [selectBackupRetention_eq p (h.perm hPerm), selectBackupRetention_eq p h]
    exact judged_perm choices other (databaseJudgement_fair p) h hPerm
  · rw [selectStorageBackupRetention_eq p at_ (h.perm hPerm), selectStorageBackupRetention_eq p at_ h]
    exact judged_perm choices other (storageJudgement_fair p) h hPerm

def dayCalendar : Calendar Int := ⟨id, (· + ·)⟩

def sampleCopy (id : String) (day : Int) (bytes : Int64) : Item Int where
  copyID := id
  backupID := id
  transferID := ""
  location := .localCopy
  digest := ""
  bytes := bytes
  createdAt := day
  availability := .available
  selected := false
  protectedReasons := []

def sampleInventory : List (Item Int) := [sampleCopy "a" 3 10, sampleCopy "b" 2 20, sampleCopy "c" 1 30]

def countPolicy : Policy := ⟨true, ⟨1, 0, 0⟩, ⟨0, 0, 0⟩⟩

theorem sample_order_free :
    selectBackupRetention .plain dayCalendar countPolicy sampleInventory.reverse =
      selectBackupRetention .plain dayCalendar countPolicy sampleInventory :=
  (selection_order_free .plain .plain dayCalendar countPolicy 0 sampleInventory sampleInventory.reverse (by decide)
    (List.reverse_perm _)).1

end NeroCD.BackupRetention
