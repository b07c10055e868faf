import Mathlib.Algebra.Order.Ring.Int
import NeroCD.Sorting
import Mathlib.Data.List.Dedup
import Mathlib.Data.Prod.Lex
import Mathlib.Data.String.Basic

-- Backup retention: which copies of an inventory a policy selects for deletion.

namespace NeroCD.BackupRetention

open NeroCD.Sorting

-- `time.Time`, as far as retention uses it: the instant, and `AddDate(0, 0, days)` in the zone of the time.
structure Calendar (Time : Type) where
  instant : Time → Int
  addDays : Time → Int → Time

inductive Location where
  | localCopy
  | remoteCopy
  | other (text : String)
  deriving DecidableEq

inductive Availability where
  | available
  | unproven
  | deleted
  | other (text : String)
  deriving DecidableEq

structure Limits where
  keepCount : Int
  keepDays : Int
  maxBytes : Int64

structure Policy where
  enabled : Bool
  localLimits : Limits
  remoteLimits : Limits

structure Item (Time : Type) where
  copyID : String
  backupID : String
  transferID : String
  location : Location
  digest : String
  bytes : Int64
  createdAt : Time
  availability : Availability
  selected : Bool
  protectedReasons : List String

structure Selection (Time : Type) where
  items : List (Item Time)
  localReference : Option Time
  remoteReference : Option Time
  truncated : Bool

def inventoryLimit : Nat := 1000

def batchLimit : Nat := 100

instance {Time : Type} [Inhabited Time] : Inhabited (Item Time) :=
  ⟨⟨"", "", "", .other "", "", 0, default, .other "", false, []⟩⟩

variable {Time : Type}

def appendReason (reasons : List String) (reason : String) : List String :=
  if reasons.contains reason then reasons else reasons ++ [reason]

def protect (reason : String) (item : Item Time) : Item Time :=
  { item with protectedReasons := appendReason item.protectedReasons reason }

def reset (item : Item Time) : Item Time := { item with selected := false }

def present (item : Item Time) (location : Location) : Bool :=
  item.location == location && item.availability != .deleted

def known (item : Item Time) : Bool := item.availability == .available || item.availability == .unproven

section Orders

variable (calendar : Calendar Time)

def newer (a b : Item Time) : Bool :=
  if calendar.instant a.createdAt ≠ calendar.instant b.createdAt then
    calendar.instant b.createdAt < calendar.instant a.createdAt
  else b.copyID < a.copyID

def older (a b : Item Time) : Bool :=
  if calendar.instant a.createdAt ≠ calendar.instant b.createdAt then
    calendar.instant a.createdAt < calendar.instant b.createdAt
  else a.copyID < b.copyID

def before (a b : Time) : Bool := calendar.instant a < calendar.instant b

end Orders

def mark (item : Item Time) : Item Time :=
  let item := if item.availability != .available then protect "unavailable" item else item
  { item with selected := item.protectedReasons.isEmpty }

def cutBatch : Nat → List (Item Time) → List (Item Time) × Bool
  | _, [] => ([], false)
  | selected, item :: rest =>
    if item.selected then
      let (later, truncated) := cutBatch (selected + 1) rest
      if batchLimit < selected + 1 then ({ protect "batch_limit" item with selected := false } :: later, true)
      else (item :: later, truncated)
    else
      let (later, truncated) := cutBatch selected rest
      (item :: later, truncated)

-- Selected items stand first, in the order they had.
def finish (choices : Choices) (calendar : Calendar Time) (items : List (Item Time))
    (localReference remoteReference : Option Time) : Selection Time :=
  let (items, truncated) := cutBatch 0 (choices.sort (older calendar) items)
  let shown := items.filter (·.selected) ++ items.filter (!·.selected)
  { items := shown.take inventoryLimit
    localReference := localReference
    remoteReference := remoteReference
    truncated := truncated || inventoryLimit < shown.length }

-- Bounds on copy bytes and inventory prevent arithmetic overflow.
def addSize (maxBytes total bytes : Int64) : Int64 :=
  if maxBytes - bytes < total then maxBytes + 1 else total + bytes

-- The storage selection adds up the sizes of all copies and protects none by itself.
def sizeWith (total bytes : Int64) : Int64 :=
  if bytes < 0 || 4611686018427387904 - bytes < total then 4611686018427387904 else total + bytes

def dueAt (calendar : Calendar Time) (enabled : Bool) (limits : Limits) (at_ : Time) (offset : Nat)
    (exceeded : Bool) (item : Item Time) : Bool :=
  enabled && (0 < limits.keepCount && limits.keepCount ≤ offset ||
    0 < limits.keepDays && before calendar item.createdAt (calendar.addDays at_ (-limits.keepDays)) || exceeded)

def judge (selected : Bool) (item : Item Time) : Item Time :=
  let item := if selected && item.availability != .available then protect "unavailable" item else item
  { item with selected := selected && item.protectedReasons.isEmpty }

def exceeds (limits : Limits) (offset : Nat) (total : Int64) (exceeded : Bool) : Bool :=
  exceeded || 0 < offset && 0 < limits.maxBytes && limits.maxBytes < total

section Selecting

variable [Inhabited Time] (choices : Choices) (calendar : Calendar Time)

def itemAt (items : List (Item Time)) (i : Nat) : Item Time := items.getD i default

def indices (items : List (Item Time)) (location : Location) : List Nat :=
  choices.sort (fun i j => newer calendar (itemAt items i) (itemAt items j))
    ((List.range items.length).filter fun i => present (itemAt items i) location)

def beyondSize (maxBytes : Int64) (items : List (Item Time)) : Int64 → List Nat → List Nat
  | _, [] => []
  | total, i :: rest =>
    let total := addSize maxBytes total (itemAt items i).bytes
    if maxBytes < total then rest else beyondSize maxBytes items total rest

-- The keys of the map of matched indices, with repetitions.
def matchedBy (limits : Limits) (items : List (Item Time)) (indices : List Nat) (newest : Time) : List Nat :=
  (if 0 < limits.keepCount then indices.drop (min limits.keepCount.toNat indices.length) else []) ++
  (if 0 < limits.keepDays then
    indices.filter fun i => before calendar (itemAt items i).createdAt (calendar.addDays newest (-limits.keepDays))
  else []) ++
  if 0 < limits.maxBytes then beyondSize limits.maxBytes items 0 indices.tail else []

def protectKnown (indices : List Nat) (items : List (Item Time)) : List (Item Time) :=
  match indices.find? fun i => known (itemAt items i) with
  | none => items
  | some i => items.modify i (protect "newest")

def selectAt (enabled : Bool) (limits : Limits) (location : Location) (items : List (Item Time)) :
    List (Item Time) × Option Time :=
  let indices := indices choices calendar items location
  match indices with
  | [] => (items, none)
  | first :: _ =>
    let newest := (itemAt items first).createdAt
    let matched := if enabled then (matchedBy calendar limits items indices newest).dedup else []
    let guarded := protectKnown indices (items.modify first (protect "newest"))
    ((choices.walk matched).foldl (fun items i => items.modify i mark) guarded, some newest)

def selectBackupRetention (p : Policy) (inventory : List (Item Time)) : Selection Time :=
  let items := inventory.map reset
  let (items, localReference) := selectAt choices calendar p.enabled p.localLimits .localCopy items
  let (items, remoteReference) := selectAt choices calendar p.enabled p.remoteLimits .remoteCopy items
  finish choices calendar items localReference remoteReference

def storageLoop (enabled : Bool) (limits : Limits) (at_ : Time) :
    Nat → Int64 → Bool → List Nat → List (Item Time) → List (Item Time)
  | _, _, _, [], items => items
  | offset, total, exceeded, i :: rest, items =>
    let item := itemAt items i
    let total := sizeWith total item.bytes
    let exceeded := exceeds limits offset total exceeded
    let selected := dueAt calendar enabled limits at_ offset exceeded item
    storageLoop enabled limits at_ (offset + 1) total exceeded rest (items.modify i (judge selected))

def selectStorageAt (enabled : Bool) (limits : Limits) (at_ : Time) (location : Location)
    (items : List (Item Time)) : List (Item Time) × Option Time :=
  let indices := indices choices calendar items location
  match indices with
  | [] => (items, none)
  | first :: _ =>
    (storageLoop calendar enabled limits at_ 0 0 false indices items, some (itemAt items first).createdAt)

def selectStorageBackupRetention (p : Policy) (inventory : List (Item Time)) (at_ : Time) : Selection Time :=
  let items := inventory.map reset
  let (items, localReference) := selectStorageAt choices calendar p.enabled p.localLimits at_ .localCopy items
  let (items, remoteReference) := selectStorageAt choices calendar p.enabled p.remoteLimits at_ .remoteCopy items
  finish choices calendar items localReference remoteReference

end Selecting

end NeroCD.BackupRetention
