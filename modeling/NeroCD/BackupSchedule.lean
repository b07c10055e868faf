import Mathlib.Data.List.Infix
import NeroCD.Checks
import NeroCD.GoStrings

-- Backup schedules: which minute a pass of the controller admits (`domain/hosting_database_backup_schedule.go`).

namespace NeroCD.BackupSchedule

open NeroCD.Checks NeroCD.GoStrings

-- Times are nanoseconds since the zero time of Go.
def minute : Int := 60 * 1000000000

-- The offset of local time from UTC at an instant.
abbrev Zone := Int → Int

-- Local date and wall-clock minute (`2006-01-02 15:04`), as the number of the minute.
def wall (zone : Zone) (t : Int) : Int := (t + zone t) / minute

-- `time.LoadLocation`, and the cron parser with the `Next` of what it parses.
structure Library where
  loadLocation : String → Option Zone
  parse : String → Option (Zone → Int → Int)

structure Schedule where
  next : Zone → Int → Int
  hours : String
  location : Zone

def backupScheduleAliases : List (String × String) :=
  [("every_minute", "* * * * *"), ("hourly", "0 * * * *"), ("daily", "0 0 * * *"), ("weekly", "0 0 * * 0"),
    ("monthly", "0 0 1 * *"), ("yearly", "0 0 1 1 *"), ("@hourly", "0 * * * *"), ("@daily", "0 0 * * *"),
    ("@weekly", "0 0 * * 0"), ("@monthly", "0 0 1 * *"), ("@yearly", "0 0 1 1 *")]

-- `^[0-9,\-]+$`.
def backupScheduleFixedHours (hours : String) : Bool :=
  hours != "" && hours.toList.all fun c => c.isDigit || c == ',' || c == '-'

variable (lib : Library)

def backupSchedule (frequency zone : String) : Except String Schedule := do
  refuse (frequency.utf8ByteSize < 1 || frequency.utf8ByteSize > 128 || trimSpace frequency != frequency ||
    zone.utf8ByteSize < 1 || zone.utf8ByteSize > 128 || trimSpace zone != zone ||
    zone.toList.any ['\x00', '\r', '\n', '\\'].contains || zone.toList.head? == some '/' ||
    "..".toList <:+: zone.toList) "invalid database backup schedule"
  let expression := (backupScheduleAliases.lookup frequency).getD frequency
  match fields expression, lib.loadLocation zone, lib.parse expression with
  | [_, hours, _, _, _], some location, some next => do
    refuse (zone == "Local") "invalid database backup schedule"
    pure ⟨next, hours, location⟩
  | _, _, _ => .error "invalid database backup schedule"

-- A matching minute counts only after the cursor, and with fixed hours only if the wall clock has moved on.
def admitted (schedule : Schedule) (cursor : Option Int) (candidate : Int) : Option Int :=
  match cursor with
  | none => some candidate
  | some last =>
    if ¬last < candidate then none
    else if backupScheduleFixedHours schedule.hours &&
        wall schedule.location last == wall schedule.location candidate then none
    else some candidate

def newestFrom (schedule : Schedule) (now : Int) (cursor : Option Int) : Nat → Int → Option Int
  | 0, _ => none
  | fuel + 1, candidate =>
    if candidate < now - 10 * minute then none
    else if schedule.next schedule.location (candidate - minute) ≠ candidate then
      newestFrom schedule now cursor fuel (candidate - minute)
    else admitted schedule cursor candidate

def newest (schedule : Schedule) (now : Int) (cursor : Option Int) : Option Int :=
  newestFrom schedule now cursor 11 (now - now % minute)

def newestOccurrence (frequency zone : String) (now : Int) (cursor : Option Int) : Except String (Option Int) := do
  let schedule ← backupSchedule lib frequency zone
  pure (newest schedule now cursor)

def occurrences (frequency zone : String) : Option Int → List Int → Except String (List (Int × Int))
  | _, [] => .ok []
  | cursor, now :: rest => do
    match ← newestOccurrence lib frequency zone now cursor with
    | none => occurrences frequency zone cursor rest
    | some due =>
      let later ← occurrences frequency zone (some due) rest
      pure ((now, due) :: later)

section Passes

variable {lib} {schedule : Schedule} {now : Int} {cursor : Option Int} {frequency zone : String}

def Schedule.Matches (schedule : Schedule) (t : Int) : Prop := schedule.next schedule.location (t - minute) = t

structure Admissible (schedule : Schedule) (now : Int) (cursor : Option Int) (due : Int) : Prop where
  whole : due % minute = 0
  recent : now - 10 * minute ≤ due
  past : due ≤ now
  matching : schedule.Matches due
  later : ∀ last ∈ cursor, last < due
  unrepeated : backupScheduleFixedHours schedule.hours = true →
    ∀ last ∈ cursor, wall schedule.location last ≠ wall schedule.location due

theorem admitted_some {candidate due : Int} (h : admitted schedule cursor candidate = some due) :
    due = candidate ∧ (∀ last ∈ cursor, last < due) ∧
      (backupScheduleFixedHours schedule.hours = true →
        ∀ last ∈ cursor, wall schedule.location last ≠ wall schedule.location due) := by
  cases cursor with
  | none =>
    cases h
    exact ⟨rfl, nofun, fun _ => nofun⟩
  | some _ =>
    simp only [admitted] at h
    split at h
    · cases h
    · rename_i hLater
      split at h
      · cases h
      · rename_i hFresh
        cases h
        refine ⟨rfl, ?_, ?_⟩
        · intro c hc
          cases hc
          exact not_not.mp hLater
        · intro hFixed c hc hSame
          cases hc
          simp [hFixed, hSame] at hFresh

theorem newestFrom_admissible {fuel : Nat} {candidate due : Int} (hWhole : candidate % minute = 0)
    (hPast : candidate ≤ now) (h : newestFrom schedule now cursor fuel candidate = some due) :
    Admissible schedule now cursor due := by
  induction fuel generalizing candidate with
  | zero => cases h
  | succ _ ih =>
    rw [newestFrom] at h
    split at h
    · cases h
    · rename_i hRecent
      split at h
      · refine ih ?_ ?_ h
        · rw [Int.sub_emod_right]
          exact hWhole
        · unfold minute
          omega
      · rename_i hMatch
        obtain ⟨rfl, hLater, hFresh⟩ := admitted_some h
        exact ⟨hWhole, Int.not_lt.mp hRecent, hPast, not_not.mp hMatch, hLater, hFresh⟩

theorem newest_admissible {due : Int} (h : newest schedule now cursor = some due) :
    Admissible schedule now cursor due := by
  refine newestFrom_admissible ?_ ?_ h
  · unfold minute
    omega
  · unfold minute
    omega

-- The loop ends by its own condition: slots beyond the eleventh lie more than ten minutes back.
theorem newestFrom_fuel {fuel : Nat} {candidate : Int} (hFuel : candidate - fuel * minute < now - 10 * minute)
    (extra : Nat) :
    newestFrom schedule now cursor (fuel + extra) candidate = newestFrom schedule now cursor fuel candidate := by
  induction fuel generalizing candidate with
  | zero =>
    have hOld : candidate < now - 10 * minute := by simpa using hFuel
    cases extra with
    | zero => rfl
    | succ _ =>
      rw [Nat.zero_add, newestFrom, newestFrom, if_pos hOld]
  | succ fuel ih =>
    have hNext : candidate - minute - fuel * minute < now - 10 * minute := by
      rw [Int.natCast_succ, Int.add_mul] at hFuel
      omega
    rw [Nat.succ_add, newestFrom, newestFrom, ih hNext]

theorem newest_fuel (extra : Nat) :
    newestFrom schedule now cursor (11 + extra) (now - now % minute) = newest schedule now cursor := by
  refine newestFrom_fuel ?_ extra
  unfold minute
  omega

theorem occurrences_cons (hSchedule : backupSchedule lib frequency zone = .ok schedule) (rest : List Int) :
    occurrences lib frequency zone cursor (now :: rest) =
      match newest schedule now cursor with
      | none => occurrences lib frequency zone cursor rest
      | some due => (do
          let later ← occurrences lib frequency zone (some due) rest
          pure ((now, due) :: later)) := by
  rw [occurrences, newestOccurrence, hSchedule]
  rfl

structure Admitted (schedule : Schedule) (cursor : Option Int) (ticks : List Int) (admitted : List (Int × Int)) :
    Prop where
  each : ∀ a ∈ admitted, a.1 ∈ ticks ∧ ∃ last, Admissible schedule a.1 last a.2
  later : ∀ last ∈ cursor, ∀ a ∈ admitted, last < a.2
  increasing : (admitted.map (·.2)).Pairwise (· < ·)
  unrepeated : backupScheduleFixedHours schedule.hours = true →
    (cursor.toList ++ admitted.map (·.2)).IsChain fun a b => wall schedule.location a ≠ wall schedule.location b

theorem occurrences_admitted (hSchedule : backupSchedule lib frequency zone = .ok schedule) (ticks : List Int)
    (cursor : Option Int) :
    ∃ admitted, occurrences lib frequency zone cursor ticks = .ok admitted ∧
      Admitted schedule cursor ticks admitted := by
  induction ticks generalizing cursor with
  | nil =>
    refine ⟨[], rfl, nofun, fun _ _ => nofun, .nil, fun _ => ?_⟩
    cases cursor with
    | none => exact .nil
    | some => exact .singleton ..
  | cons now _ ih =>
    rw [occurrences_cons hSchedule]
    cases hNewest : newest schedule now cursor with
    | none =>
      obtain ⟨admitted, hRun, hAdmitted⟩ := ih cursor
      refine ⟨admitted, hRun, fun a ha => ?_, hAdmitted.later, hAdmitted.increasing, hAdmitted.unrepeated⟩
      exact ⟨List.mem_cons_of_mem _ (hAdmitted.each a ha).1, (hAdmitted.each a ha).2⟩
    | some due =>
      have hDue := newest_admissible hNewest
      obtain ⟨admitted, hRun, hAdmitted⟩ := ih (some due)
      have hAfter : ∀ a ∈ admitted, due < a.2 := hAdmitted.later due rfl
      refine ⟨(now, due) :: admitted, ?_, ?_, ?_, ?_, ?_⟩
      · simp only [hRun]
        rfl
      · refine List.forall_mem_cons.mpr ⟨⟨List.mem_cons_self, cursor, hDue⟩, fun a ha => ?_⟩
        exact ⟨List.mem_cons_of_mem _ (hAdmitted.each a ha).1, (hAdmitted.each a ha).2⟩
      · intro last hLast
        refine List.forall_mem_cons.mpr ⟨hDue.later last hLast, fun a ha => ?_⟩
        exact Int.lt_trans (hDue.later last hLast) (hAfter a ha)
      · refine List.pairwise_cons.mpr ⟨fun t ht => ?_, hAdmitted.increasing⟩
        obtain ⟨a, ha, rfl⟩ := List.mem_map.mp ht
        exact hAfter a ha
      · intro hFixed
        have hChain := hAdmitted.unrepeated hFixed
        cases cursor with
        | none => exact hChain
        | some => exact .cons_cons (hDue.unrepeated hFixed _ rfl) hChain

-- Neighbours differ, and of three in a row the outer two differ: no two are the same.
theorem pairwise_of_separated {times : List Int} {P : Int → Prop} {label : Int → Int} (hAll : ∀ t ∈ times, P t)
    (hIncreasing : times.Pairwise (· < ·)) (hChain : times.IsChain fun a b => label a ≠ label b)
    (hSeparated : ∀ a b c, P a → P b → P c → a < b → b < c → label a ≠ label c) :
    times.Pairwise fun a b => label a ≠ label b := by
  induction times with
  | nil => exact .nil
  | cons a rest ih =>
    obtain ⟨hFirst, hIncreasing⟩ := List.pairwise_cons.mp hIncreasing
    obtain ⟨ha, hAll⟩ := List.forall_mem_cons.mp hAll
    refine List.pairwise_cons.mpr ⟨fun c hc => ?_, ih hAll hIncreasing hChain.of_cons⟩
    cases rest with
    | nil => cases hc
    | cons b _ =>
      cases List.mem_cons.mp hc with
      | inl hEq => exact hEq ▸ (List.isChain_cons_cons.mp hChain).1
      | inr hMem =>
        exact hSeparated a b c ha (hAll b List.mem_cons_self) (hAll c hc) (hFirst b List.mem_cons_self)
          ((List.pairwise_cons.mp hIncreasing).1 c hMem)

end Passes

-- Every run of a valid schedule admits increasing whole minutes, each within the ten minutes before its tick and
-- matched by the expression; with fixed hours none repeats the local minute of the one before it.
theorem occurrences_run {lib : Library} {frequency zone : String} {schedule : Schedule}
    (hSchedule : backupSchedule lib frequency zone = .ok schedule) (cursor : Option Int) (ticks : List Int) :
    ∃ admitted, occurrences lib frequency zone cursor ticks = .ok admitted ∧
      (admitted.map (·.2)).Pairwise (· < ·) ∧ (∀ last ∈ cursor, ∀ a ∈ admitted, last < a.2) ∧
      (∀ a ∈ admitted, a.1 ∈ ticks ∧ a.2 % minute = 0 ∧ a.1 - 10 * minute ≤ a.2 ∧ a.2 ≤ a.1 ∧
        schedule.Matches a.2) ∧
      (backupScheduleFixedHours schedule.hours = true →
        ((admitted.map (·.2)).IsChain fun a b => wall schedule.location a ≠ wall schedule.location b) ∧
        ((∀ a b c, schedule.Matches a → schedule.Matches b → schedule.Matches c → a < b → b < c →
            wall schedule.location a ≠ wall schedule.location c) →
          (admitted.map (·.2)).Pairwise fun a b => wall schedule.location a ≠ wall schedule.location b)) := by
  obtain ⟨admitted, hRun, hAdmitted⟩ := occurrences_admitted hSchedule ticks cursor
  have hEach : ∀ a ∈ admitted, a.1 ∈ ticks ∧ a.2 % minute = 0 ∧ a.1 - 10 * minute ≤ a.2 ∧ a.2 ≤ a.1 ∧
      schedule.Matches a.2 := by
    intro a ha
    obtain ⟨hTick, last, hDue⟩ := hAdmitted.each a ha
    exact ⟨hTick, hDue.whole, hDue.recent, hDue.past, hDue.matching⟩
  refine ⟨admitted, hRun, hAdmitted.increasing, hAdmitted.later, hEach, fun hFixed => ?_⟩
  have hChain : (admitted.map (·.2)).IsChain fun a b => wall schedule.location a ≠ wall schedule.location b := by
    have hAll := hAdmitted.unrepeated hFixed
    cases cursor with
    | none => exact hAll
    | some _ => exact hAll.of_cons
  refine ⟨hChain, fun hSeparated => ?_⟩
  refine pairwise_of_separated (fun t ht => ?_) hAdmitted.increasing hChain hSeparated
  obtain ⟨a, ha, rfl⟩ := List.mem_map.mp ht
  exact (hEach a ha).2.2.2.2

section FallBack

-- 2026-10-25T00:00:00Z.  At one in the morning the clocks of Budapest go back from three to two.
def midnight : Int := 63928483200 * 1000000000

def budapest : Zone := fun t => if t < midnight + 60 * minute then 120 * minute else 60 * minute

-- Minutes 0 and 30 of hour 2.
def halfHoursAtTwo (zone : Zone) (t : Int) : Int :=
  let start := t - t % minute + minute
  let local_ := fun k : Nat => wall zone (start + k * minute) % (24 * 60)
  start + ((List.range 2880).find? fun k => local_ k == 2 * 60 || local_ k == 2 * 60 + 30).getD 0 * minute

def budapestLibrary : Library where
  loadLocation zone := if zone = "Europe/Budapest" then some budapest else none
  parse expression := if expression = "0,30 2 * * *" then some halfHoursAtTwo else none

def fallBackTicks : List Int := [midnight, midnight + 30 * minute, midnight + 60 * minute]

-- The first and the third occurrence are both two o'clock; the cursor between them says half past two.
theorem repeated_at_fall_back :
    (backupSchedule budapestLibrary "0,30 2 * * *" "Europe/Budapest").toOption.map
        (backupScheduleFixedHours ·.hours) = some true ∧
      fallBackTicks.Pairwise (· ≤ ·) ∧
      (occurrences budapestLibrary "0,30 2 * * *" "Europe/Budapest" none fallBackTicks).toOption =
        some [(midnight, midnight), (midnight + 30 * minute, midnight + 30 * minute),
          (midnight + 60 * minute, midnight + 60 * minute)] ∧
      wall budapest midnight = wall budapest (midnight + 60 * minute) := by
  decide +kernel

theorem half_hours_run :
    ∃ admitted, occurrences budapestLibrary "0,30 2 * * *" "Europe/Budapest" none fallBackTicks = .ok admitted ∧
      (admitted.map (·.2)).Pairwise (· < ·) := by
  have hValid : (backupSchedule budapestLibrary "0,30 2 * * *" "Europe/Budapest").isOk = true := by decide +kernel
  obtain ⟨schedule, hSchedule⟩ := ok_of_isOk hValid
  obtain ⟨admitted, hRun, hIncreasing, -⟩ := occurrences_run hSchedule none fallBackTicks
  exact ⟨admitted, hRun, hIncreasing⟩

end FallBack

end NeroCD.BackupSchedule
