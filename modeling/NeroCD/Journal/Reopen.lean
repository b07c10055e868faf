import NeroCD.Journal.Operations
import NeroCD.Journal.Version

-- A state ready to be written is accepted again after `persistLocked` wrote it.

namespace NeroCD.Journal

open NeroCD.Checks

def sharedFamilies : List Family := [.capture, .archive, .event, .completion, .provenance, .hosting, .proxy]

-- The entries that are checked one by one only when they are appended and when the file is opened.
structure EntriesValid (d : Documents) (s : JournalState) : Prop where
  archives : ∀ e ∈ s.storageArchive, d.validateJournalStorageArchive e = .ok ()
  events : ∀ e ∈ s.events, validateJournalEvent e = .ok ()
  completions : ∀ e ∈ s.completions, validateJournalCompletion e = .ok ()
  provenance : ∀ e ∈ s.provenance, validateJournalProvenance e = .ok ()
  hosting : ∀ e ∈ s.hosting, d.validateJournalHosting e = .ok ()
  proxy : ∀ e ∈ s.proxy, d.validateJournalProxy e = .ok ()

-- What does not read the version.  `owner` says which family an ID belongs to.
structure Kept (d : Documents) (owner : String → Family) (s : JournalState) : Prop where
  valid : EntriesValid d s
  upgrades : validateDatabaseUpgradeJournalChain d s.hosting = .ok ()
  count : entryCount s ≤ journalMaxEntries
  nodup : ∀ f ∈ sharedFamilies, (idsOf s f).Nodup
  owned : ∀ f, ∀ x ∈ idsOf s f, owner x = f

structure Ready (d : Documents) (owner : String → Family) (s : JournalState) : Prop extends Kept d owner s where
  version_pos : 1 ≤ s.version
  version_le : s.version ≤ 22
  stackBase : s.stackBaseVersion = 0
  importBase : s.externalImportBaseVersion = 0
  covers : ∀ k, k ≤ 18 → uses s k = true → k ≤ s.version

structure Checked (d : Documents) (s : JournalState) : Prop where
  imports : validateJournalDatabaseImports d s = .ok ()
  storageTransfers : validateJournalStorageBackupTransfers d s = .ok ()
  databaseTransfers : validateJournalDatabaseBackupTransfers d s = .ok ()
  backups : validateJournalDatabaseBackups d s = .ok ()
  application : validateApplicationDatabaseJournalChain d s.hosting = .ok ()
  captures : validateJournalDatabaseNetworkCaptures d s = .ok ()
  archives : validateJournalStorageArchives d s = .ok ()
  logs : (s.buildLogs.isEmpty && s.buildLogCursors.isEmpty) = true ∨ buildLogsConsistent d s = .ok ()
  builds : s.build.isEmpty = true ∨ buildEvidenceConsistent d s = .ok ()
  databaseRetentions : validateJournalDatabaseBackupRetentions d s = .ok ()
  storageRetentions : validateJournalStorageBackupRetentions d s = .ok ()

section

variable {d : Documents} {owner : String → Family} {s : JournalState}

theorem Kept.apart (h : Kept d owner s) {f g : Family} (hne : f ≠ g) {x : String} (hx : x ∈ idsOf s f) :
    x ∉ idsOf s g := by
  intro hg
  exact hne ((h.owned f x hx).symm.trans (h.owned g x hg))

theorem Kept.withVersion (h : Kept d owner s) (v : Nat) : Kept d owner (s.withVersion v) where
  valid := ⟨h.valid.archives, h.valid.events, h.valid.completions, h.valid.provenance, h.valid.hosting,
    h.valid.proxy⟩
  upgrades := h.upgrades
  count := h.count
  nodup f hf := by
    have hIDs : idsOf (s.withVersion v) f = idsOf s f := by cases f <;> rfl
    exact hIDs ▸ h.nodup f hf
  owned f x hx := by
    have hIDs : idsOf (s.withVersion v) f = idsOf s f := by cases f <;> rfl
    exact h.owned f x (hIDs ▸ hx)

theorem Kept.withoutStorageRetentions (h : Kept d owner s) : Kept d owner s.withoutStorageRetentions where
  valid := ⟨h.valid.archives, h.valid.events, h.valid.completions, h.valid.provenance, h.valid.hosting,
    h.valid.proxy⟩
  upgrades := h.upgrades
  count := by
    have hCount := h.count
    simp only [entryCount, JournalState.withoutStorageRetentions, List.length_nil] at hCount ⊢
    omega
  nodup f hf := by
    have hIDs : idsOf s.withoutStorageRetentions f = idsOf s f := by
      cases f <;> first | rfl | simp [sharedFamilies] at hf
    exact hIDs ▸ h.nodup f hf
  owned f x hx := by
    refine h.owned f x ?_
    cases f <;> first | exact hx | simp [idsOf, JournalState.withoutStorageRetentions] at hx

theorem Checked.withVersion (h : Checked d s) (v : Nat) : Checked d (s.withVersion v) :=
  ⟨h.imports, h.storageTransfers, h.databaseTransfers, h.backups, h.application, h.captures, h.archives,
    h.logs, h.builds, h.databaseRetentions, h.storageRetentions⟩

theorem Checked.withoutStorageRetentions (h : Checked d s) : Checked d s.withoutStorageRetentions :=
  ⟨h.imports, h.storageTransfers, h.databaseTransfers, h.backups, h.application, h.captures, h.archives,
    h.logs, h.builds, h.databaseRetentions, rfl⟩

theorem validateHostingEntry_ok (hs : Settled s s.version) (hValid : EntriesValid d s) (e : JournalHosting)
    (he : e ∈ s.hosting) : validateHostingEntry d s.version e = .ok () := by
  have hAny : ∀ (p : JournalHosting → Bool) (k : Nat), k ≤ 20 → uses s k = s.hosting.any p →
      (p e && decide (s.version < k)) = false := by
    intro p k hk hUses
    cases hp : p e with
    | false => rfl
    | true =>
      have hCovers := hs.covers k hk (hUses.trans (List.any_eq_true.mpr ⟨e, he, hp⟩))
      simpa using hCovers
  unfold validateHostingEntry
  simp only [bind_eq_ok, exists_unit, refuse_eq_ok]
  refine ⟨hAny (·.applicationStorage.isSome) 17 (by omega) rfl,
    hAny hostingJournalUsesRouteContinuity 16 (by omega) rfl,
    hAny hostingJournalUsesConnection 15 (by omega) rfl,
    hAny (·.databaseUpgrade.isSome) 14 (by omega) rfl, ?_, ?_, ?_, ?_, ?_, hValid.hosting e he⟩
  · exact (Bool.and_comm _ _).trans (hAny hostingJournalUsesDatabase 11 (by omega) rfl)
  · exact (Bool.and_comm _ _).trans (hAny hostingJournalUsesStorage 10 (by omega) rfl)
  · exact (Bool.and_comm _ _).trans (hAny hostingJournalUsesRuntimeEnvironment 8 (by omega) rfl)
  · exact (Bool.and_comm _ _).trans (hAny hostingJournalUsesLocalBuild 6 (by omega) rfl)
  · exact (Bool.and_comm _ _).trans (hAny hostingJournalNeedsV3 3 (by omega) rfl)

theorem validateProxyEntry_ok (hs : Settled s s.version) (hValid : EntriesValid d s) (e : JournalProxy)
    (he : e ∈ s.proxy) : validateProxyEntry d s.version e = .ok () := by
  unfold validateProxyEntry
  simp only [bind_eq_ok, exists_unit, refuse_eq_ok]
  refine ⟨?_, hValid.proxy e he⟩
  cases hSwitch : usesVerifiedSwitch e with
  | false => rfl
  | true =>
    have hUses : uses s 9 = true := List.any_eq_true.mpr ⟨e, he, hSwitch⟩
    have := hs.covers 9 (by omega) hUses
    simpa using this

theorem validateBackupEvidence_ok (hs : Settled s s.version) (hc : Checked d s) :
    validateBackupEvidence d s = .ok () := by
  have h20 : (journalUsesRetention s && s.version != 20) = false := by
    cases hUses : journalUsesRetention s with
    | false => rfl
    | true =>
      have hLow := hs.covers 20 (by omega) hUses
      have hHigh := hs.le
      simp
      omega
  unfold validateBackupEvidence
  simp only [bind_eq_ok, exists_unit, refuse_eq_ok]
  refine ⟨?_, hc.databaseRetentions, ?_, hc.databaseTransfers, ?_, hc.backups⟩
  · rw [h20, Bool.false_or]
    exact hs.marks 20 (by omega)
  · simpa [versionEvidence] using hs.matches_version 19 (by omega) (by omega)
  · simpa [versionEvidence] using hs.matches_version 18 (by omega) (by omega)

def Recorded (s : JournalState) (fs : List Family) (ids : List String) : Prop :=
  ∀ x ∈ ids, ∃ f ∈ fs, x ∈ idsOf s f

theorem record_family {α : Type} (hk : Kept d owner s) (f : Family) (fs : List Family) (ids : List String)
    (hRecorded : Recorded s fs ids) (hNew : f ∉ fs) (hShared : f ∈ sharedFamilies) (id : α → String)
    (before : α → Except String Unit) (l : List α) (hIDs : idsOf s f = l.map id)
    (hChecks : ∀ e ∈ l, before e = .ok ()) :
    ∃ r, recordIDs id before noCheck errDuplicateIDs ids l = .ok r ∧ Recorded s (f :: fs) r := by
  have hNodup := hk.nodup f hShared
  rw [hIDs] at hNodup
  have hApart : ∀ x ∈ l.map id, x ∉ ids := by
    intro x hx hIn
    obtain ⟨g, hg, hxg⟩ := hRecorded x hIn
    have hne : f ≠ g := by
      intro hEq
      exact hNew (hEq ▸ hg)
    exact hk.apart hne (hIDs ▸ hx) hxg
  obtain ⟨r, hr, hMem⟩ := recordIDs_ok id before noCheck errDuplicateIDs l ids
    (fun e he => ⟨hChecks e he, rfl⟩) hNodup hApart
  refine ⟨r, hr, ?_⟩
  intro x hx
  cases (hMem x).mp hx with
  | inl hl => exact ⟨f, List.mem_cons_self, hIDs ▸ hl⟩
  | inr hids =>
    obtain ⟨g, hg, hxg⟩ := hRecorded x hids
    exact ⟨g, List.mem_cons_of_mem _ hg, hxg⟩

def genericFamilies : List Family := [.provenance, .completion, .event, .archive, .capture]

theorem validateGenericEntries_ok (hk : Kept d owner s) (hs : Settled s s.version) :
    ∃ ids, validateGenericEntries d s = .ok ids ∧ Recorded s genericFamilies ids := by
  obtain ⟨r1, h1, hR1⟩ := record_family hk .capture [] [] (by simp [Recorded]) (by simp) (by decide)
    (·.id) noCheck s.databaseNetworkCapture rfl (by simp)
  obtain ⟨r2, h2, hR2⟩ := record_family hk .archive _ _ hR1 (by decide) (by decide)
    (·.id) d.validateJournalStorageArchive s.storageArchive rfl hk.valid.archives
  obtain ⟨r3, h3, hR3⟩ := record_family hk .event _ _ hR2 (by decide) (by decide)
    (·.id) validateJournalEvent s.events rfl hk.valid.events
  obtain ⟨r4, h4, hR4⟩ := record_family hk .completion _ _ hR3 (by decide) (by decide)
    (·.id) validateJournalCompletion s.completions rfl hk.valid.completions
  obtain ⟨r5, h5, hR5⟩ := record_family hk .provenance _ _ hR4 (by decide) (by decide)
    (·.id) validateJournalProvenance s.provenance rfl hk.valid.provenance
  refine ⟨r5, ?_, hR5⟩
  unfold validateGenericEntries
  simp only [bind_eq_ok, exists_unit, refuse_eq_ok]
  refine ⟨?_, r1, h1, ?_, r2, h2, r3, h3, r4, h4, h5⟩
  · simpa [versionEvidence] using hs.matches_version 13 (by omega) (by omega)
  · simpa [versionEvidence] using hs.matches_version 12 (by omega) (by omega)

theorem validateHostingEntries_ok (hk : Kept d owner s) (hs : Settled s s.version) {ids : List String}
    (hRecorded : Recorded s genericFamilies ids) :
    ∃ r, validateHostingEntries d s ids = .ok r ∧ Recorded s (.hosting :: genericFamilies) r := by
  obtain ⟨r, hr, hR⟩ := record_family hk .hosting _ _ hRecorded (by decide) (by decide)
    (·.id) (validateHostingEntry d s.version) s.hosting rfl (validateHostingEntry_ok hs hk.valid)
  refine ⟨r, ?_, hR⟩
  unfold validateHostingEntries
  simp only [bind_eq_ok, exists_unit, refuse_eq_ok]
  exact ⟨hs.requires 2 (by omega), hs.marks 14 (by omega), hs.marks 15 (by omega), hs.marks 16 (by omega),
    hs.marks 17 (by omega), hr⟩

theorem validateProxyEntries_ok (hk : Kept d owner s) (hs : Settled s s.version) {ids : List String}
    (hRecorded : Recorded s (.hosting :: genericFamilies) ids) : validateProxyEntries d s ids = .ok () := by
  obtain ⟨r, hr, -⟩ := record_family hk .proxy _ _ hRecorded (by decide) (by decide)
    (·.id) (validateProxyEntry d s.version) s.proxy rfl (validateProxyEntry_ok hs hk.valid)
  unfold validateProxyEntries
  simp only [bind_eq_ok, exists_unit, refuse_eq_ok]
  exact ⟨hs.requires 4 (by omega), r, hr, hs.marks 9 (by omega), hs.marks 11 (by omega), hs.marks 10 (by omega)⟩

theorem validateJournalBuildEntries_ok (hs : Settled s s.version) (hc : Checked d s) :
    validateJournalBuildEntries d s = .ok () := by
  unfold validateJournalBuildEntries
  cases hEmpty : s.build.isEmpty with
  | true => rfl
  | false =>
    have hUses : uses s 5 = true := by simp [uses, hEmpty]
    have hVersion := hs.covers 5 (by omega) hUses
    have hBuilds : buildEvidenceConsistent d s = .ok () := by
      cases hc.builds with
      | inl h => rw [hEmpty] at h; cases h
      | inr h => exact h
    simp only [Bool.false_eq_true, if_false, bind_eq_ok, exists_unit, refuse_eq_ok]
    exact ⟨by simpa using hVersion, hBuilds⟩

theorem validateJournalBuildLogs_ok (hs : Settled s s.version) (hc : Checked d s) :
    validateJournalBuildLogs d s = .ok () := by
  unfold validateJournalBuildLogs
  cases hEmpty : s.buildLogs.isEmpty && s.buildLogCursors.isEmpty with
  | true => rfl
  | false =>
    have hUses : uses s 7 = true := by simp only [uses, hEmpty]; rfl
    have hVersion := hs.covers 7 (by omega) hUses
    have hLogs : buildLogsConsistent d s = .ok () := by
      cases hc.logs with
      | inl h => rw [hEmpty] at h; cases h
      | inr h => exact h
    simp only [Bool.false_eq_true, if_false, bind_eq_ok, exists_unit, refuse_eq_ok]
    exact ⟨by simpa using hVersion, hLogs⟩

theorem validateSettledState_ok (hk : Kept d owner s) (hs : Settled s s.version) (hc : Checked d s) :
    validateSettledState d s = .ok () := by
  obtain ⟨ids, hGeneric, hR1⟩ := validateGenericEntries_ok hk hs
  obtain ⟨ids', hHosting, hR2⟩ := validateHostingEntries_ok hk hs hR1
  have hRange : (decide (s.version < journalFormatVersion) || decide (20 < s.version)) = false := by
    rw [Bool.or_eq_false_iff, decide_eq_false_iff_not, decide_eq_false_iff_not]
    exact ⟨Nat.not_lt.mpr hs.pos, Nat.not_lt.mpr hs.le⟩
  unfold validateSettledState
  simp only [bind_eq_ok, exists_unit, refuse_eq_ok]
  exact ⟨validateBackupEvidence_ok hs hc, hc.application, hk.upgrades, hc.captures, hc.archives, hRange,
    by simpa using hk.count, ids, hGeneric, ids', hHosting, validateProxyEntries_ok hk hs hR2,
    validateJournalBuildEntries_ok hs hc, validateJournalBuildLogs_ok hs hc⟩

-- The versions with which a state is written: 22 and 21 belong to the two storage families.
structure VersionSuits (s : JournalState) : Prop where
  retentions : s.storageBackupRetentions ≠ [] → s.version = 22
  transfers : s.storageBackupRetentions = [] → s.storageBackupTransfers ≠ [] → s.version = 21
  settled : s.storageBackupRetentions = [] → s.storageBackupTransfers = [] → Settled s s.version

theorem storageRetentionStage_ok (hk : Kept d owner s) (hc : Checked d s) (hv : VersionSuits s) :
    ∃ t, storageRetentionStage d s = .ok t ∧ Kept d owner t ∧ Checked d t ∧
      (t.storageBackupTransfers ≠ [] → t.version = 21) ∧
      (t.storageBackupTransfers = [] → Settled t t.version) := by
  unfold storageRetentionStage
  by_cases hEmpty : s.storageBackupRetentions = []
  · simp only [hEmpty, List.isEmpty_nil, if_true]
    exact ⟨s, rfl, hk, hc, hv.transfers hEmpty, hv.settled hEmpty⟩
  · have hNonempty : s.storageBackupRetentions.isEmpty = false := by simpa using hEmpty
    have hVersion := hv.retentions hEmpty
    refine ⟨s.withoutStorageRetentions.withVersion (lowerVersion s 21), ?_,
      hk.withoutStorageRetentions.withVersion _, hc.withoutStorageRetentions.withVersion _, ?_, ?_⟩
    · simp only [hNonempty, Bool.false_eq_true, if_false, bind_eq_ok, exists_unit, refuse_eq_ok, pure_eq_ok]
      exact ⟨by simp [hVersion], hc.storageRetentions, by simpa using hk.count, trivial⟩
    · intro hTransfers
      have hLowered := lowerVersion_lowered s 21 (by omega)
      have hEvidence : versionEvidence s 21 = true := by
        simpa [versionEvidence] using hTransfers
      have hCovers := hLowered.covers 21 (by omega) (by omega) hEvidence
      rw [JournalState.withVersion_version]
      exact Nat.le_antisymm hLowered.le hCovers
    · intro hTransfers
      have hSettled := lowerVersion_settled s 21 (by omega) (by omega) (.inl hTransfers)
        (fun k hk _ => Nat.le_succ_of_le hk)
      rw [JournalState.withVersion_version]
      exact hSettled.withoutStorageRetentions.withVersion _

theorem storageTransferStage_ok (hk : Kept d owner s) (hc : Checked d s)
    (hTransfers : s.storageBackupTransfers ≠ [] → s.version = 21)
    (hSettled : s.storageBackupTransfers = [] → Settled s s.version) :
    ∃ t, storageTransferStage d s = .ok t ∧ Kept d owner t ∧ Checked d t ∧ Settled t t.version := by
  unfold storageTransferStage
  by_cases hEmpty : s.storageBackupTransfers = []
  · simp only [hEmpty, List.isEmpty_nil, if_true]
    exact ⟨s, rfl, hk, hc, hSettled hEmpty⟩
  · have hNonempty : s.storageBackupTransfers.isEmpty = false := by simpa using hEmpty
    have hVersion := hTransfers hEmpty
    refine ⟨s.withVersion (lowerVersion s 20), ?_, hk.withVersion _, hc.withVersion _, ?_⟩
    · simp only [hNonempty, Bool.false_eq_true, if_false, bind_eq_ok, exists_unit, refuse_eq_ok, pure_eq_ok]
      exact ⟨by simp [hVersion], hc.storageTransfers, trivial⟩
    · have hSettled20 := lowerVersion_settled s 20 (by omega) (by omega) (.inr (Nat.le_refl 20))
        (fun k hk _ => hk)
      rw [JournalState.withVersion_version]
      exact hSettled20.withVersion _

theorem validateJournalState_ok (hk : Kept d owner s) (hc : Checked d s) (hv : VersionSuits s) :
    validateJournalState d s = .ok () := by
  obtain ⟨t, hStage1, hk1, hc1, hTransfers, hSettled⟩ := storageRetentionStage_ok hk hc hv
  obtain ⟨u, hStage2, hk2, hc2, hSettled2⟩ := storageTransferStage_ok hk1 hc1 hTransfers hSettled
  unfold validateJournalState
  simp only [bind_eq_ok, exists_unit]
  exact ⟨hc.imports, t, hStage1, u, hStage2, validateSettledState_ok hk2 hSettled2 hc2⟩

def raisedVersion (s : JournalState) : Nat :=
  let v := if s.databaseBackupTransfers.isEmpty then s.version else 19
  let v := if journalUsesRetention s then 20 else v
  let v := if v == 22 then 21 else v
  if s.storageBackupTransfers.isEmpty then v else 21

def persistedVersion (s : JournalState) : Nat :=
  if s.storageBackupRetentions.isEmpty then lowerVersion s (raisedVersion s) else 22

theorem raisedVersion_bounds (h : Ready d owner s) :
    1 ≤ raisedVersion s ∧ raisedVersion s ≤ 21 ∧ ∀ k, k ≤ 20 → uses s k = true → k ≤ raisedVersion s := by
  have hPos := h.version_pos
  have hLe := h.version_le
  have hCovers : ∀ k, k ≤ 18 → uses s k = true → k ≤ min 18 s.version := by
    intro k hk hUses
    have := h.covers k hk hUses
    omega
  have hOther : ∀ k, k ≤ 20 → uses s k = true →
      k ≤ min 18 s.version ∨ (k = 19 ∧ s.databaseBackupTransfers.isEmpty = false) ∨
        (k = 20 ∧ journalUsesRetention s = true) := by
    intro k hk hUses
    by_cases hk18 : k ≤ 18
    · exact .inl (hCovers k hk18 hUses)
    · by_cases hk19 : k = 19
      · subst hk19
        exact .inr (.inl ⟨rfl, by simpa [uses, versionEvidence] using hUses⟩)
      · have hk20 : k = 20 := by omega
        subst hk20
        exact .inr (.inr ⟨rfl, hUses⟩)
  unfold raisedVersion
  refine ⟨?_, ?_, ?_⟩
  · grind
  · grind
  · intro k hk hUses
    have hCase := hOther k hk hUses
    grind

theorem persistedVersion_suits (h : Ready d owner s) : VersionSuits (s.withVersion (persistedVersion s)) := by
  obtain ⟨hPos, hLe, hCovers⟩ := raisedVersion_bounds h
  refine ⟨?_, ?_, ?_⟩
  · intro hRetentions
    rw [JournalState.withVersion_storageBackupRetentions] at hRetentions
    rw [JournalState.withVersion_version]
    simp [persistedVersion, hRetentions]
  · intro hRetentions hTransfers
    rw [JournalState.withVersion_storageBackupRetentions] at hRetentions
    rw [JournalState.withVersion_storageBackupTransfers] at hTransfers
    rw [JournalState.withVersion_version]
    have hRaised : raisedVersion s = 21 := by simp [raisedVersion, hTransfers]
    have hLowered := lowerVersion_lowered s 21 (by omega)
    have hEvidence : versionEvidence s 21 = true := by simpa [versionEvidence] using hTransfers
    have hCovers21 := hLowered.covers 21 (by omega) (by omega) hEvidence
    simp only [persistedVersion, hRetentions, List.isEmpty_nil, if_true, hRaised]
    exact Nat.le_antisymm hLowered.le hCovers21
  · intro hRetentions hTransfers
    rw [JournalState.withVersion_storageBackupRetentions] at hRetentions
    rw [JournalState.withVersion_storageBackupTransfers] at hTransfers
    rw [JournalState.withVersion_version]
    refine Settled.withVersion ?_ _
    simp only [persistedVersion, hRetentions, List.isEmpty_nil, if_true]
    exact lowerVersion_settled s (raisedVersion s) hLe hPos (.inl hTransfers) hCovers

theorem persistedVersion_bounds (h : Ready d owner s) :
    1 ≤ persistedVersion s ∧ persistedVersion s ≤ 22 ∧
      ∀ k, k ≤ 18 → uses s k = true → k ≤ persistedVersion s := by
  obtain ⟨hPos, hLe, hCovers⟩ := raisedVersion_bounds h
  unfold persistedVersion
  cases hEmpty : s.storageBackupRetentions.isEmpty with
  | false =>
    simp only [Bool.false_eq_true, if_false]
    exact ⟨by omega, by omega, fun k hk _ => by omega⟩
  | true =>
    simp only [if_true]
    have hLowered := lowerVersion_lowered s (raisedVersion s) hLe
    refine ⟨by have := hLowered.floor; omega, by have := hLowered.le; omega, ?_⟩
    intro k hk hUses
    have hkv := hCovers k (by omega) hUses
    by_cases h9 : 9 ≤ k
    · exact hLowered.covers k h9 hkv (uses_of_evidence s k h9 ▸ hUses)
    · have := hLowered.floor
      omega

theorem buildLogs_of_validate (v : Nat) (h : validateJournalBuildLogs d (s.withVersion v) = .ok ()) :
    (s.buildLogs.isEmpty && s.buildLogCursors.isEmpty) = true ∨ buildLogsConsistent d s = .ok () := by
  unfold validateJournalBuildLogs at h
  rw [JournalState.withVersion_buildLogs, JournalState.withVersion_buildLogCursors] at h
  cases hEmpty : s.buildLogs.isEmpty && s.buildLogCursors.isEmpty with
  | true => exact .inl rfl
  | false =>
    simp only [hEmpty, Bool.false_eq_true, if_false, bind_eq_ok, exists_unit] at h
    exact .inr h.2

theorem build_of_validate (v : Nat) (h : validateJournalBuildEntries d (s.withVersion v) = .ok ()) :
    s.build.isEmpty = true ∨ buildEvidenceConsistent d s = .ok () := by
  unfold validateJournalBuildEntries at h
  rw [JournalState.withVersion_build] at h
  cases hEmpty : s.build.isEmpty with
  | true => exact .inl rfl
  | false =>
    simp only [hEmpty, Bool.false_eq_true, if_false, bind_eq_ok, exists_unit] at h
    exact .inr h.2

theorem persistLocked_ok {j : AttemptJournal} (h : persistLocked d s = .ok j) :
    Checked d s ∧ j.state = s.withVersion (persistedVersion s) ∧
      j.file = some (importWire (stackWire j.state)) := by
  unfold persistLocked at h
  simp only [bind_eq_ok, exists_unit, pure_eq_ok] at h
  obtain ⟨hImports, hStorageTransfers, hTransfers, hBackups, hApplication, hCaptures, hArchives, hLogs,
    hBuilds, hRetentions, hStorageRetentions, -, rfl⟩ := h
  refine ⟨⟨hImports, hStorageTransfers, hTransfers, hBackups, hApplication, hCaptures, hArchives,
    buildLogs_of_validate _ hLogs, build_of_validate _ hBuilds, hRetentions, hStorageRetentions⟩, ?_, rfl⟩
  simp only [withVersion_withVersion, lowerVersion_withVersion, journalUsesRetention_withVersion,
    JournalState.withVersion_version, JournalState.withVersion_storageBackupTransfers,
    JournalState.withVersion_storageBackupRetentions]
  rfl

-- The wrappers come off again.

theorem unwrapStack_stackWire (hBase : s.stackBaseVersion = 0) (hLe : s.version ≤ 22)
    (hTwo : uses s 2 = true → 2 ≤ s.version) : unwrapStack (stackWire s) = .ok s := by
  unfold stackWire
  cases hStack : journalStateUsesStack s with
  | false =>
    have hVersion : (s.version == 23) = false := by
      rw [beq_eq_false_iff_ne]
      omega
    simp only [unwrapStack, hVersion, hBase, hStack, Bool.false_eq_true, if_false, bind_eq_ok, exists_unit,
      refuse_eq_ok, pure_eq_ok, bne_self_eq_false, Bool.or_self, and_self]
  | true =>
    have hUses : uses s 2 = true := by
      obtain ⟨e, he, -⟩ := List.any_eq_true.mp hStack
      simp only [uses, Bool.not_eq_true', List.isEmpty_eq_false_iff]
      exact List.ne_nil_of_mem he
    have hLow := hTwo hUses
    have hStack' : journalStateUsesStack { s with stackBaseVersion := s.version, version := 23 } = true :=
      hStack
    have hEta : { s with stackBaseVersion := 0 } = s := by rw [← hBase]
    simp only [unwrapStack, if_true, beq_self_eq_true, hStack', bind_eq_ok, exists_unit, refuse_eq_ok,
      pure_eq_ok, hEta, and_true]
    simp only [Bool.not_true, Bool.or_false, Bool.or_eq_false_iff, decide_eq_false_iff_not]
    omega

theorem stackWire_version (hPos : 1 ≤ s.version) (hLe : s.version ≤ 22) :
    1 ≤ (stackWire s).version ∧ (stackWire s).version ≤ 23 := by
  unfold stackWire
  split
  · exact ⟨by simp, by simp⟩
  · exact ⟨hPos, by omega⟩

theorem stackWire_imports : (stackWire s).databaseImports = s.databaseImports ∧
    (stackWire s).externalImportBaseVersion = s.externalImportBaseVersion := by
  unfold stackWire
  split <;> exact ⟨rfl, rfl⟩

theorem unwrapImports_importWire (hBase : s.externalImportBaseVersion = 0) (hPos : 1 ≤ s.version)
    (hLe : s.version ≤ 23) : unwrapImports (importWire s) = .ok s := by
  unfold importWire
  cases hEmpty : s.databaseImports.isEmpty with
  | true =>
    have hVersion : (s.version == 24) = false := by
      rw [beq_eq_false_iff_ne]
      omega
    simp only [unwrapImports, hVersion, hBase, hEmpty, Bool.false_eq_true, if_true, if_false, bind_eq_ok,
      exists_unit, refuse_eq_ok, pure_eq_ok, bne_self_eq_false, Bool.not_true, Bool.or_self, and_self]
  | false =>
    have hEta : { s with externalImportBaseVersion := 0 } = s := by rw [← hBase]
    simp only [unwrapImports, Bool.false_eq_true, if_false, if_true, beq_self_eq_true, bind_eq_ok,
      exists_unit, refuse_eq_ok, pure_eq_ok, hEta, hEmpty, and_true]
    simp only [Bool.false_or, Bool.or_eq_false_iff, decide_eq_false_iff_not]
    exact ⟨Nat.not_lt.mpr hPos, Nat.not_lt.mpr hLe⟩

theorem persistLocked_reopens (h : Ready d owner s) {j : AttemptJournal} (hPersist : persistLocked d s = .ok j) :
    Ready d owner j.state ∧ openAttemptJournal d j.file = .ok j := by
  obtain ⟨hChecked, hState, hFile⟩ := persistLocked_ok hPersist
  obtain ⟨hPos, hLe, hCovers⟩ := persistedVersion_bounds h
  have hKept : Kept d owner j.state := hState ▸ h.toKept.withVersion _
  have hReady : Ready d owner j.state := by
    rw [hState]
    exact { h.toKept.withVersion _ with
      version_pos := hPos
      version_le := hLe
      stackBase := h.stackBase
      importBase := h.importBase
      covers := by simpa using hCovers }
  have hValid : validateJournalState d j.state = .ok () := by
    refine validateJournalState_ok hKept (hState ▸ hChecked.withVersion _) ?_
    rw [hState]
    exact persistedVersion_suits h
  have hStack := unwrapStack_stackWire hReady.stackBase hReady.version_le (hReady.covers 2 (by omega))
  obtain ⟨hWirePos, hWireLe⟩ := stackWire_version hReady.version_pos hReady.version_le
  obtain ⟨-, hWireBase⟩ := stackWire_imports (s := j.state)
  have hImports := unwrapImports_importWire (hWireBase.trans hReady.importBase) hWirePos hWireLe
  refine ⟨hReady, ?_⟩
  rw [hFile]
  simp only [openAttemptJournal, bind_eq_ok, exists_unit, pure_eq_ok]
  refine ⟨_, hImports, _, hStack, hValid, ?_⟩
  rw [← hFile]

end

end NeroCD.Journal
