import NeroCD.Journal.Reopen

-- Every operation leaves a state ready to be written: removals shrink the lists, appends extend one.

namespace NeroCD.Journal

open NeroCD.Checks

section

variable {d : Documents} {owner : String → Family} {s t : JournalState}

-- The upgrade chain says that entries of one authority carry one proof, so it survives removals.
theorem validateUpgradeLoop_ok (proofs : List (HostingAuthority × String)) (l : List JournalHosting) :
    validateUpgradeLoop d proofs l = .ok () ↔
      (∀ e ∈ l, ∀ hash, proofs.lookup e.authority = some hash → hash = upgradeHash d e) ∧
        l.Pairwise fun a b => a.authority = b.authority → upgradeHash d a = upgradeHash d b := by
  induction l generalizing proofs with
  | nil => simp [validateUpgradeLoop]
  | cons e rest ih =>
    have hHead : ((proofs.lookup e.authority).any (· != upgradeHash d e)) = false ↔
        ∀ hash, proofs.lookup e.authority = some hash → hash = upgradeHash d e := by
      cases proofs.lookup e.authority <;> simp
    simp only [validateUpgradeLoop, bind_eq_ok, exists_unit, refuse_eq_ok, hHead, ih, List.forall_mem_cons,
      List.pairwise_cons, List.lookup_cons]
    refine ⟨?_, ?_⟩
    · intro h
      obtain ⟨hFirst, hRest, hPairs⟩ := h
      have hSame : ∀ x ∈ rest, e.authority = x.authority → upgradeHash d e = upgradeHash d x := by
        intro x hx hEq
        exact hRest x hx _ (by simp [hEq])
      refine ⟨⟨hFirst, ?_⟩, hSame, hPairs⟩
      intro x hx hash hLookup
      by_cases hEq : x.authority = e.authority
      · rw [hFirst hash (hEq ▸ hLookup)]
        exact hSame x hx hEq.symm
      · have hne : (x.authority == e.authority) = false := by simpa using hEq
        exact hRest x hx hash (by simp [hne, hLookup])
    · intro h
      obtain ⟨⟨hFirst, hRest⟩, hSame, hPairs⟩ := h
      refine ⟨hFirst, ?_, hPairs⟩
      intro x hx hash hLookup
      by_cases hEq : x.authority = e.authority
      · have hHash : upgradeHash d e = hash := by simpa [hEq] using hLookup
        exact hHash ▸ hSame x hx hEq.symm
      · have hne : (x.authority == e.authority) = false := by simpa using hEq
        exact hRest x hx hash (by simpa [hne] using hLookup)

theorem upgradeChain_sublist {l l' : List JournalHosting} (hSub : l'.Sublist l)
    (h : validateDatabaseUpgradeJournalChain d l = .ok ()) :
    validateDatabaseUpgradeJournalChain d l' = .ok () := by
  unfold validateDatabaseUpgradeJournalChain at h ⊢
  rw [validateUpgradeLoop_ok] at h ⊢
  exact ⟨by simp, h.2.sublist hSub⟩

-- Removals.

structure Shrinks (s t : JournalState) : Prop where
  imports : t.databaseImports.Sublist s.databaseImports
  storageRetentions : t.storageBackupRetentions.Sublist s.storageBackupRetentions
  databaseRetentions : t.databaseBackupRetentions.Sublist s.databaseBackupRetentions
  storageTransfers : t.storageBackupTransfers.Sublist s.storageBackupTransfers
  databaseTransfers : t.databaseBackupTransfers.Sublist s.databaseBackupTransfers
  backups : t.databaseBackup.Sublist s.databaseBackup
  captures : t.databaseNetworkCapture.Sublist s.databaseNetworkCapture
  archives : t.storageArchive.Sublist s.storageArchive
  logs : t.buildLogs.Sublist s.buildLogs
  cursors : t.buildLogCursors.Sublist s.buildLogCursors
  builds : t.build.Sublist s.build
  proxy : t.proxy.Sublist s.proxy
  hosting : t.hosting.Sublist s.hosting
  events : t.events.Sublist s.events
  completions : t.completions.Sublist s.completions
  provenance : t.provenance.Sublist s.provenance
  version : t.version = s.version
  stackBase : t.stackBaseVersion = s.stackBaseVersion
  importBase : t.externalImportBaseVersion = s.externalImportBaseVersion

variable {α : Type} {l : List α} {family : Entries α} {valid : α → Except String Unit} {same : α → α → Bool}
  {raise : Nat → Nat} {entry : α}

theorem any_of_sublist {l' : List α} (p : α → Bool) (hSub : l'.Sublist l) (h : l'.any p = true) : l.any p = true := by
  obtain ⟨e, he, hp⟩ := List.any_eq_true.mp h
  exact List.any_eq_true.mpr ⟨e, hSub.subset he, hp⟩

theorem nonempty_of_sublist {l' : List α} (hSub : l'.Sublist l) (h : (!l'.isEmpty) = true) : (!l.isEmpty) = true := by
  simp only [Bool.not_eq_true', List.isEmpty_eq_false_iff] at h ⊢
  intro hNil
  exact h (List.sublist_nil.mp (hNil ▸ hSub))

theorem Shrinks.uses (h : Shrinks s t) (k : Nat) (hk : k ≤ 18) (hUses : uses t k = true) :
    Journal.uses s k = true := by
  unfold Journal.uses at hUses ⊢
  split at hUses
  · exact nonempty_of_sublist h.hosting hUses
  · exact any_of_sublist _ h.hosting hUses
  · exact nonempty_of_sublist h.proxy hUses
  · exact nonempty_of_sublist h.builds hUses
  · exact any_of_sublist _ h.hosting hUses
  · simp only [Bool.not_and, Bool.or_eq_true] at hUses ⊢
    exact hUses.imp (nonempty_of_sublist h.logs) (nonempty_of_sublist h.cursors)
  · exact any_of_sublist _ h.hosting hUses
  · unfold versionEvidence at hUses ⊢
    split at hUses
    · exact any_of_sublist _ h.proxy hUses
    · exact any_of_sublist _ h.hosting hUses
    · exact any_of_sublist _ h.hosting hUses
    · exact nonempty_of_sublist h.archives hUses
    · exact nonempty_of_sublist h.captures hUses
    · exact any_of_sublist _ h.hosting hUses
    · exact any_of_sublist _ h.hosting hUses
    · exact any_of_sublist _ h.hosting hUses
    · exact any_of_sublist _ h.hosting hUses
    · exact nonempty_of_sublist h.backups hUses
    · omega
    · omega
    · omega
    · cases hUses

theorem Shrinks.ids (h : Shrinks s t) (f : Family) : (idsOf t f).Sublist (idsOf s f) := by
  cases f with
  | databaseImport => exact h.imports.map _
  | storageRetention => exact h.storageRetentions.map _
  | databaseRetention => exact h.databaseRetentions.map _
  | storageTransfer => exact h.storageTransfers.map _
  | databaseTransfer => exact h.databaseTransfers.map _
  | databaseBackup => exact h.backups.map _
  | capture => exact h.captures.map _
  | archive => exact h.archives.map _
  | buildLog => exact h.logs.map _
  | build => exact h.builds.map _
  | proxy => exact h.proxy.map _
  | hosting => exact h.hosting.map _
  | event => exact h.events.map _
  | completion => exact h.completions.map _
  | provenance => exact h.provenance.map _

theorem Shrinks.entryCount (h : Shrinks s t) : entryCount t ≤ Journal.entryCount s := by
  have := h.imports.length_le
  have := h.storageRetentions.length_le
  have := h.databaseRetentions.length_le
  have := h.storageTransfers.length_le
  have := h.databaseTransfers.length_le
  have := h.backups.length_le
  have := h.captures.length_le
  have := h.archives.length_le
  have := h.logs.length_le
  have := h.cursors.length_le
  have := h.builds.length_le
  have := h.proxy.length_le
  have := h.hosting.length_le
  have := h.events.length_le
  have := h.completions.length_le
  have := h.provenance.length_le
  unfold Journal.entryCount
  omega

theorem Ready.shrink (h : Ready d owner s) (hShrinks : Shrinks s t) : Ready d owner t where
  valid := {
    archives := fun e he => h.valid.archives e (hShrinks.archives.subset he)
    events := fun e he => h.valid.events e (hShrinks.events.subset he)
    completions := fun e he => h.valid.completions e (hShrinks.completions.subset he)
    provenance := fun e he => h.valid.provenance e (hShrinks.provenance.subset he)
    hosting := fun e he => h.valid.hosting e (hShrinks.hosting.subset he)
    proxy := fun e he => h.valid.proxy e (hShrinks.proxy.subset he) }
  upgrades := upgradeChain_sublist hShrinks.hosting h.upgrades
  count := Nat.le_trans hShrinks.entryCount h.count
  nodup f hf := (h.nodup f hf).sublist (hShrinks.ids f)
  owned f x hx := h.owned f x ((hShrinks.ids f).subset hx)
  version_pos := hShrinks.version ▸ h.version_pos
  version_le := hShrinks.version ▸ h.version_le
  stackBase := hShrinks.stackBase.trans h.stackBase
  importBase := hShrinks.importBase.trans h.importBase
  covers k hk hUses := hShrinks.version ▸ h.covers k hk (hShrinks.uses k hk hUses)

-- Appends.

theorem Ready.extend (h : Ready d owner s) (f : Family) (x : String) (hOwner : owner x = f)
    (hNew : f ∈ sharedFamilies → x ∉ idsOf s f) (hIDs : ∀ g, idsOf t g = if g = f then idsOf s g ++ [x] else idsOf s g)
    (hValid : EntriesValid d t) (hUpgrades : validateDatabaseUpgradeJournalChain d t.hosting = .ok ())
    (hCount : entryCount t ≤ journalMaxEntries) (hStack : t.stackBaseVersion = s.stackBaseVersion)
    (hImport : t.externalImportBaseVersion = s.externalImportBaseVersion) (hLow : min 18 s.version ≤ t.version)
    (hHigh : t.version ≤ 22) (hUses : ∀ k, k ≤ 18 → uses t k = true → uses s k = true ∨ k ≤ t.version) :
    Ready d owner t where
  valid := hValid
  upgrades := hUpgrades
  count := hCount
  nodup g hg := by
    rw [hIDs g]
    split
    · rename_i hEq
      subst hEq
      refine List.nodup_append.mpr ⟨h.nodup g hg, List.nodup_singleton x, ?_⟩
      intro a ha b hb hEq
      rw [List.mem_singleton] at hb
      exact hNew hg (hb ▸ hEq ▸ ha)
    · exact h.nodup g hg
  owned g y hy := by
    rw [hIDs g] at hy
    split at hy
    · rename_i hEq
      subst hEq
      cases List.mem_append.mp hy with
      | inl hOld => exact h.owned g y hOld
      | inr hLast => exact (List.mem_singleton.mp hLast) ▸ hOwner
    · exact h.owned g y hy
  version_pos := by
    have := h.version_pos
    omega
  version_le := hHigh
  stackBase := hStack.trans h.stackBase
  importBase := hImport.trans h.importBase
  covers k hk hUsesK := by
    cases hUses k hk hUsesK with
    | inl hOld =>
      have := h.covers k hk hOld
      omega
    | inr hNow => exact hNow

def appendedState {α : Type} (family : Entries α) (raise : Nat → Nat) (entry : α) (s : JournalState) :
    JournalState :=
  (family.set (family.get s ++ [entry]) s).withVersion (raise s.version)

theorem append_some {precheck : JournalState → JournalState → Except String Unit} {t : JournalState}
    (h : append family valid same raise precheck entry s = .ok (some t)) :
    valid entry = .ok () ∧ family.id entry ∉ (family.get s).map family.id ∧ precheck s t = .ok () ∧
      t = appendedState family raise entry s := by
  unfold append at h
  simp only [bind_eq_ok, exists_unit] at h
  obtain ⟨hValid, h⟩ := h
  split at h
  · split at h <;> cases h
  · rename_i hNone
    simp only [bind_eq_ok, exists_unit, pure_eq_ok, Option.some.injEq] at h
    obtain ⟨hPrecheck, rfl⟩ := h
    refine ⟨hValid, ?_, hPrecheck, rfl⟩
    intro hMem
    obtain ⟨old, hOld, hID⟩ := List.mem_map.mp hMem
    have hNot := List.find?_eq_none.mp hNone old hOld
    exact hNot (beq_iff_eq.mpr hID)

theorem appendBuildLog_ok {at_ : AttemptIdentity} {buildID component stream message id : String} {now : Int}
    {target : Option JournalState} (h : appendBuildLog d at_ buildID component stream message id now s = .ok target) :
    ∃ batch cursors,
      let t : JournalState := { s with
        buildLogs := s.buildLogs ++ [{ id := id, attempt := at_, batch := batch, createdAt := now }]
        buildLogCursors := cursors
        version := raiseTo 7 true s.version }
      validateJournalState d t = .ok () ∧ target = some t := by
  unfold appendBuildLog at h
  simp only [bind_eq_ok, exists_unit, pure_eq_ok] at h
  obtain ⟨-, batch, -, hValid, ht⟩ := h
  exact ⟨batch, _, hValid, ht.symm⟩

theorem commit_ok {update : Update} {j j' : AttemptJournal} (h : commit d update j = .ok j') :
    (update j.state = .ok none ∧ j' = j) ∨ ∃ t, update j.state = .ok (some t) ∧ persistLocked d t = .ok j' := by
  unfold commit at h
  rw [bind_eq_ok] at h
  obtain ⟨target, hTarget, hSettle⟩ := h
  cases target with
  | none => exact .inl ⟨hTarget, (Except.ok.inj hSettle).symm⟩
  | some t => exact .inr ⟨t, hTarget, hSettle⟩

theorem entryLimit_ok (h : entryLimit s = .ok ()) : entryCount s < journalMaxEntries := by
  simpa [entryLimit] using h

def Sound (d : Documents) (owner : String → Family) (j : AttemptJournal) : Prop :=
  Ready d owner j.state ∧ openAttemptJournal d j.file = .ok j

theorem append_sound {precheck : JournalState → JournalState → Except String Unit} {j j' : AttemptJournal}
    (hSound : Sound d owner j) (h : commit d (append family valid same raise precheck entry) j = .ok j')
    (hOwner : owner (family.id entry) = family.family)
    (hCount : precheck j.state (appendedState family raise entry j.state) = .ok () →
      entryCount (appendedState family raise entry j.state) ≤ journalMaxEntries)
    (hValid : valid entry = .ok () → EntriesValid d j.state →
      EntriesValid d (appendedState family raise entry j.state))
    (hUpgrades : precheck j.state (appendedState family raise entry j.state) = .ok () →
      validateDatabaseUpgradeJournalChain d j.state.hosting = .ok () →
      validateDatabaseUpgradeJournalChain d (appendedState family raise entry j.state).hosting = .ok ())
    (hRaise : ∀ v, min 18 v ≤ raise v ∧ (v ≤ 22 → raise v ≤ 22))
    (hUses : ∀ k, k ≤ 18 → uses (appendedState family raise entry j.state) k = true →
      uses j.state k = true ∨ k ≤ raise j.state.version) : Sound d owner j' := by
  cases commit_ok h with
  | inl hSame => exact hSame.2 ▸ hSound
  | inr hNew =>
    obtain ⟨t, hUpdate, hPersist⟩ := hNew
    obtain ⟨hEntry, hID, hPrecheck, rfl⟩ := append_some hUpdate
    have hReady := hSound.1
    refine persistLocked_reopens ?_ hPersist
    refine hReady.extend family.family (family.id entry) hOwner (fun _ => family.ids_get _ ▸ hID) ?_
      (hValid hEntry hReady.valid) (hUpgrades hPrecheck hReady.upgrades) (hCount hPrecheck)
      (family.stackBase _ _ _) (family.importBase _ _ _) (hRaise _).1 ((hRaise _).2 hReady.version_le) hUses
    intro g
    unfold appendedState
    split
    · rename_i hEq
      subst hEq
      rw [family.ids_get, family.ids_get, family.get_set, List.map_append, List.map_singleton]
    · rename_i hne
      exact family.ids_other _ _ _ g hne

theorem limited_count (h : entryLimit s = .ok ()) :
    entryCount (appendedState family raise entry s) ≤ journalMaxEntries := by
  have hRoom := entryLimit_ok h
  unfold appendedState
  rw [family.count]
  omega

theorem validateJournalState_count (h : validateJournalState d s = .ok ()) : entryCount s ≤ journalMaxEntries := by
  unfold validateJournalState at h
  simp only [bind_eq_ok, exists_unit] at h
  obtain ⟨-, t, hStage1, u, hStage2, hSettled⟩ := h
  unfold storageRetentionStage at hStage1
  split at hStage1
  · have hst : s = t := Except.ok.inj hStage1
    have hCount : entryCount u ≤ journalMaxEntries := by
      unfold validateSettledState at hSettled
      simp only [bind_eq_ok, exists_unit, refuse_eq_ok] at hSettled
      simpa using hSettled.2.2.2.2.2.2.1
    unfold storageTransferStage at hStage2
    split at hStage2
    · rw [hst, Except.ok.inj hStage2]
      exact hCount
    · simp only [bind_eq_ok, exists_unit, pure_eq_ok] at hStage2
      rw [hst]
      rw [← hStage2.2.2, entryCount_withVersion] at hCount
      exact hCount
  · simp only [bind_eq_ok, exists_unit, refuse_eq_ok] at hStage1
    simpa using hStage1.2.2.1

theorem forall_mem_concat {p : α → Prop} {e : α} (hl : ∀ x ∈ l, p x) (he : p e) : ∀ x ∈ l ++ [e], p x := by
  simpa [or_imp, forall_and] using ⟨hl, he⟩

theorem raiseTo_bounds (k : Nat) (hk : k ≤ 22) (c : Bool) (v : Nat) :
    v ≤ raiseTo k c v ∧ (v ≤ 22 → raiseTo k c v ≤ 22) ∧ (c = true → k ≤ raiseTo k c v) := by
  unfold raiseTo
  cases c with
  | false => simp
  | true =>
    simp only [Bool.true_and, decide_eq_true_eq, forall_const]
    split <;> omega

variable {j j' : AttemptJournal}

theorem uses_of_same (k : Nat) (hk : k ≤ 18) (hHosting : t.hosting = s.hosting)
    (hProxy : k = 4 ∨ k = 9 → t.proxy = s.proxy) (hBuild : k = 5 → t.build = s.build)
    (hLogs : k = 7 → t.buildLogs = s.buildLogs ∧ t.buildLogCursors = s.buildLogCursors)
    (hArchives : k = 12 → t.storageArchive = s.storageArchive)
    (hCaptures : k = 13 → t.databaseNetworkCapture = s.databaseNetworkCapture)
    (hBackups : k = 18 → t.databaseBackup = s.databaseBackup) : uses t k = uses s k := by
  unfold uses
  split
  · rw [hHosting]
  · rw [hHosting]
  · rw [hProxy (.inl rfl)]
  · rw [hBuild rfl]
  · rw [hHosting]
  · rw [(hLogs rfl).1, (hLogs rfl).2]
  · rw [hHosting]
  · unfold versionEvidence
    split
    · rw [hProxy (.inr rfl)]
    · exact congrArg (·.any hostingJournalUsesStorage) hHosting
    · exact congrArg (·.any hostingJournalUsesDatabase) hHosting
    · rw [hArchives rfl]
    · rw [hCaptures rfl]
    · exact congrArg (·.any fun e => e.databaseUpgrade.isSome) hHosting
    · exact congrArg (·.any hostingJournalUsesConnection) hHosting
    · exact congrArg (·.any hostingJournalUsesRouteContinuity) hHosting
    · exact congrArg (·.any fun e => e.applicationStorage.isSome) hHosting
    · rw [hBackups rfl]
    all_goals first | omega | rfl

theorem uses_of_other (k : Nat) (hk : k ≤ 18) (hHosting : t.hosting = s.hosting) (hProxy : t.proxy = s.proxy)
    (hBuild : t.build = s.build) (hLogs : t.buildLogs = s.buildLogs)
    (hCursors : t.buildLogCursors = s.buildLogCursors) (hArchives : t.storageArchive = s.storageArchive)
    (hCaptures : t.databaseNetworkCapture = s.databaseNetworkCapture)
    (hBackups : t.databaseBackup = s.databaseBackup) (hUses : uses t k = true) : uses s k = true :=
  (uses_of_same k hk hHosting (fun _ => hProxy) (fun _ => hBuild) (fun _ => ⟨hLogs, hCursors⟩)
    (fun _ => hArchives) (fun _ => hCaptures) (fun _ => hBackups)).symm.trans hUses

theorem fixed_bounds (w : Nat) (hLow : 18 ≤ w) (hHigh : w ≤ 22) (v : Nat) :
    min 18 v ≤ w ∧ (v ≤ 22 → w ≤ 22) := by
  omega

theorem raiseAll_bounds (requirements : List (Nat × Bool)) (hHigh : ∀ r ∈ requirements, r.1 ≤ 22) (v : Nat) :
    v ≤ requirements.foldl (fun v r => raiseTo r.1 r.2 v) v ∧
      (v ≤ 22 → requirements.foldl (fun v r => raiseTo r.1 r.2 v) v ≤ 22) ∧
      ∀ r ∈ requirements, r.2 = true → r.1 ≤ requirements.foldl (fun v r => raiseTo r.1 r.2 v) v := by
  induction requirements generalizing v with
  | nil => simp
  | cons r _ ih =>
    obtain ⟨hUp, hCap, hReached⟩ := raiseTo_bounds r.1 (hHigh r List.mem_cons_self) r.2 v
    obtain ⟨hUpRest, hCapRest, hRest⟩ := ih (fun x hx => hHigh x (List.mem_cons_of_mem _ hx))
      (raiseTo r.1 r.2 v)
    rw [List.foldl_cons]
    refine ⟨Nat.le_trans hUp hUpRest, fun hv => hCapRest (hCap hv), ?_⟩
    intro x hx hNeeded
    cases List.mem_cons.mp hx with
    | inl hEq =>
      subst hEq
      exact Nat.le_trans (hReached hNeeded) hUpRest
    | inr hMem => exact hRest x hMem hNeeded

theorem hostingVersion_bounds (e : JournalHosting) (v : Nat) :
    v ≤ hostingVersion e v ∧ (v ≤ 22 → hostingVersion e v ≤ 22) ∧
      ∀ r ∈ hostingRequirements e, r.2 = true → r.1 ≤ hostingVersion e v := by
  refine raiseAll_bounds (hostingRequirements e) ?_ v
  simp [hostingRequirements]

theorem uses_hosting_append (e : JournalHosting) (raise : Nat → Nat) (k : Nat)
    (hUses : uses (appendedState hostingEntries raise e s) k = true) :
    uses s k = true ∨ ∃ r ∈ hostingRequirements e, r.1 = k ∧ r.2 = true := by
  have hAny : ∀ (p : JournalHosting → Bool) (n : Nat), (n, p e) ∈ hostingRequirements e →
      (s.hosting ++ [e]).any p = true →
      s.hosting.any p = true ∨ ∃ r ∈ hostingRequirements e, r.1 = n ∧ r.2 = true := by
    intro p n hMem h
    rw [List.any_append, Bool.or_eq_true] at h
    refine h.imp id ?_
    intro hOwn
    exact ⟨(n, p e), hMem, rfl, by simpa using hOwn⟩
  unfold uses at hUses ⊢
  split at hUses
  · exact .inr ⟨(2, true), by simp [hostingRequirements], rfl, rfl⟩
  · exact hAny hostingJournalNeedsV3 3 (by simp [hostingRequirements]) hUses
  · exact .inl hUses
  · exact .inl hUses
  · exact hAny hostingJournalUsesLocalBuild 6 (by simp [hostingRequirements]) hUses
  · exact .inl hUses
  · exact hAny hostingJournalUsesRuntimeEnvironment 8 (by simp [hostingRequirements]) hUses
  · unfold versionEvidence at hUses ⊢
    split at hUses
    · exact .inl hUses
    · exact hAny hostingJournalUsesStorage 10 (by simp [hostingRequirements]) hUses
    · exact hAny hostingJournalUsesDatabase 11 (by simp [hostingRequirements]) hUses
    · exact .inl hUses
    · exact .inl hUses
    · exact hAny (·.databaseUpgrade.isSome) 14 (by simp [hostingRequirements]) hUses
    · exact hAny hostingJournalUsesConnection 15 (by simp [hostingRequirements]) hUses
    · exact hAny hostingJournalUsesRouteContinuity 16 (by simp [hostingRequirements]) hUses
    · exact hAny (·.applicationStorage.isSome) 17 (by simp [hostingRequirements]) hUses
    all_goals exact .inl hUses

theorem limitedAndValid_count (h : limitedAndValid d s t = .ok ()) :
    entryCount (appendedState family raise entry s) ≤ journalMaxEntries := by
  simp only [limitedAndValid, bind_eq_ok, exists_unit] at h
  exact limited_count h.1

-- The generic families and the imports leave the version as it is.

theorem append_plain_sound (hSound : Sound d owner j)
    (h : commit d (append family valid same id limited entry) j = .ok j')
    (hOwner : owner (family.id entry) = family.family)
    (hValid : valid entry = .ok () → EntriesValid d j.state → EntriesValid d (appendedState family id entry j.state))
    (hHosting : (appendedState family id entry j.state).hosting = j.state.hosting)
    (hUses : ∀ k, k ≤ 18 → uses (appendedState family id entry j.state) k = true → uses j.state k = true) :
    Sound d owner j' :=
  append_sound hSound h hOwner limited_count hValid (fun _ hChain => hHosting.symm ▸ hChain)
    (fun v => ⟨Nat.min_le_right 18 v, fun hv => hv⟩) (fun k hk hUsed => .inl (hUses k hk hUsed))

theorem appendEvent_sound (hSound : Sound d owner j) (e : JournalEvent) (hOwner : owner e.id = .event)
    (h : commit d (appendEvent e) j = .ok j') : Sound d owner j' :=
  append_plain_sound hSound h hOwner
    (fun hEntry hOld => { hOld with events := forall_mem_concat hOld.events hEntry }) rfl
    (fun k hk => uses_of_other k hk rfl rfl rfl rfl rfl rfl rfl rfl)

theorem appendCompletion_sound (hSound : Sound d owner j) (e : JournalCompletion)
    (hOwner : owner e.id = .completion) (h : commit d (appendCompletion e) j = .ok j') : Sound d owner j' :=
  append_plain_sound hSound h hOwner
    (fun hEntry hOld => { hOld with completions := forall_mem_concat hOld.completions hEntry }) rfl
    (fun k hk => uses_of_other k hk rfl rfl rfl rfl rfl rfl rfl rfl)

theorem appendProvenance_sound (hSound : Sound d owner j) (e : JournalProvenance)
    (hOwner : owner e.id = .provenance) (h : commit d (appendProvenance e) j = .ok j') : Sound d owner j' :=
  append_plain_sound hSound h hOwner
    (fun hEntry hOld => { hOld with provenance := forall_mem_concat hOld.provenance hEntry }) rfl
    (fun k hk => uses_of_other k hk rfl rfl rfl rfl rfl rfl rfl rfl)

theorem appendDatabaseImport_sound (hSound : Sound d owner j) (e : JournalDatabaseImport)
    (hOwner : owner e.id = .databaseImport) (h : commit d (appendDatabaseImport d e) j = .ok j') : Sound d owner j' :=
  append_plain_sound hSound h hOwner (fun _ hOld => { hOld with }) rfl
    (fun k hk => uses_of_other k hk rfl rfl rfl rfl rfl rfl rfl rfl)

-- The backup families set the version outright.

theorem append_fixed_sound (w : Nat) (hLow : 18 ≤ w) (hHigh : w ≤ 22) (hSound : Sound d owner j)
    (h : commit d (append family valid same (fun _ => w) limited entry) j = .ok j')
    (hOwner : owner (family.id entry) = family.family)
    (hValid : EntriesValid d j.state → EntriesValid d (appendedState family (fun _ => w) entry j.state))
    (hHosting : (appendedState family (fun _ => w) entry j.state).hosting = j.state.hosting) : Sound d owner j' :=
  append_sound hSound h hOwner limited_count (fun _ => hValid) (fun _ hChain => hHosting.symm ▸ hChain)
    (fixed_bounds w hLow hHigh) (fun _ hk _ => .inr (Nat.le_trans hk hLow))

theorem appendDatabaseBackup_sound (hSound : Sound d owner j) (e : JournalDatabaseBackup)
    (hOwner : owner e.id = .databaseBackup) (h : commit d (appendDatabaseBackup d e) j = .ok j') : Sound d owner j' :=
  append_fixed_sound 18 (by omega) (by omega) hSound h hOwner (fun hOld => { hOld with }) rfl

theorem appendDatabaseBackupTransfer_sound (hSound : Sound d owner j) (e : JournalDatabaseBackupTransfer)
    (hOwner : owner e.id = .databaseTransfer) (h : commit d (appendDatabaseBackupTransfer d e) j = .ok j') :
    Sound d owner j' :=
  append_fixed_sound 19 (by omega) (by omega) hSound h hOwner (fun hOld => { hOld with }) rfl

theorem appendDatabaseBackupRetention_sound (hSound : Sound d owner j) (e : JournalBackupRetention)
    (hOwner : owner e.id = .databaseRetention) (h : commit d (appendDatabaseBackupRetention d e) j = .ok j') :
    Sound d owner j' :=
  append_fixed_sound 20 (by omega) (by omega) hSound h hOwner (fun hOld => { hOld with }) rfl

theorem appendStorageBackupTransfer_sound (hSound : Sound d owner j) (e : JournalStorageBackupTransfer)
    (hOwner : owner e.id = .storageTransfer) (h : commit d (appendStorageBackupTransfer d e) j = .ok j') :
    Sound d owner j' :=
  append_fixed_sound 19 (by omega) (by omega) hSound h hOwner (fun hOld => { hOld with }) rfl

theorem appendStorageBackupRetention_sound (hSound : Sound d owner j) (e : JournalBackupRetention)
    (hOwner : owner e.id = .storageRetention) (h : commit d (appendStorageBackupRetention d e) j = .ok j') :
    Sound d owner j' :=
  append_fixed_sound 22 (by omega) (by omega) hSound h hOwner (fun hOld => { hOld with }) rfl

theorem raiseTo_min (k : Nat) (hk : k ≤ 22) (c : Bool) (v : Nat) :
    min 18 v ≤ raiseTo k c v ∧ (v ≤ 22 → raiseTo k c v ≤ 22) := by
  have hBounds := raiseTo_bounds k hk c v
  omega

-- An append that raises the version to the one its own family needs leaves the other requirements as they were.
theorem uses_raised {k n : Nat} (hn : n ≤ 22) (hSame : k ≠ n → uses t k = uses s k) (hUses : uses t k = true) :
    uses s k = true ∨ k ≤ raiseTo n true s.version := by
  by_cases hOwn : k = n
  · exact .inr (hOwn ▸ (raiseTo_bounds n hn true _).2.2 rfl)
  · exact .inl ((hSame hOwn).symm.trans hUses)

theorem appendStorageArchive_sound (hSound : Sound d owner j) (e : JournalStorageArchive)
    (hOwner : owner e.id = .archive) (h : commit d (appendStorageArchive d e) j = .ok j') : Sound d owner j' := by
  refine append_sound hSound h hOwner limitedAndValid_count ?_ (fun _ hChain => hChain)
    (raiseTo_min 12 (by omega) true) ?_
  · intro hEntry hOld
    exact { hOld with archives := forall_mem_concat hOld.archives hEntry }
  · intro k hk
    refine uses_raised (by omega) fun hOther => ?_
    exact uses_of_same k hk rfl (fun _ => rfl) (fun _ => rfl) (fun _ => ⟨rfl, rfl⟩)
      (fun hEq => absurd hEq hOther) (fun _ => rfl) (fun _ => rfl)

theorem appendDatabaseNetworkCapture_sound (hSound : Sound d owner j) (e : JournalDatabaseNetworkCapture)
    (hOwner : owner e.id = .capture) (h : commit d (appendDatabaseNetworkCapture d e) j = .ok j') :
    Sound d owner j' := by
  refine append_sound hSound h hOwner limitedAndValid_count (fun _ hOld => { hOld with })
    (fun _ hChain => hChain) (raiseTo_min 13 (by omega) true) ?_
  intro k hk
  refine uses_raised (by omega) fun hOther => ?_
  exact uses_of_same k hk rfl (fun _ => rfl) (fun _ => rfl) (fun _ => ⟨rfl, rfl⟩) (fun _ => rfl)
    (fun hEq => absurd hEq hOther) (fun _ => rfl)

theorem appendBuild_sound (hSound : Sound d owner j) (e : JournalBuild)
    (hOwner : owner e.id = .build) (h : commit d (appendBuild d e) j = .ok j') : Sound d owner j' := by
  refine append_sound hSound h hOwner limitedAndValid_count (fun _ hOld => { hOld with })
    (fun _ hChain => hChain) (raiseTo_min 5 (by omega) true) ?_
  intro k hk
  refine uses_raised (by omega) fun hOther => ?_
  exact uses_of_same k hk rfl (fun _ => rfl) (fun hEq => absurd hEq hOther) (fun _ => ⟨rfl, rfl⟩)
    (fun _ => rfl) (fun _ => rfl) (fun _ => rfl)

theorem appendProxy_sound (hSound : Sound d owner j) (e : JournalProxy)
    (hOwner : owner e.id = .proxy) (h : commit d (appendProxy d e) j = .ok j') : Sound d owner j' := by
  have hRaise := fun v => raiseAll_bounds [(4, true), (9, usesVerifiedSwitch e)] (by simp) v
  refine append_sound hSound h hOwner validateJournalState_count ?_ (fun _ hChain => hChain) ?_ ?_
  · intro hEntry hOld
    exact { hOld with proxy := forall_mem_concat hOld.proxy hEntry }
  · intro v
    exact ⟨Nat.le_trans (Nat.min_le_right 18 v) (hRaise v).1, (hRaise v).2.1⟩
  · intro k hk hUses
    by_cases h4 : k = 4
    · exact .inr (h4 ▸ (hRaise j.state.version).2.2 (4, true) (by simp) rfl)
    · by_cases h9 : k = 9
      · subst h9
        have hSwitch : (j.state.proxy ++ [e]).any usesVerifiedSwitch = true := hUses
        rw [List.any_append, Bool.or_eq_true] at hSwitch
        refine hSwitch.imp id ?_
        intro hOwn
        exact (hRaise j.state.version).2.2 (9, usesVerifiedSwitch e) (by simp) (by simpa using hOwn)
      · refine .inl (.trans (uses_of_same k hk ?_ ?_ ?_ ?_ ?_ ?_ ?_).symm hUses)
        · rfl
        · intro hEq
          exact absurd hEq (not_or.mpr ⟨h4, h9⟩)
        all_goals exact fun _ => by first | rfl | exact ⟨rfl, rfl⟩

theorem appendHosting_sound (hSound : Sound d owner j) (e : JournalHosting)
    (hOwner : owner e.id = .hosting) (h : commit d (appendHosting d e) j = .ok j') : Sound d owner j' := by
  have hMarked : (markLocalBuild e).id = e.id := by
    unfold markLocalBuild
    split <;> rfl
  have hRaise := hostingVersion_bounds (markLocalBuild e)
  refine append_sound hSound h ((congrArg owner hMarked).trans hOwner) ?_ ?_ ?_ ?_ ?_
  · intro hChecks
    simp only [bind_eq_ok, exists_unit] at hChecks
    exact limited_count hChecks.1
  · intro hEntry hOld
    exact { hOld with hosting := forall_mem_concat hOld.hosting hEntry }
  · intro hChecks _
    simp only [bind_eq_ok, exists_unit] at hChecks
    exact hChecks.2.1
  · intro v
    exact ⟨Nat.le_trans (Nat.min_le_right 18 v) (hRaise v).1, (hRaise v).2.1⟩
  · intro k _ hUses
    refine (uses_hosting_append _ _ k hUses).imp id ?_
    intro hNeeds
    obtain ⟨r, hr, hk, hNeeded⟩ := hNeeds
    exact hk ▸ (hRaise j.state.version).2.2 r hr hNeeded

theorem appendBuildLog_sound (hSound : Sound d owner j) (at_ : AttemptIdentity)
    (buildID component stream message id : String) (now : Int) (hOwner : owner id = .buildLog)
    (h : commit d (appendBuildLog d at_ buildID component stream message id now) j = .ok j') : Sound d owner j' := by
  rw [commit, bind_eq_ok] at h
  obtain ⟨_, hTarget, hPersist⟩ := h
  obtain ⟨batch, cursors, hValid, rfl⟩ := appendBuildLog_ok hTarget
  have hReady := hSound.1
  obtain ⟨hUp, hCap, -⟩ := raiseTo_bounds 7 (by omega) true j.state.version
  refine persistLocked_reopens ?_ hPersist
  refine hReady.extend .buildLog id hOwner (fun hShared => absurd hShared (by decide)) ?_ { hReady.valid with }
    hReady.upgrades (validateJournalState_count hValid) rfl rfl (Nat.le_trans (Nat.min_le_right _ _) hUp)
    (hCap hReady.version_le) ?_
  · intro g
    cases g <;> simp [idsOf]
  · intro k hk
    refine uses_raised (by omega) fun hOther => ?_
    exact uses_of_same k hk rfl (fun _ => rfl) (fun _ => rfl) (fun hEq => absurd hEq hOther) (fun _ => rfl)
      (fun _ => rfl) (fun _ => rfl)

-- Removals.

theorem commit_shrinks {update : Update} (hSound : Sound d owner j) (h : commit d update j = .ok j')
    (hShrinks : ∀ t, update j.state = .ok (some t) → Shrinks j.state t) : Sound d owner j' := by
  obtain ⟨-, rfl⟩ | ⟨t, hUpdate, hPersist⟩ := commit_ok h
  · exact hSound
  · exact persistLocked_reopens (hSound.1.shrink (hShrinks t hUpdate)) hPersist

theorem acknowledge_some {settled : α → Bool} (h : acknowledge family settled s = .ok (some t)) :
    t = family.set ((family.get s).filter fun e => !settled e) s := by
  cases h
  rfl

theorem acknowledgeAny_some {settled : α → Bool} (h : acknowledgeAny family settled s = .ok (some t)) :
    t = family.set ((family.get s).filter fun e => !settled e) s := by
  unfold acknowledgeAny at h
  split at h
  · exact acknowledge_some h
  · cases h

theorem ackBuild_some {id : String} (h : ackBuild id s = .ok (some t)) :
    t = { s with build := s.build.filter fun e => !(e.id == id) } := by
  unfold ackBuild at h
  simp only [bind_eq_ok, exists_unit] at h
  exact acknowledgeAny_some h.2

theorem ackBuildLogs_some {batch : HostingBuildLogBatch} {ack : Document}
    (h : ackBuildLogs d batch ack s = .ok (some t)) :
    t = { s with buildLogs := s.buildLogs.filter fun e => (wantedEvent batch e.id).isNone } := by
  unfold ackBuildLogs at h
  simp only [bind_eq_ok, exists_unit, pure_eq_ok, Option.some.injEq] at h
  exact h.2.2.2.symm

theorem discardAttempt_some {authority : AttemptIdentity}
    (h : discardAttempt authority s = .ok (some t)) : t = withoutAttempt authority s := by
  unfold discardAttempt at h
  simp only [bind_eq_ok, exists_unit] at h
  obtain ⟨-, h⟩ := h
  split at h
  · exact (Option.some.inj (Except.ok.inj h)).symm
  · cases h

theorem retireDatabaseNetworkCapture_some {at_ : AttemptIdentity}
    (h : retireDatabaseNetworkCapture d at_ s = .ok (some t)) :
    t = { s with databaseNetworkCapture := s.databaseNetworkCapture.filter fun e => !(e.attempt == at_) } := by
  unfold retireDatabaseNetworkCapture at h
  simp only [bind_eq_ok, exists_unit] at h
  obtain ⟨-, h⟩ := h
  split at h
  · cases h
  · simp only [bind_eq_ok, exists_unit] at h
    exact acknowledge_some h.2

theorem ackBuildCompletion_some {id : String} {ack : Document}
    (h : ackBuildCompletion d id ack s = .ok (some t)) :
    ∃ r, (s.build.find? (·.id == id)).bind (·.result) = some r ∧
      (∀ e ∈ s.buildLogs, e.batch.authority ≠ r.authority) ∧
      t = { s with
        build := s.build.filter fun e =>
          e.id != id && (e.phase != "attempt_intent" || buildJournalAuthority e != r.authority)
        buildLogCursors := s.buildLogCursors.filter (·.authority != r.authority) } := by
  unfold ackBuildCompletion at h
  cases hResult : (s.build.find? (·.id == id)).bind (·.result) with
  | none => simp [hResult] at h
  | some r =>
    simp only [hResult, bind_eq_ok, exists_unit, refuse_eq_ok, pure_eq_ok, Option.some.injEq] at h
    obtain ⟨-, hPending, ht⟩ := h
    refine ⟨r, rfl, ?_, ht.symm⟩
    simpa using hPending

theorem Shrinks.refl (s : JournalState) : Shrinks s s := by
  refine ⟨?_, ?_, ?_, ?_, ?_, ?_, ?_, ?_, ?_, ?_, ?_, ?_, ?_, ?_, ?_, ?_, rfl, rfl, rfl⟩
  all_goals exact List.Sublist.refl _

end

end NeroCD.Journal
