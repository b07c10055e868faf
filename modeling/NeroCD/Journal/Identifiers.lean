import Mathlib.Data.List.Pairwise
import NeroCD.Journal.Runs

-- Identifiers: an append looks for its ID in its own family, opening looks in all of them.

namespace NeroCD.Journal

open NeroCD.Checks

-- The families of an attempt's own evidence, the last ones that are checked first.
def attemptFamilies : List Family := [.buildLog, .build, .proxy, .hosting, .provenance, .completion, .event]

def ApartIn (s : JournalState) (f g : Family) : Prop := ∀ x ∈ idsOf s f, x ∉ idsOf s g

structure Collected (s : JournalState) (fs : List Family) (ids : List String) : Prop where
  apart : fs.Pairwise (ApartIn s)
  holds : ∀ f ∈ fs, ∀ x ∈ idsOf s f, x ∈ ids

section

variable {d : Documents} {s t : JournalState}

instance apartIn_symm (s : JournalState) : Std.Symm (ApartIn s) :=
  ⟨fun _ _ hApart x hg hf => hApart x hf hg⟩

theorem collected_nil : Collected s [] [] := ⟨.nil, fun _ hf => nomatch hf⟩

variable {fs : List Family} {ids : List String} {f : Family} {j j' : AttemptJournal}

theorem Collected.apart_of_notMem (hCollected : Collected s fs ids) (hNew : ∀ x ∈ idsOf s f, x ∉ ids) :
    ∀ g ∈ fs, ApartIn s f g :=
  fun g hg x hx hIn => hNew x hx (hCollected.holds g hg x hIn)

theorem Collected.record {α : Type} {r : List String} (hCollected : Collected s fs ids) (f : Family)
    {id : α → String} {before after : α → Except String Unit} {message : String} {l : List α}
    (hIDs : idsOf s f = l.map id) (h : recordIDs id before after message ids l = .ok r) :
    Collected s (f :: fs) r := by
  obtain ⟨-, -, hNew, rfl⟩ := (recordIDs_eq_ok id before after message l ids r).mp h
  refine ⟨List.pairwise_cons.mpr ⟨hCollected.apart_of_notMem (hIDs ▸ hNew), hCollected.apart⟩, ?_⟩
  refine List.forall_mem_cons.mpr ⟨?_, ?_⟩
  · intro x hx
    exact List.mem_append_left _ (List.mem_reverse.mpr (hIDs ▸ hx))
  · intro g hg x hx
    exact List.mem_append_right _ (hCollected.holds g hg x hx)

theorem Collected.sublist {gs : List Family} (hCollected : Collected s fs ids) (hSub : gs.Sublist fs) :
    Collected s gs ids :=
  ⟨hCollected.apart.sublist hSub, fun g hg => hCollected.holds g (hSub.subset hg)⟩

-- Each of the three passes over the IDs.

theorem validateEntries_collected {ids' : List String} (hGeneric : validateGenericEntries d s = .ok ids)
    (hHosting : validateHostingEntries d s ids = .ok ids') (hProxy : validateProxyEntries d s ids' = .ok ()) :
    [Family.proxy, .hosting, .provenance, .completion, .event].Pairwise (ApartIn s) := by
  unfold validateGenericEntries at hGeneric
  simp only [bind_eq_ok, exists_unit] at hGeneric
  obtain ⟨-, r1, h1, -, r2, h2, r3, h3, r4, h4, h5⟩ := hGeneric
  unfold validateHostingEntries at hHosting
  simp only [bind_eq_ok, exists_unit] at hHosting
  obtain ⟨-, -, -, -, -, h6⟩ := hHosting
  unfold validateProxyEntries at hProxy
  simp only [bind_eq_ok, exists_unit] at hProxy
  obtain ⟨-, r7, h7, -⟩ := hProxy
  have hGenericApart := ((((collected_nil.record .capture rfl h1).record .archive rfl h2).record .event rfl h3).record
    .completion rfl h4).record .provenance rfl h5
  have hAll := (hGenericApart.record .hosting rfl h6).record .proxy rfl h7
  exact (hAll.sublist (by decide)).apart

theorem sharedIDs_collected (h : sharedIDs s = .ok ids) :
    Collected s [.proxy, .hosting, .provenance, .completion, .event] ids := by
  unfold sharedIDs at h
  simp only [bind_eq_ok] at h
  obtain ⟨r1, h1, r2, h2, r3, h3, r4, h4, h5⟩ := h
  exact ((((collected_nil.record .event rfl h1).record .completion rfl h2).record .provenance rfl h3).record
    .hosting rfl h4).record .proxy rfl h5

theorem buildLoop_new {attempts r : List (HostingBuildAuthority × BuildEvidence)} {l : List JournalBuild}
    (h : buildLoop d ids attempts l = .ok r) : ∀ e ∈ l, e.id ∉ ids := by
  induction l generalizing ids attempts with
  | nil => exact fun e he => nomatch he
  | cons _ _ ih =>
    simp only [buildLoop, bind_eq_ok, exists_unit, refuse_eq_ok, List.contains_eq_mem,
      decide_eq_false_iff_not] at h
    obtain ⟨-, hNew, group, -, hRest⟩ := h
    refine List.forall_mem_cons.mpr ⟨hNew, ?_⟩
    intro e he hIn
    exact ih hRest e he (List.mem_cons_of_mem _ hIn)

theorem buildLogLoop_new {cursors last : List (HostingBuildAuthority × Int)} {l : List JournalBuildLog}
    (h : buildLogLoop d cursors ids last l = .ok ()) : ∀ e ∈ l, e.id ∉ ids := by
  induction l generalizing ids last with
  | nil => exact fun e he => nomatch he
  | cons _ _ ih =>
    simp only [buildLogLoop, bind_eq_ok, exists_unit, refuse_eq_ok, List.contains_eq_mem,
      decide_eq_false_iff_not] at h
    obtain ⟨hNew, h⟩ := h
    split at h
    · simp only [bind_eq_ok, exists_unit] at h
      refine List.forall_mem_cons.mpr ⟨hNew, ?_⟩
      intro e he hIn
      exact ih h.2.2 e he (List.mem_cons_of_mem _ hIn)
    · cases h

theorem builds_apart (h : s.build.isEmpty = true ∨ buildEvidenceConsistent d s = .ok ()) :
    ∀ g ∈ [Family.proxy, .hosting, .provenance, .completion, .event], ApartIn s .build g := by
  rcases h with hEmpty | hBuilds
  · intro g hg x hx
    simp [idsOf, List.isEmpty_iff.mp hEmpty] at hx
  · unfold buildEvidenceConsistent at hBuilds
    simp only [bind_eq_ok] at hBuilds
    obtain ⟨ids, hShared, attempts, hLoop, -⟩ := hBuilds
    refine (sharedIDs_collected hShared).apart_of_notMem ?_
    intro x hx
    obtain ⟨e, he, rfl⟩ := List.mem_map.mp hx
    exact buildLoop_new hLoop e he

theorem logs_apart
    (h : (s.buildLogs.isEmpty && s.buildLogCursors.isEmpty) = true ∨ buildLogsConsistent d s = .ok ()) :
    ∀ g ∈ [Family.build, .proxy, .hosting, .provenance, .completion, .event], ApartIn s .buildLog g := by
  rcases h with hEmpty | hLogs
  · simp only [Bool.and_eq_true, List.isEmpty_iff] at hEmpty
    intro g hg x hx
    simp [idsOf, hEmpty.1] at hx
  · unfold buildLogsConsistent at hLogs
    simp only [bind_eq_ok] at hLogs
    obtain ⟨ids, hShared, ids', hBuilds, cursors, -, hLoop⟩ := hLogs
    refine ((sharedIDs_collected hShared).record .build rfl hBuilds).apart_of_notMem ?_
    intro x hx
    obtain ⟨e, he, rfl⟩ := List.mem_map.mp hx
    exact buildLogLoop_new hLoop e he

theorem validateSettledState_apart (h : validateSettledState d s = .ok ()) :
    attemptFamilies.Pairwise (ApartIn s) := by
  unfold validateSettledState at h
  simp only [bind_eq_ok, exists_unit] at h
  obtain ⟨-, -, -, -, -, -, -, ids, hGeneric, ids', hHosting, hProxy, hBuilds, hLogs⟩ := h
  refine List.pairwise_cons.mpr ⟨logs_apart (buildLogs_of_validate s.version hLogs), ?_⟩
  refine List.pairwise_cons.mpr ⟨builds_apart (build_of_validate s.version hBuilds), ?_⟩
  exact validateEntries_collected hGeneric hHosting hProxy

theorem idsOf_of_unversioned (h : t.withoutStorageRetentions.unversioned = s.withoutStorageRetentions.unversioned)
    (hf : f ∈ attemptFamilies) : idsOf t f = idsOf s f := by
  have hIDs := congrArg (fun u => idsOf u f) h
  cases f <;> first | exact hIDs | exact absurd hf (by decide)

theorem validateJournalState_apart (h : validateJournalState d s = .ok ()) {g : Family} (hf : f ∈ attemptFamilies)
    (hg : g ∈ attemptFamilies) {x : String} (hxf : x ∈ idsOf s f) (hxg : x ∈ idsOf s g) : f = g := by
  obtain ⟨u, hSettled, hSame⟩ := validateSettledState_of_validate h
  by_contra hNe
  have hApart := (validateSettledState_apart hSettled).forall hf hg hNe
  rw [← idsOf_of_unversioned hSame hf] at hxf
  rw [← idsOf_of_unversioned hSame hg] at hxg
  exact hApart x hxf hxg

-- Appends only add IDs.

def Grows (j j' : AttemptJournal) : Prop := ∀ f, ∀ x ∈ idsOf j.state f, x ∈ idsOf j'.state f

theorem idsOf_persisted (h : persistLocked d t = .ok j) (f : Family) : idsOf j.state f = idsOf t f := by
  rw [(persistLocked_ok h).2.1]
  cases f <;> rfl

section

variable {α : Type} {family : Entries α} {valid : α → Except String Unit} {same : α → α → Bool}
  {raise : Nat → Nat} {precheck : JournalState → JournalState → Except String Unit} {entry : α}

theorem append_none (h : append family valid same raise precheck entry s = .ok none) :
    family.id entry ∈ (family.get s).map family.id := by
  unfold append at h
  simp only [bind_eq_ok, exists_unit] at h
  obtain ⟨-, h⟩ := h
  cases hFind : (family.get s).find? fun old => family.id old == family.id entry with
  | none => simp only [hFind, bind_eq_ok, pure_eq_ok, reduceCtorEq, and_false, exists_false] at h
  | some old =>
    have hID : family.id old = family.id entry := by simpa using List.find?_some hFind
    exact hID ▸ List.mem_map_of_mem (List.mem_of_find?_eq_some hFind)

theorem append_grows (h : commit d (append family valid same raise precheck entry) j = .ok j') :
    Grows j j' ∧ family.id entry ∈ idsOf j'.state family.family := by
  obtain ⟨hNone, rfl⟩ | ⟨t, hSome, hPersist⟩ := commit_ok h
  · exact ⟨fun _ _ hx => hx, family.ids_get _ ▸ append_none hNone⟩
  · obtain ⟨-, -, -, rfl⟩ := append_some hSome
    have hOwn : idsOf j'.state family.family = (family.get j.state ++ [entry]).map family.id := by
      rw [idsOf_persisted hPersist, family.ids_get, appendedState, family.get_set]
    refine ⟨?_, ?_⟩
    · intro f x hx
      by_cases hf : f = family.family
      · subst hf
        rw [hOwn, List.map_append]
        exact List.mem_append_left _ (family.ids_get _ ▸ hx)
      · rw [idsOf_persisted hPersist, appendedState, family.ids_other _ _ _ _ hf]
        exact hx
    · rw [hOwn, List.map_append]
      exact List.mem_append_right _ List.mem_cons_self

end

theorem appendBuildLog_grows {at_ : AttemptIdentity} {buildID component stream message id : String} {now : Int}
    (h : commit d (appendBuildLog d at_ buildID component stream message id now) j = .ok j') :
    Grows j j' ∧ id ∈ idsOf j'.state .buildLog := by
  rw [commit, bind_eq_ok] at h
  obtain ⟨_, hTarget, hPersist⟩ := h
  obtain ⟨batch, cursors, -, rfl⟩ := appendBuildLog_ok hTarget
  refine ⟨?_, ?_⟩
  · intro f x hx
    rw [idsOf_persisted hPersist]
    cases f with
    | buildLog =>
      simp only [idsOf, List.map_append]
      exact List.mem_append_left _ hx
    | _ => exact hx
  · rw [idsOf_persisted hPersist]
    simp [idsOf]

theorem perform_grows {op : Operation} {x : String} (hAppended : op.appended = some (x, f))
    (hf : f ∈ attemptFamilies) (h : perform d op j = .ok j') : Grows j j' ∧ x ∈ idsOf j'.state f := by
  cases op with
  | appendBuildLog _ _ _ _ _ _ _ =>
    cases hAppended
    exact appendBuildLog_grows h
  | appendHosting e =>
    cases hAppended
    have hMarked : (markLocalBuild e).id = e.id := by
      unfold markLocalBuild
      split <;> rfl
    unfold perform Operation.target appendHosting at h
    exact hMarked ▸ append_grows h
  | appendProxy _ =>
    cases hAppended
    unfold perform Operation.target appendProxy at h
    exact append_grows h
  | appendEvent _ | appendCompletion _ | appendProvenance _ | appendBuild _ =>
    cases hAppended
    exact append_grows h
  | appendDatabaseImport _ | appendDatabaseBackup _ | appendDatabaseBackupTransfer _
  | appendDatabaseBackupRetention _ | appendStorageBackupTransfer _ | appendStorageBackupRetention _
  | appendStorageArchive _ | appendDatabaseNetworkCapture _ =>
    cases hAppended
    exact absurd hf (by decide)
  | _ => cases hAppended

theorem performAll_grows {ops : List Operation}
    (hAppends : ∀ op ∈ ops, ∃ x f, op.appended = some (x, f) ∧ f ∈ attemptFamilies)
    (h : performAll d ops j = .ok j') :
    Grows j j' ∧ ∀ x f, (x, f) ∈ ops.filterMap Operation.appended →
      x ∈ idsOf j'.state f ∧ f ∈ attemptFamilies := by
  induction ops generalizing j with
  | nil =>
    rw [← Except.ok.inj h]
    exact ⟨fun _ _ hx => hx, fun _ _ hMem => nomatch hMem⟩
  | cons op _ ih =>
    simp only [performAll, bind_eq_ok] at h
    obtain ⟨j₁, hFirst, hRest⟩ := h
    obtain ⟨x₁, f₁, hAppended, hf⟩ := hAppends op List.mem_cons_self
    obtain ⟨hGrows, hNew⟩ := perform_grows hAppended hf hFirst
    obtain ⟨hLater, hOthers⟩ := ih (fun op' hMem => hAppends op' (List.mem_cons_of_mem _ hMem)) hRest
    refine ⟨fun f x hx => hLater f x (hGrows f x hx), ?_⟩
    intro x f hMem
    rw [List.filterMap_cons_some hAppended] at hMem
    cases List.mem_cons.mp hMem with
    | inl hEq =>
      cases hEq
      exact ⟨hLater _ _ hNew, hf⟩
    | inr hIn => exact hOthers x f hIn

theorem performAll_tracked {ops : List Operation} (hTracked : Tracked d j) (h : performAll d ops j = .ok j') :
    Tracked d j' := by
  induction ops generalizing j with
  | nil => exact Except.ok.inj h ▸ hTracked
  | cons _ _ ih =>
    simp only [performAll, bind_eq_ok] at h
    obtain ⟨j₁, hFirst, hRest⟩ := h
    refine ih ?_ hRest
    obtain ⟨-, rfl⟩ | ⟨t, hTarget, hPersist⟩ := commit_ok hFirst
    · exact hTracked
    · exact persistLocked_tracked (Operation.target_hosting hTarget hTracked.validated.hosting) hPersist

theorem openAttemptJournal_valid {file : Option JournalState} (h : openAttemptJournal d file = .ok j) :
    validateJournalState d j.state = .ok () := by
  cases file with
  | none =>
    cases h
    rfl
  | some _ =>
    simp only [openAttemptJournal, bind_eq_ok, exists_unit, pure_eq_ok] at h
    obtain ⟨s₁, -, s₂, -, hValid, rfl⟩ := h
    exact hValid

theorem openAttemptJournal_ids (hTracked : Tracked d j) (h : openAttemptJournal d j.file = .ok j') (f : Family) :
    idsOf j'.state f = idsOf j.state f := by
  obtain ⟨hOpened, hFile⟩ := openAttemptJournal_tracked h
  have hState : j'.state.unversioned = j.state.unversioned := by
    rw [hOpened.synced, hFile, ← hTracked.synced]
  have hIDs := congrArg (fun u => idsOf u f) hState
  cases f <;> exact hIDs

end

-- After successful appends of an attempt's evidence to an empty journal, the file opens again exactly
-- when no ID was used in two families.
theorem appends_reopen_iff (d : Documents) (ops : List Operation) (j : AttemptJournal)
    (hAppends : ∀ op ∈ ops, ∃ x f, op.appended = some (x, f) ∧ f ∈ attemptFamilies)
    (hRun : performAll d ops {} = .ok j) :
    (∃ j', openAttemptJournal d j.file = .ok j') ↔ DistinctAcrossFamilies ops := by
  refine ⟨?_, ?_⟩
  · rintro ⟨j', hOpen⟩ ⟨x, f⟩ hx ⟨y, g⟩ hy hEq
    have hEq : x = y := hEq
    subst hEq
    obtain ⟨hxf, hf⟩ := (performAll_grows hAppends hRun).2 x f hx
    obtain ⟨hxg, hg⟩ := (performAll_grows hAppends hRun).2 x g hy
    have hSame := openAttemptJournal_ids (performAll_tracked empty_tracked hRun) hOpen
    exact validateJournalState_apart (openAttemptJournal_valid hOpen) hf hg (hSame f ▸ hxf) (hSame g ▸ hxg)
  · intro hDistinct
    exact ⟨j, (performAll_sound ops (firstOwner_eq ops hDistinct) empty_sound hRun).2⟩

def sampleCompletion (id : String) : JournalCompletion :=
  { id := id, attempt := sampleAttempt, status := "succeeded", createdAt := 1 }

theorem appends_reopen_iff_sample :
    ∃ j, performAll acceptingDocuments [.appendEvent sampleEvent, .appendCompletion (sampleCompletion "done")] {} =
        .ok j ∧ ∃ j', openAttemptJournal acceptingDocuments j.file = .ok j' := by
  have hRun : performAll acceptingDocuments
      [.appendEvent sampleEvent, .appendCompletion (sampleCompletion "done")] {} =
      .ok ⟨{ events := [sampleEvent], completions := [sampleCompletion "done"] },
        some { events := [sampleEvent], completions := [sampleCompletion "done"] }⟩ := by decide +kernel
  have hAppends : ∀ op ∈ [Operation.appendEvent sampleEvent, .appendCompletion (sampleCompletion "done")],
      ∃ x f, op.appended = some (x, f) ∧ f ∈ attemptFamilies := by
    simp [Operation.appended, attemptFamilies]
  refine ⟨_, hRun, (appends_reopen_iff acceptingDocuments _ _ hAppends hRun).mpr ?_⟩
  unfold DistinctAcrossFamilies
  decide

-- An event and a completion of one ID are both accepted, and the journal cannot be opened again.
theorem appends_refused_sample :
    (performAll acceptingDocuments [.appendEvent sampleEvent, .appendCompletion (sampleCompletion "event")] {}).map
        (·.state) = .ok { events := [sampleEvent], completions := [sampleCompletion "event"] } ∧
      (performAll acceptingDocuments [.appendEvent sampleEvent, .appendCompletion (sampleCompletion "event")] {} >>=
        fun j => openAttemptJournal acceptingDocuments j.file) = .error "runner journal contains duplicate ids" := by
  decide +kernel

end NeroCD.Journal
