import Mathlib.Data.Prod.Lex
import Mathlib.Data.String.Basic
import NeroCD.Paging
import NeroCD.Store.Exclusivity

-- `ClaimRun` is a bounded scan of the queued runs in claim order, so no claimable run is passed over for longer than
-- a lap of the queue.

namespace NeroCD.Store

open NeroCD.Domain NeroCD.Records NeroCD.Paging

def cursorKey (cursor : ClaimCursor) : Time ×ₗ String := toLex (cursor.claimOrderAt, cursor.runID)

theorem cursorKey_injective : Function.Injective cursorKey := by
  intro c d h
  have hPair : (c.claimOrderAt, c.runID) = (d.claimOrderAt, d.runID) := toLex.injective h
  rw [Prod.mk.injEq] at hPair
  cases c
  cases d
  simp only at hPair
  rw [hPair.1, hPair.2]

-- Cursors are ordered by claim order and then by run.
instance : LinearOrder ClaimCursor := LinearOrder.lift' cursorKey cursorKey_injective

theorem cursor_le_iff (c d : ClaimCursor) :
    c ≤ d ↔ c.claimOrderAt < d.claimOrderAt ∨ (c.claimOrderAt = d.claimOrderAt ∧ c.runID ≤ d.runID) :=
  Prod.Lex.toLex_le_toLex

def queuedRuns (runs : List TaskRun) : List (TaskRun × Nat) :=
  runs.zipIdx.filter (fun candidate => candidate.1.status == .queued)

def candidateKey (order : GoMap Time) (candidate : TaskRun × Nat) : ClaimCursor :=
  claimCursorOf order candidate.1

theorem length_queuedRuns (runs : List TaskRun) :
    (queuedRuns runs).length = (runs.filter (fun run => run.status == .queued)).length := by
  have hMap : (queuedRuns runs).map Prod.fst = runs.filter (fun run => run.status == .queued) := by
    conv_rhs => rw [← List.zipIdx_map_fst 0 runs, List.filter_map]
    rfl
  rw [← hMap, List.length_map]

theorem afterCursor_eq_after (order : GoMap Time) (cursor : Option ClaimCursor) (candidate : TaskRun × Nat) :
    afterCursor cursor (claimCursorOf order candidate.1) = after (candidateKey order) cursor candidate := by
  cases cursor with
  | none => rfl
  | some c =>
    rw [Bool.eq_iff_iff, after_some, ← not_le, cursor_le_iff]
    simp only [afterCursor, candidateKey, Bool.not_eq_true', Bool.or_eq_false_iff, decide_eq_false_iff_not,
      Bool.and_eq_false_imp, beq_iff_eq, not_or, not_and]

theorem insertionSort_congr {α : Type} (r r' : α → α → Prop) [DecidableRel r] [DecidableRel r'] (l : List α)
    (h : ∀ x y, r x y ↔ r' x y) : l.insertionSort r = l.insertionSort r' := by
  obtain rfl : r = r' := funext₂ fun x y => propext (h x y)
  congr

theorem claimCandidates_eq_page (order : GoMap Time) (cursor : Option ClaimCursor) (runs : List TaskRun) :
    claimCandidates order cursor runs =
      page (candidateKey order) claimCandidateLimit cursor (queuedRuns runs) := by
  unfold claimCandidates page queuedRuns
  rw [List.filter_filter]
  have hFilter : (fun candidate : TaskRun × Nat =>
      candidate.1.status == .queued && afterCursor cursor (claimCursorOf order candidate.1)) =
      (fun candidate => after (candidateKey order) cursor candidate && candidate.1.status == .queued) := by
    funext candidate
    rw [afterCursor_eq_after, Bool.and_comm]
  rw [hFilter]
  rw [insertionSort_congr (claimBefore order) (fun x y => candidateKey order x ≤ candidateKey order y)]
  exact fun x y => (cursor_le_iff _ _).symm

theorem lookup_fillClaimOrder (runs : List TaskRun) (order : GoMap Time) (id : String)
    (h : (order.lookup id).isSome) : ((fillClaimOrder runs order).lookup id).isSome := by
  unfold fillClaimOrder
  induction runs generalizing order with
  | nil => exact h
  | cons run _ ih =>
    rw [List.foldl_cons]
    apply ih
    split
    · by_cases hID : id = run.id
      · rw [hID, Finmap.lookup_insert]
        rfl
      · rw [Finmap.lookup_insert_of_ne _ hID]
        exact h
    · exact h

theorem fillClaimOrder_filled (runs : List TaskRun) (order : GoMap Time) (run : TaskRun) (hRun : run ∈ runs)
    (hQueued : run.status = .queued) : ((fillClaimOrder runs order).lookup run.id).isSome := by
  induction runs generalizing order with
  | nil => cases hRun
  | cons _ rest ih =>
    rcases List.mem_cons.mp hRun with rfl | hRest
    · refine lookup_fillClaimOrder rest _ run.id ?_
      simp only
      split
      · rw [Finmap.lookup_insert]
        rfl
      · next hNot =>
        rw [hQueued, beq_self_eq_true, Bool.true_and, Option.isNone_iff_eq_none] at hNot
        exact Option.isSome_iff_ne_none.mpr hNot
    · exact ih _ hRest

theorem fillClaimOrder_eq_self (runs : List TaskRun) (order : GoMap Time)
    (h : ∀ run ∈ runs, run.status = .queued → (order.lookup run.id).isSome) :
    fillClaimOrder runs order = order := by
  induction runs with
  | nil => rfl
  | cons run _ ih =>
    have hSkip : ¬ (run.status == .queued && (order.lookup run.id).isNone) = true := by
      rw [Bool.and_eq_true, beq_iff_eq, Option.isNone_iff_eq_none]
      rintro ⟨hQueued, hNone⟩
      have := h run List.mem_cons_self hQueued
      rw [hNone] at this
      cases this
    unfold fillClaimOrder
    rw [List.foldl_cons, if_neg hSkip]
    exact ih fun run hRun => h run (List.mem_cons_of_mem _ hRun)

theorem fillClaimOrder_idem (runs : List TaskRun) (order : GoMap Time) :
    fillClaimOrder runs (fillClaimOrder runs order) = fillClaimOrder runs order :=
  fillClaimOrder_eq_self runs _ fun run hRun hQueued => fillClaimOrder_filled runs order run hRun hQueued

-- The lease is not due, or there is no running run that it would give back.
def LeaseStays (s : MemoryStore) (now : Time) (lease : RunLease) : Prop :=
  lease.status = .active → now < lease.expiresAt ∨ s.runs.find? (runningRun lease.runID) = none

theorem expireLease_stays (s : MemoryStore) (now : Time) (i : Nat)
    (h : ∀ lease ∈ s.leases, LeaseStays s now lease) : expireLease now s i = s := by
  unfold expireLease
  split
  · rfl
  · next lease hLease =>
    split
    · rfl
    · next hDue =>
      simp only [bne_iff_ne, ne_eq, Bool.or_eq_true, decide_eq_true_eq, not_or, not_not] at hDue
      rcases h lease (List.mem_of_getElem? hLease) hDue.1 with hNow | hNone
      · exact absurd hNow hDue.2
      · rw [hNone]

theorem expireLeasesLocked_stays (s : MemoryStore) (now : Time)
    (h : ∀ lease ∈ s.leases, LeaseStays s now lease) : expireLeasesLocked now s = s := by
  unfold expireLeasesLocked
  generalize List.range s.leases.length = indexes
  induction indexes with
  | nil => rfl
  | cons i _ ih => rw [List.foldl_cons, expireLease_stays s now i h, ih]

theorem markStale_fresh (runnerID : String) (staleBefore : Time) (runners : List Runner) (runner : Runner)
    (hFind : runners.find? (fun candidate => candidate.id == runnerID) = some runner)
    (hFresh : ¬ runner.lastHeartbeatAt < staleBefore) : markStale runnerID staleBefore runners = runners := by
  induction runners with
  | nil => rfl
  | cons first _ ih =>
    unfold markStale updateFirst
    rw [List.find?_cons] at hFind
    by_cases hID : (first.id == runnerID) = true
    · rw [hID] at hFind
      cases hFind
      simp only [hID, hFresh, decide_false, Bool.and_false, if_true, Bool.false_eq_true, if_false]
    · rw [Bool.not_eq_true] at hID
      rw [hID] at hFind
      simp only [hID, Bool.false_eq_true, if_false]
      exact congrArg (first :: ·) (ih hFind)

structure ClaimCall where
  now : Time
  ttl : Time
  leaseToken : String
  fenceToken : String
  audit : Option AuditEvent

def ClaimCall.run (runnerID : String) (call : ClaimCall) (s : MemoryStore) : Outcome ClaimedRun :=
  claimRun runnerID call.now call.ttl (some call.leaseToken) (some call.fenceToken) call.audit s

def claimAnswers (runnerID : String) : List ClaimCall → MemoryStore → List (Except StoreError ClaimedRun)
  | [], _ => []
  | call :: rest, s => (call.run runnerID s).1 :: claimAnswers runnerID rest (call.run runnerID s).2

structure ClaimCall.Admitted (s : MemoryStore) (runnerID : String) (runner : Runner) (call : ClaimCall) :
    Prop where
  found : s.runners.find? (fun candidate => candidate.id == runnerID) = some runner
  active : runner.status = .active
  fresh : ¬ runner.lastHeartbeatAt < call.now - 2 * call.ttl
  stays : ∀ lease ∈ s.leases, LeaseStays s call.now lease
  audit : s.auditTaken call.audit = false

def MemoryStore.moveCursor (s : MemoryStore) (order : GoMap Time) (cursors : GoMap ClaimCursor) : MemoryStore :=
  { s with claimOrderByRun := order, claimCursors := cursors }

def MemoryStore.filledOrder (s : MemoryStore) : GoMap Time := fillClaimOrder s.runs s.claimOrderByRun

def MemoryStore.claimPage (s : MemoryStore) (runnerID : String) : List (TaskRun × Nat) :=
  page (candidateKey s.filledOrder) claimCandidateLimit (s.claimCursors.lookup runnerID) (queuedRuns s.runs)

theorem claimRun_page (s : MemoryStore) (runnerID : String) (runner : Runner) (call : ClaimCall)
    (h : call.Admitted s runnerID runner) :
    (call.run runnerID s).1.isOk = true ∨
      (∀ candidate ∈ s.claimPage runnerID, claimEligible s runner candidate.1 = false) ∧
      ∃ cursors, (call.run runnerID s).2 = s.moveCursor s.filledOrder cursors ∧
        cursors.lookup runnerID =
          nextCursor (candidateKey s.filledOrder) claimCandidateLimit (s.claimPage runnerID) := by
  have hID : runner.id = runnerID := by
    have hFound := List.find?_some h.found
    exact beq_iff_eq.mp hFound
  have hActive : ¬ (runner.status != .active || decide (runner.lastHeartbeatAt < call.now - 2 * call.ttl)) =
      true := by
    simp [h.active, h.fresh]
  unfold ClaimCall.run claimRun claimQueued
  rw [h.audit, if_neg Bool.false_ne_true, expireLeasesLocked_stays s call.now h.stays]
  simp only
  rw [markStale_fresh runnerID _ s.runners runner h.found h.fresh, h.found]
  simp only
  rw [if_neg hActive, claimCandidates_eq_page, hID]
  rw [show page (candidateKey (fillClaimOrder s.runs s.claimOrderByRun)) claimCandidateLimit
    (s.claimCursors.lookup runnerID) (queuedRuns s.runs) = s.claimPage runnerID from rfl]
  generalize s.claimPage runnerID = examined
  split
  · exact .inl rfl
  · next hFind =>
    refine .inr ⟨fun candidate hCandidate => ?_, ?_⟩
    · exact Bool.not_eq_true _ ▸ List.find?_eq_none.mp hFind candidate hCandidate
    · split
      · next last _ hLast =>
        split
        · next hFull =>
          refine ⟨_, rfl, ?_⟩
          rw [nextCursor, if_pos (beq_iff_eq.mp hFull), hLast, Finmap.lookup_insert]
          rfl
        · next hPart =>
          refine ⟨_, rfl, ?_⟩
          rw [nextCursor, if_neg (fun h => hPart (beq_iff_eq.mpr h)), Finmap.lookup_erase]
      · next hEmpty =>
        refine ⟨_, rfl, ?_⟩
        rw [nextCursor, hEmpty, Finmap.lookup_erase, Option.map_none, ite_self]

variable {s : MemoryStore} {runnerID : String} {runner : Runner}

theorem ClaimCall.Admitted.moveCursor {call : ClaimCall} (h : call.Admitted s runnerID runner)
    (order : GoMap Time) (cursors : GoMap ClaimCursor) :
    call.Admitted (s.moveCursor order cursors) runnerID runner :=
  ⟨h.found, h.active, h.fresh, h.stays, h.audit⟩

def MemoryStore.claimWait (s : MemoryStore) (runnerID : String) (candidate : TaskRun × Nat) : Nat :=
  wait (candidateKey s.filledOrder) claimCandidateLimit (s.claimCursors.lookup runnerID) candidate
    (queuedRuns s.runs)

theorem candidateKey_eq (hIDs : Keyed TaskRun.id s.runs) (order : GoMap Time) (x y : TaskRun × Nat)
    (hx : x ∈ queuedRuns s.runs) (hy : y ∈ queuedRuns s.runs) (h : candidateKey order x = candidateKey order y) :
    x = y := by
  have hx := List.mem_zipIdx_iff_getElem?.mp (List.mem_filter.mp hx).1
  have hy := List.mem_zipIdx_iff_getElem?.mp (List.mem_filter.mp hy).1
  have hID : x.1.id = y.1.id := congrArg ClaimCursor.runID h
  have hNodup := (keyed_iff_nodup TaskRun.id s.runs).mp hIDs
  have hIndex : x.2 = y.2 := by
    have hLt : x.2 < (s.runs.map TaskRun.id).length := by
      rw [List.length_map]
      exact (List.getElem?_eq_some_iff.mp hx).1
    refine (List.getElem?_inj hLt hNodup).mp ?_
    rw [List.getElem?_map, List.getElem?_map, hx, hy, Option.map_some, Option.map_some, hID]
  refine Prod.ext ?_ hIndex
  rw [hIndex, hy] at hx
  exact (Option.some.inj hx).symm

-- Induction on the calls: a call that returns no run shortens the wait of every claimable run.
theorem claimAnswers_ok (hIDs : Keyed TaskRun.id s.runs) (candidate : TaskRun × Nat)
    (hMem : candidate ∈ queuedRuns s.runs) (hEligible : claimEligible s runner candidate.1 = true)
    (calls : List ClaimCall) (hCalls : ∀ call ∈ calls, call.Admitted s runnerID runner)
    (hWait : s.claimWait runnerID candidate ≤ calls.length) :
    ∃ answer ∈ claimAnswers runnerID calls s, answer.isOk = true := by
  induction calls generalizing s with
  | nil =>
    have hPos : 0 < s.claimWait runnerID candidate := wait_pos _ _ _
    exact absurd hWait (Nat.not_le.mpr hPos)
  | cons call _ ih =>
    rcases claimRun_page s runnerID runner call (hCalls call List.mem_cons_self) with
      hOk | ⟨hPage, cursors, hState, hCursor⟩
    · exact ⟨_, List.mem_cons_self, hOk⟩
    · have hNot : candidate ∉ s.claimPage runnerID := by
        intro hIn
        rw [hPage candidate hIn] at hEligible
        cases hEligible
      have hStep := wait_nextCursor (by decide) hMem
        (fun x hx hKey => candidateKey_eq hIDs s.filledOrder x candidate hx hMem hKey) hNot
      have hMoved : (s.moveCursor s.filledOrder cursors).claimWait runnerID candidate + 1 ≤
          s.claimWait runnerID candidate := by
        have hOrder : (s.moveCursor s.filledOrder cursors).filledOrder = s.filledOrder :=
          fillClaimOrder_idem s.runs s.claimOrderByRun
        have hLookup : (s.moveCursor s.filledOrder cursors).claimCursors.lookup runnerID =
            nextCursor (candidateKey s.filledOrder) claimCandidateLimit (s.claimPage runnerID) := hCursor
        unfold MemoryStore.claimWait
        rw [hOrder, hLookup]
        exact hStep
      rw [List.length_cons] at hWait
      obtain ⟨answer, hAnswer, hOk⟩ := ih (s := s.moveCursor s.filledOrder cursors) hIDs hMem hEligible
        (fun call hCall => (hCalls call (List.mem_cons_of_mem _ hCall)).moveCursor _ _) (by omega)
      refine ⟨answer, List.mem_cons_of_mem _ ?_, hOk⟩
      rw [hState]
      exact hAnswer

theorem Reaches.run_ids {past : List Operation} (hReached : Reaches RunsAdmitted past s) :
    Keyed TaskRun.id s.runs :=
  hReached.sound.exclusive.keyed

-- One of the next `n / 256 + 2` claims of a runner returns a run when the runner may claim one of the
-- `n` queued runs, wherever the runner's cursor stands.
theorem claims_not_starved (hIDs : Keyed TaskRun.id s.runs) (run : TaskRun) (hRun : run ∈ s.runs)
    (hQueued : run.status = .queued) (hEligible : claimEligible s runner run = true) (calls : List ClaimCall)
    (hCalls : ∀ call ∈ calls, call.Admitted s runnerID runner)
    (hLength : calls.length = (s.runs.filter (fun run => run.status == .queued)).length / 256 + 2) :
    ∃ answer ∈ claimAnswers runnerID calls s, answer.isOk = true := by
  obtain ⟨i, hi⟩ := List.mem_iff_getElem?.mp hRun
  have hMem : (run, i) ∈ queuedRuns s.runs :=
    List.mem_filter.mpr ⟨List.mem_zipIdx_iff_getElem?.mpr hi, by rw [hQueued]; rfl⟩
  refine claimAnswers_ok hIDs (run, i) hMem hEligible calls hCalls ?_
  rw [hLength, ← length_queuedRuns]
  exact wait_le _ _ _

-- The cursor of the runner stands after the only queued run, so the first of the two calls finds nothing.
def sampleLapped : MemoryStore :=
  { runs := [sampleRun], runners := [sampleRunner],
    claimCursors := (∅ : GoMap ClaimCursor).insert "runner" { claimOrderAt := 5, runID := "run" } }

def sampleCall (now : Time) : ClaimCall :=
  { now := now, ttl := 10, leaseToken := "lease", fenceToken := "fence", audit := none }

theorem claims_not_starved_lapped :
    (claimAnswers "runner" [sampleCall 1, sampleCall 2] sampleLapped).map Except.isOk = [false, true] ∧
      ∃ answer ∈ claimAnswers "runner" [sampleCall 1, sampleCall 2] sampleLapped, answer.isOk = true := by
  have hEligible : claimEligible sampleLapped sampleRunner sampleRun = true := by decide +kernel
  refine ⟨by decide +kernel, ?_⟩
  refine claims_not_starved ?_ sampleRun ?_ rfl hEligible _ ?_ ?_
  · exact List.pairwise_singleton _ _
  · exact List.mem_cons_self
  · intro call hCall
    have hNow : call = sampleCall 1 ∨ call = sampleCall 2 := by simpa using hCall
    refine ⟨rfl, rfl, ?_, (fun _ hLease => by cases hLease), ?_⟩
    · rcases hNow with rfl | rfl <;> decide
    · rcases hNow with rfl | rfl <;> rfl
  · rfl

end NeroCD.Store
