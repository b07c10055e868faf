import NeroCD.Journal.Runs

-- Build log sequences: each authority counts from 1 in a cursor that outlives its events.

namespace NeroCD.Journal

open NeroCD.Checks NeroCD.GoStrings

-- `CanonicalHostingBuildLogs`.  A Lean string is always valid UTF-8.  `bytes` is the size of the
-- encoded batch, `truncate` cuts a timestamp to microseconds and has no value outside years 1 to 9999.

def isControl (c : Char) : Bool := c.toNat < 0x20 || (0x7f ≤ c.toNat && c.toNat < 0xa0)

def canonicalTimestamp (truncate : Int → Option Int) : Option Int → Except String (Option Int)
  | none => .ok none
  | some t =>
    match truncate t with
    | none => .error "invalid source timestamp"
    | some t => .ok (some t)

def canonicalEvents (truncate : Int → Option Int) :
    List String → List HostingBuildLogEvent → Except String (List HostingBuildLogEvent)
  | _, [] => .ok []
  | seen, e :: rest => do
    refuse (e.eventKey == "" || 128 < e.eventKey.utf8ByteSize ||
      e.eventKey.toList.any (fun c => isSpace c || isControl c) || seen.contains e.eventKey ||
      e.sequence < 1 || 2147483647 < e.sequence || e.message.toList.contains '\x00' ||
      16 * 1024 < e.message.utf8ByteSize) "invalid build log event"
    refuse (e.component != "build" && e.component != "buildkit" && e.component != "railpack")
      "invalid build log component"
    refuse (e.stream != "system" && e.stream != "stdout" && e.stream != "stderr") "invalid build log stream"
    let timestamp ← canonicalTimestamp truncate e.sourceTimestamp
    let rest ← canonicalEvents truncate (e.eventKey :: seen) rest
    return { e with sourceTimestamp := timestamp } :: rest

def canonicalHostingBuildLogs (bytes : HostingBuildLogBatch → Nat) (truncate : Int → Option Int)
    (batch : HostingBuildLogBatch) : Except String HostingBuildLogBatch := do
  let a := batch.authority
  refuse (a.buildID == "" || a.runID != "build_run_" ++ a.buildID || a.leaseID == "" || a.fence == "" ||
    a.attempt < 1 || 2147483647 < a.attempt || batch.events.isEmpty || 64 < batch.events.length)
    "invalid build log authority or batch"
  let events ← canonicalEvents truncate [] batch.events
  let out := { batch with events := events }
  refuse (256 * 1024 < bytes out) "build log batch exceeds byte limit"
  return out

theorem canonicalEvents_sequence {truncate : Int → Option Int} {seen : List String}
    {l r : List HostingBuildLogEvent} (h : canonicalEvents truncate seen l = .ok r) :
    r.map (·.sequence) = l.map (·.sequence) := by
  induction l generalizing seen r with
  | nil => exact Except.ok.inj h ▸ rfl
  | cons _ _ ih =>
    simp only [canonicalEvents, bind_eq_ok, exists_unit, pure_eq_ok] at h
    obtain ⟨-, -, -, timestamp, -, tail, hTail, rfl⟩ := h
    simp only [List.map_cons, ih hTail]

theorem canonicalHostingBuildLogs_keeps {bytes : HostingBuildLogBatch → Nat} {truncate : Int → Option Int}
    {batch out : HostingBuildLogBatch} (h : canonicalHostingBuildLogs bytes truncate batch = .ok out) :
    out.authority = batch.authority ∧ out.events.map (·.sequence) = batch.events.map (·.sequence) := by
  simp only [canonicalHostingBuildLogs, bind_eq_ok, exists_unit, pure_eq_ok] at h
  obtain ⟨-, events, hEvents, -, rfl⟩ := h
  exact ⟨rfl, canonicalEvents_sequence hEvents⟩

-- Cursors.

theorem cursorSequence_nil (a : HostingBuildAuthority) : cursorSequence [] a = none := rfl

theorem cursorSequence_cons (c : JournalBuildLogCursor) (rest : List JournalBuildLogCursor)
    (a : HostingBuildAuthority) :
    cursorSequence (c :: rest) a =
      (cursorSequence rest a).or (if c.authority = a then some c.lastSequence else none) := by
  unfold cursorSequence
  by_cases hOwn : c.authority = a
  · simp only [hOwn, List.filter_cons, beq_self_eq_true, if_true, List.getLast?_cons, Option.map_some]
    cases (rest.filter (·.authority == a)).getLast? with
    | none => rfl
    | some _ => rfl
  · simp [hOwn]

theorem cursorSequence_append (l : List JournalBuildLogCursor) (c : JournalBuildLogCursor)
    (a : HostingBuildAuthority) :
    cursorSequence (l ++ [c]) a = if c.authority = a then some c.lastSequence else cursorSequence l a := by
  induction l with
  | nil =>
    rw [List.nil_append, cursorSequence_cons]
    simp [cursorSequence_nil]
  | cons _ _ ih =>
    rw [List.cons_append, cursorSequence_cons, ih, cursorSequence_cons]
    split <;> simp

theorem cursorSequence_isSome (l : List JournalBuildLogCursor) (a : HostingBuildAuthority) :
    (cursorSequence l a).isSome = l.any (·.authority == a) := by
  induction l with
  | nil => rfl
  | cons c _ ih =>
    rw [cursorSequence_cons, List.any_cons, ← ih]
    by_cases hOwn : c.authority = a <;> simp [hOwn]

theorem setCursor_other {a b : HostingBuildAuthority} (hNe : a ≠ b) (n : Int) (l : List JournalBuildLogCursor) :
    cursorSequence (setCursor a n l) b = cursorSequence l b := by
  induction l with
  | nil => rfl
  | cons _ _ ih =>
    unfold setCursor
    split
    · rename_i hLast
      simp only [Bool.and_eq_true, beq_iff_eq] at hLast
      simp [cursorSequence_cons, hLast.1, hNe]
    · rw [cursorSequence_cons, ih, cursorSequence_cons]

theorem setCursor_self {a : HostingBuildAuthority} (n : Int) {l : List JournalBuildLogCursor}
    (h : (cursorSequence l a).isSome = true) : cursorSequence (setCursor a n l) a = some n := by
  induction l with
  | nil => cases h
  | cons c rest ih =>
    unfold setCursor
    cases hRest : rest.any (·.authority == a) with
    | true =>
      have hLater := ih (cursorSequence_isSome rest a ▸ hRest)
      simp [cursorSequence_cons, hLater]
    | false =>
      have hNone : cursorSequence rest a = none := by
        rw [← Option.not_isSome_iff_eq_none, cursorSequence_isSome, hRest]
        simp
      have hOwn : c.authority = a := by
        rw [cursorSequence_isSome, List.any_cons, hRest, Bool.or_false] at h
        simpa using h
      simp [cursorSequence_cons, hOwn, hNone]

theorem cursorSequence_filter {a b : HostingBuildAuthority} (l : List JournalBuildLogCursor) :
    cursorSequence (l.filter (·.authority != b)) a = if a = b then none else cursorSequence l a := by
  induction l with
  | nil => simp [cursorSequence_nil]
  | cons c rest ih =>
    by_cases hGone : c.authority = b
    · have hDropped : (c :: rest).filter (·.authority != b) = rest.filter (·.authority != b) := by
        simp [hGone]
      rw [hDropped, ih]
      split
      · rfl
      · rename_i hNe
        simp [cursorSequence_cons, hGone, Ne.symm hNe]
    · have hKept : (c :: rest).filter (·.authority != b) = c :: rest.filter (·.authority != b) := by
        simp [hGone]
      rw [hKept, cursorSequence_cons, ih]
      split
      · rename_i hEq
        simp [hEq, hGone]
      · rw [cursorSequence_cons]

def logSequence (e : JournalBuildLog) : Int := (e.batch.events.head?.map (·.sequence)).getD 0

structure LogsOrdered (s : JournalState) : Prop where
  own : ∀ e ∈ s.buildLogs, e.batch.authority.runID = e.attempt.runID ∧
    e.batch.authority.leaseID = e.attempt.leaseID ∧ e.batch.authority.attempt = e.attempt.attempt ∧
    e.batch.authority.fence = e.attempt.fence
  bounded : ∀ e ∈ s.buildLogs, ∃ n, cursorSequence s.buildLogCursors e.batch.authority = some n ∧
    logSequence e ≤ n
  increasing : s.buildLogs.Pairwise fun e e' =>
    e.batch.authority = e'.batch.authority → logSequence e < logSequence e'

section

variable {d : Documents} {s t : JournalState}

-- The table of the loop over the cursors answers as `cursorSequence`: a later cursor is in front.
theorem cursorLoop_lookup {check : List (HostingBuildAuthority × Int) → JournalBuildLogCursor → Except String Unit}
    {cursors r : List (HostingBuildAuthority × Int)} {l : List JournalBuildLogCursor}
    (h : cursorLoop check cursors l = .ok r) (a : HostingBuildAuthority) :
    r.lookup a = (cursorSequence l a).or (cursors.lookup a) := by
  induction l generalizing cursors with
  | nil => exact Except.ok.inj h ▸ rfl
  | cons c _ ih =>
    simp only [cursorLoop, bind_eq_ok, exists_unit] at h
    rw [ih h.2, cursorSequence_cons, List.lookup_cons]
    by_cases hOwn : c.authority = a
    · simp [hOwn]
    · have hOther : (a == c.authority) = false := beq_eq_false_iff_ne.mpr (Ne.symm hOwn)
      simp [hOwn, hOther]

structure LogAccepted (cursors last : List (HostingBuildAuthority × Int)) (e : JournalBuildLog) : Prop where
  own : e.batch.authority.runID = e.attempt.runID ∧ e.batch.authority.leaseID = e.attempt.leaseID ∧
    e.batch.authority.attempt = e.attempt.attempt ∧ e.batch.authority.fence = e.attempt.fence
  above : (last.lookup e.batch.authority).getD 0 < logSequence e
  below : logSequence e ≤ (cursors.lookup e.batch.authority).getD 0

theorem buildLogLoop_cons {cursors last : List (HostingBuildAuthority × Int)} {ids : List String}
    {e : JournalBuildLog} {rest : List JournalBuildLog}
    (h : buildLogLoop d cursors ids last (e :: rest) = .ok ()) :
    LogAccepted cursors last e ∧
      buildLogLoop d cursors (e.id :: ids) ((e.batch.authority, logSequence e) :: last) rest = .ok () := by
  simp only [buildLogLoop, bind_eq_ok, exists_unit] at h
  obtain ⟨-, h⟩ := h
  split at h
  · rename_i event hEvents
    simp only [bind_eq_ok, exists_unit, refuse_eq_ok, Bool.or_eq_false_iff, bne_eq_false_iff_eq,
      decide_eq_false_iff_not] at h
    obtain ⟨-, ⟨⟨⟨⟨⟨⟨hRun, hLease⟩, hAttempt⟩, hFence⟩, -⟩, hAbove⟩, hBelow⟩, hRest⟩ := h
    have hSequence : logSequence e = event.sequence := by simp [logSequence, hEvents]
    refine ⟨⟨⟨hRun, hLease, hAttempt, hFence⟩, ?_, ?_⟩, ?_⟩
    · rw [hSequence]
      omega
    · rw [hSequence]
      omega
    · rw [hSequence]
      exact hRest
  · cases h

-- The loop keeps the last sequence of each authority, so later events are above it.
theorem buildLogLoop_ordered {cursors last : List (HostingBuildAuthority × Int)} {ids : List String}
    {l : List JournalBuildLog} (h : buildLogLoop d cursors ids last l = .ok ()) :
    (∀ e ∈ l, (last.lookup e.batch.authority).getD 0 < logSequence e) ∧
      (∀ e ∈ l, ∃ before, LogAccepted cursors before e) ∧
      l.Pairwise fun e e' => e.batch.authority = e'.batch.authority → logSequence e < logSequence e' := by
  induction l generalizing ids last with
  | nil => simp
  | cons first rest ih =>
    obtain ⟨hFirst, hRest⟩ := buildLogLoop_cons h
    obtain ⟨hAbove, hAccepted, hIncreasing⟩ := ih hRest
    have hLater : ∀ e ∈ rest, first.batch.authority = e.batch.authority → logSequence first < logSequence e := by
      intro e he hSame
      have hOwn := hAbove e he
      rwa [← hSame, List.lookup_cons_self, Option.getD_some] at hOwn
    refine ⟨?_, ?_, List.pairwise_cons.mpr ⟨hLater, hIncreasing⟩⟩
    · refine List.forall_mem_cons.mpr ⟨hFirst.above, ?_⟩
      intro e he
      by_cases hSame : first.batch.authority = e.batch.authority
      · have hFirstAbove := hFirst.above
        have hOwn := hLater e he hSame
        rw [hSame] at hFirstAbove
        omega
      · have hOwn := hAbove e he
        have hOther : (e.batch.authority == first.batch.authority) = false :=
          beq_eq_false_iff_ne.mpr (Ne.symm hSame)
        rwa [List.lookup_cons, hOther] at hOwn
    · exact List.forall_mem_cons.mpr ⟨⟨last, hFirst⟩, hAccepted⟩

theorem Validated.logsOrdered (h : Validated d s) : LogsOrdered s := by
  rcases h.logs with hEmpty | hLogs
  · have hNone : s.buildLogs = [] := by
      simp only [Bool.and_eq_true, List.isEmpty_iff] at hEmpty
      exact hEmpty.1
    refine ⟨?_, ?_, ?_⟩ <;> simp [hNone]
  · unfold buildLogsConsistent at hLogs
    simp only [bind_eq_ok] at hLogs
    obtain ⟨ids, -, ids', -, cursors, hCursors, hLoop⟩ := hLogs
    obtain ⟨hPositive, hAccepted, hIncreasing⟩ := buildLogLoop_ordered hLoop
    refine ⟨?_, ?_, hIncreasing⟩
    · intro e he
      obtain ⟨before, hEntry⟩ := hAccepted e he
      exact hEntry.own
    · intro e he
      obtain ⟨before, hEntry⟩ := hAccepted e he
      have hBelow := hEntry.below
      have hAbove := hPositive e he
      rw [cursorLoop_lookup hCursors, List.lookup_nil, Option.or_none] at hBelow
      rw [List.lookup_nil, Option.getD_none] at hAbove
      cases hCursor : cursorSequence s.buildLogCursors e.batch.authority with
      | none =>
        rw [hCursor, Option.getD_none] at hBelow
        omega
      | some n =>
        rw [hCursor, Option.getD_some] at hBelow
        exact ⟨n, rfl, hBelow⟩

end

def logAuthority (at_ : AttemptIdentity) (buildID : String) : HostingBuildAuthority :=
  { buildID := buildID, runID := at_.runID, leaseID := at_.leaseID, attempt := at_.attempt, fence := at_.fence }

def Operation.logs (a : HostingBuildAuthority) : Operation → Bool
  | .appendBuildLog at_ buildID _ _ _ _ _ => logAuthority at_ buildID == a
  | _ => false

def Operation.completes (s : JournalState) : Operation → Option HostingBuildAuthority
  | .ackBuildCompletion id _ => ((s.build.find? (·.id == id)).bind (·.result)).map (·.authority)
  | _ => none

def nextSequence (s : JournalState) (a : HostingBuildAuthority) : Int :=
  ((cursorSequence s.buildLogCursors a).map (· + 1)).getD 1

section

variable {d : Documents} {s t : JournalState} {j j' : AttemptJournal} {w : WriteResult} {op : Operation}
  {a : HostingBuildAuthority}

theorem appendBuildLog_ne_none {at_ : AttemptIdentity} {buildID component stream message id : String}
    {now : Int} : appendBuildLog d at_ buildID component stream message id now s ≠ .ok none := by
  intro h
  obtain ⟨_, _, -, hSome⟩ := appendBuildLog_ok h
  cases hSome

theorem ackBuildCompletion_ne_none {id : String} {ack : Document} :
    ackBuildCompletion d id ack s ≠ .ok none := by
  intro h
  unfold ackBuildCompletion at h
  split at h
  · cases h
  · simp only [bind_eq_ok, exists_unit, pure_eq_ok] at h
    obtain ⟨-, -, h⟩ := h
    cases h

theorem appendBuildLog_cursor {at_ : AttemptIdentity} {buildID component stream message id : String}
    {now : Int} (h : appendBuildLog d at_ buildID component stream message id now s = .ok (some t)) :
    cursorSequence t.buildLogCursors a =
      if logAuthority at_ buildID = a then some (nextSequence s a) else cursorSequence s.buildLogCursors a := by
  unfold appendBuildLog at h
  simp only [bind_eq_ok, exists_unit, pure_eq_ok, Option.some.injEq] at h
  obtain ⟨-, batch, -, -, rfl⟩ := h
  change cursorSequence (match cursorSequence s.buildLogCursors (logAuthority at_ buildID) with
    | none => s.buildLogCursors ++ [⟨logAuthority at_ buildID, nextSequence s (logAuthority at_ buildID)⟩]
    | some _ => setCursor (logAuthority at_ buildID) (nextSequence s (logAuthority at_ buildID)) s.buildLogCursors)
      a = _
  cases hCursor : cursorSequence s.buildLogCursors (logAuthority at_ buildID) with
  | none =>
    simp only [cursorSequence_append]
    split
    · rename_i hOwn
      rw [hOwn]
    · rfl
  | some n =>
    simp only
    split
    · rename_i hOwn
      rw [hOwn] at hCursor ⊢
      exact setCursor_self _ (hCursor ▸ rfl)
    · rename_i hOther
      exact setCursor_other hOther _ _

theorem Operation.target_cursor (h : op.target d s = .ok (some t)) :
    cursorSequence t.buildLogCursors a =
      if op.logs a then some (nextSequence s a)
      else if op.completes s = some a then none
      else cursorSequence s.buildLogCursors a := by
  cases op with
  | appendBuildLog _ _ _ _ _ _ _ =>
    rw [appendBuildLog_cursor h]
    simp [Operation.logs, Operation.completes]
  | ackBuildCompletion _ _ =>
    obtain ⟨r, hResult, -, rfl⟩ := ackBuildCompletion_some h
    simp [Operation.logs, Operation.completes, hResult, cursorSequence_filter, eq_comm]
  | _ =>
    rw [(Operation.frame h).cursors rfl]
    rfl

end

-- The sequence of the entry that a successful `AppendBuildLog` stores and returns.
def received (d : Documents) (a : HostingBuildAuthority) (j : AttemptJournal) : Step → Option Int
  | .call w op =>
    match op.logs a, call d w op j with
    | true, (.ok (), j') => j'.state.buildLogs.getLast?.map logSequence
    | _, _ => none
  | .reopen => none

def receivedAll (d : Documents) (a : HostingBuildAuthority) : List Step → AttemptJournal → List Int
  | [], _ => []
  | st :: rest, j =>
    (received d a j st).toList ++
      match step d j st with
      | .ok j' => receivedAll d a rest j'
      | .error _ => []

def CompletedIn (d : Documents) (a : HostingBuildAuthority) (steps : List Step) (j : AttemptJournal) : Prop :=
  ∃ before w op after j', steps = before ++ .call w op :: after ∧ runSteps d before j = .ok j' ∧
    (call d w op j').1 = .ok () ∧ op.completes j'.state = some a

section

variable {d : Documents} {s t : JournalState} {j j' : AttemptJournal} {w : WriteResult} {op : Operation}
  {a : HostingBuildAuthority} {bytes : HostingBuildLogBatch → Nat} {truncate : Int → Option Int}

theorem nextSequence_eq (s : JournalState) (a : HostingBuildAuthority) :
    nextSequence s a = (cursorSequence s.buildLogCursors a).getD 0 + 1 := by
  unfold nextSequence
  cases cursorSequence s.buildLogCursors a <;> simp

theorem cursorSequence_of_unversioned (h : t.unversioned = s.unversioned) (a : HostingBuildAuthority) :
    cursorSequence t.buildLogCursors a = cursorSequence s.buildLogCursors a :=
  congrArg (fun u => cursorSequence u.buildLogCursors a) h

theorem Operation.target_logged (hCanonical : d.canonicalHostingBuildLogs = canonicalHostingBuildLogs bytes truncate)
    (h : op.target d s = .ok (some t)) (hLogs : op.logs a = true) :
    t.buildLogs.getLast?.map logSequence = some (nextSequence s a) := by
  cases op with
  | appendBuildLog at_ buildID component stream message id now =>
    have hOwn : logAuthority at_ buildID = a := by simpa [Operation.logs] using hLogs
    unfold Operation.target Journal.appendBuildLog at h
    simp only [bind_eq_ok, exists_unit, pure_eq_ok, Option.some.injEq] at h
    obtain ⟨-, batch, hBatch, -, rfl⟩ := h
    rw [hCanonical] at hBatch
    have hSequence := (canonicalHostingBuildLogs_keeps hBatch).2
    simp only [List.getLast?_append, List.getLast?_singleton, Option.some_or, Option.map_some,
      Option.some.injEq, logSequence]
    cases hEvents : batch.events with
    | nil => simp [hEvents] at hSequence
    | cons _ _ =>
      simp only [hEvents, List.map_cons, List.map_nil, List.cons.injEq] at hSequence
      rw [List.head?_cons, Option.map_some, Option.getD_some, hSequence.1]
      exact congrArg (nextSequence s) hOwn
  | _ => cases hLogs

theorem step_received (hCanonical : d.canonicalHostingBuildLogs = canonicalHostingBuildLogs bytes truncate)
    {st : Step} (hTracked : Tracked d j) (h : step d j st = .ok j')
    (hOpen : ∀ w op, st = .call w op → (call d w op j).1 = .ok () → op.completes j.state ≠ some a) :
    (received d a j st = none ∧
        cursorSequence j'.state.buildLogCursors a = cursorSequence j.state.buildLogCursors a) ∨
      (received d a j st = some (nextSequence j.state a) ∧
        cursorSequence j'.state.buildLogCursors a = some (nextSequence j.state a)) := by
  cases st with
  | reopen =>
    obtain ⟨hOpened, hFile⟩ := openAttemptJournal_tracked h
    refine .inl ⟨rfl, cursorSequence_of_unversioned ?_ a⟩
    rw [hOpened.synced, hFile, ← hTracked.synced]
  | call w op =>
    cases h
    obtain ⟨outcome, j', hCall⟩ : ∃ outcome j', call d w op j = (outcome, j') := ⟨_, _, rfl⟩
    simp only [received, hCall]
    cases outcome with
    | error e =>
      refine .inl ⟨?_, cursorSequence_of_unversioned (call_error_unversioned hCall) a⟩
      split
      · rename_i hEq
        cases hEq
      · rfl
    | ok u =>
      have hKept := hOpen w op rfl (congrArg Prod.fst hCall)
      rcases call_ok hCall with ⟨hNone, rfl⟩ | ⟨t, hTarget, hPersist⟩
      · -- an append of a build log never returns without writing
        have hLogs : op.logs a = false := by
          cases op with
          | appendBuildLog _ _ _ _ _ _ _ =>
            exact absurd hNone appendBuildLog_ne_none
          | _ => rfl
        exact .inl ⟨by rw [hLogs], rfl⟩
      · have hSame := persistLocked_unversioned hPersist
        have hCursor := Operation.target_cursor (a := a) hTarget
        rw [← cursorSequence_of_unversioned hSame, if_neg hKept] at hCursor
        cases hLogs : op.logs a with
        | false =>
          rw [hLogs] at hCursor
          exact .inl ⟨rfl, hCursor⟩
        | true =>
          rw [hLogs] at hCursor
          refine .inr ⟨?_, hCursor⟩
          have hLogged := Operation.target_logged hCanonical hTarget hLogs
          have hStored : j'.state.unversioned.buildLogs = t.unversioned.buildLogs := by rw [hSame]
          change j'.state.buildLogs = t.buildLogs at hStored
          simp only [hStored, hLogged]

theorem receivedAll_eq (hCanonical : d.canonicalHostingBuildLogs = canonicalHostingBuildLogs bytes truncate)
    {steps : List Step} (hTracked : Tracked d j) (hSynced : ∀ st ∈ steps, st.Synced)
    (hRun : runSteps d steps j = .ok j') (hOpen : ¬CompletedIn d a steps j) :
    receivedAll d a steps j = (List.range (receivedAll d a steps j).length).map fun i : Nat =>
      (cursorSequence j.state.buildLogCursors a).getD 0 + i + 1 := by
  induction steps generalizing j with
  | nil => rfl
  | cons st rest ih =>
    simp only [runSteps, bind_eq_ok] at hRun
    obtain ⟨j₁, hStep, hRest⟩ := hRun
    have hFirst : ∀ w op, st = .call w op → (call d w op j).1 = .ok () → op.completes j.state ≠ some a := by
      rintro w op rfl hOk hCompletes
      exact hOpen ⟨[], w, op, rest, j, rfl, rfl, hOk, hCompletes⟩
    have hLater : ¬CompletedIn d a rest j₁ := by
      rintro ⟨before, w, op, after, j₂, rfl, hBefore, hOk, hCompletes⟩
      refine hOpen ⟨st :: before, w, op, after, j₂, rfl, ?_, hOk, hCompletes⟩
      simp only [runSteps, bind_eq_ok]
      exact ⟨j₁, hStep, hBefore⟩
    have hNext := step_tracked hTracked (hSynced st List.mem_cons_self) hStep
    have hRestEq := ih hNext (fun st' hMem => hSynced st' (List.mem_cons_of_mem _ hMem)) hRest hLater
    simp only [receivedAll, hStep]
    rcases step_received hCanonical hTracked hStep hFirst with ⟨hNone, hCursor⟩ | ⟨hSome, hCursor⟩
    · rw [hNone, Option.toList_none, List.nil_append, ← hCursor]
      exact hRestEq
    · rw [hSome, Option.toList_some, List.singleton_append, List.length_cons, List.range_succ_eq_map,
        List.map_cons, List.map_map]
      rw [hCursor, Option.getD_some, nextSequence_eq] at hRestEq
      refine congr (congrArg List.cons ?_) ?_
      · rw [nextSequence_eq]
        simp
      · refine hRestEq.trans (List.map_congr_left fun i _ => ?_)
        simp only [Function.comp_apply]
        omega

end

-- In every run in which no write reports an error after it replaced the file, an authority is given 1, 2, 3, ...
-- until its completion is acknowledged, and no completion is acknowledged over a pending event.
theorem build_logs_sequenced (d : Documents) (bytes : HostingBuildLogBatch → Nat) (truncate : Int → Option Int)
    (hCanonical : d.canonicalHostingBuildLogs = canonicalHostingBuildLogs bytes truncate)
    (file : Option JournalState) (before steps : List Step) (j₀ j₁ j₂ : AttemptJournal)
    (hOpened : openAttemptJournal d file = .ok j₀) (hBefore : runSteps d before j₀ = .ok j₁)
    (hRun : runSteps d steps j₁ = .ok j₂) (hSynced : ∀ st ∈ before ++ steps, st.Synced) :
    (∀ a, cursorSequence j₁.state.buildLogCursors a = none → ¬CompletedIn d a steps j₁ →
        receivedAll d a steps j₁ =
          (List.range (receivedAll d a steps j₁).length).map fun i : Nat => (i : Int) + 1) ∧
      LogsOrdered j₂.state ∧
      ∀ w id ack a, (call d w (.ackBuildCompletion id ack) j₂).1 = .ok () →
        (Operation.ackBuildCompletion id ack).completes j₂.state = some a →
        ∀ e ∈ j₂.state.buildLogs, e.batch.authority ≠ a := by
  have hTracked₁ : Tracked d j₁ :=
    opened_tracked hOpened (fun st hMem => hSynced st (List.mem_append_left _ hMem)) hBefore
  have hSteps : ∀ st ∈ steps, st.Synced := fun st hMem => hSynced st (List.mem_append_right _ hMem)
  refine ⟨?_, (runSteps_tracked hTracked₁ hSteps hRun).validated.logsOrdered, ?_⟩
  · intro a hCursor hOpen
    have hAll := receivedAll_eq hCanonical hTracked₁ hSteps hRun hOpen
    simpa [hCursor] using hAll
  · intro w id ack a hOk hCompletes e he
    obtain ⟨outcome, j', hCall⟩ : ∃ outcome j', call d w (.ackBuildCompletion id ack) j₂ = (outcome, j') :=
      ⟨_, _, rfl⟩
    rw [hCall] at hOk
    cases hOk
    rcases call_ok hCall with ⟨hNone, -⟩ | ⟨t, hTarget, -⟩
    · exact absurd hNone ackBuildCompletion_ne_none
    · obtain ⟨r, hResult, hPending, -⟩ := ackBuildCompletion_some hTarget
      have hAuthority : r.authority = a := by simpa [Operation.completes, hResult] using hCompletes
      exact hAuthority ▸ hPending e he

def loggingDocuments : Documents :=
  { acceptingDocuments with canonicalHostingBuildLogs := canonicalHostingBuildLogs (fun _ => 0) some }

def buildAttempt : AttemptIdentity := { sampleAttempt with runID := "build_run_b" }

def buildIntent : JournalBuild :=
  { id := "intent", attempt := buildAttempt, buildID := "b", phase := "attempt_intent", inputHash := "",
    source := none, result := none, createdAt := 1 }

def buildLine (id : String) : Operation := .appendBuildLog buildAttempt "b" "build" "stdout" "" id 1

def firstLine : HostingBuildLogBatch :=
  { authority := logAuthority buildAttempt "b",
    events := [{ eventKey := "log1", sequence := 1, component := "build", stream := "stdout", message := "",
                 sourceTimestamp := none }] }

-- Sequence 2 follows 1 although event 1 was acknowledged and the journal opened again.
def loggedSteps : List Step :=
  [.call .written (buildLine "log1"), .call .written (.ackBuildLogs firstLine ""), .reopen,
   .call (.failed "no space left on device") (buildLine "log2"), .call .written (buildLine "log3")]

def intentJournal : AttemptJournal where
  state := { build := [buildIntent], version := 5 }
  file := some { build := [buildIntent], version := 5 }

def loggedState : JournalState where
  build := [buildIntent]
  buildLogs :=
    [{ id := "log3", attempt := buildAttempt, createdAt := 1,
       batch := { authority := logAuthority buildAttempt "b",
                  events := [{ eventKey := "log3", sequence := 2, component := "build", stream := "stdout",
                               message := "", sourceTimestamp := none }] } }]
  buildLogCursors := [{ authority := logAuthority buildAttempt "b", lastSequence := 2 }]
  version := 7

theorem build_logs_sequenced_sample :
    runSteps loggingDocuments loggedSteps intentJournal = .ok ⟨loggedState, some loggedState⟩ ∧
      receivedAll loggingDocuments (logAuthority buildAttempt "b") loggedSteps intentJournal = [1, 2] ∧
      LogsOrdered loggedState := by
  have hIntent : runSteps loggingDocuments [.call .written (.appendBuild buildIntent)] {} = .ok intentJournal := by
    decide +kernel
  have hRun : runSteps loggingDocuments loggedSteps intentJournal = .ok ⟨loggedState, some loggedState⟩ := by
    decide +kernel
  have hSynced : ∀ st ∈ [Step.call .written (.appendBuild buildIntent)] ++ loggedSteps, st.Synced := by
    simp [loggedSteps, Step.Synced]
  have hOpen : ¬CompletedIn loggingDocuments (logAuthority buildAttempt "b") loggedSteps intentJournal := by
    rintro ⟨before, w, op, after, j', hSplit, -, -, hCompletes⟩
    have hMem : Step.call w op ∈ loggedSteps := by simp [hSplit]
    simp only [loggedSteps, buildLine, List.mem_cons, Step.call.injEq, reduceCtorEq, List.not_mem_nil,
      or_false, false_or] at hMem
    rcases hMem with ⟨-, rfl⟩ | ⟨-, rfl⟩ | ⟨-, rfl⟩ | ⟨-, rfl⟩ <;> cases hCompletes
  have hAll := build_logs_sequenced loggingDocuments (fun _ => 0) some rfl none
    [.call .written (.appendBuild buildIntent)] loggedSteps {} intentJournal ⟨loggedState, some loggedState⟩
    rfl hIntent hRun hSynced
  refine ⟨hRun, ?_, hAll.2.1⟩
  have hLength : (receivedAll loggingDocuments (logAuthority buildAttempt "b") loggedSteps intentJournal).length = 2 := by
    decide +kernel
  rw [hAll.1 _ (by decide +kernel) hOpen, hLength]
  rfl

-- A log whose write replaced the file before it failed: the call returns an error and forgets the
-- sequence, the journal that is opened again does not, and the first log that succeeds is given 2.
theorem unsynced_log_skips_sequence :
    runSteps loggingDocuments [.call .written (.appendBuild buildIntent)] {} = .ok intentJournal ∧
      cursorSequence intentJournal.state.buildLogCursors (logAuthority buildAttempt "b") = none ∧
      (call loggingDocuments (.unsynced "input/output error") (buildLine "log1") intentJournal).1 =
        .error "input/output error" ∧
      receivedAll loggingDocuments (logAuthority buildAttempt "b")
        [.call (.unsynced "input/output error") (buildLine "log1"), .reopen,
         .call .written (buildLine "log2")] intentJournal = [2] := by
  decide +kernel

end NeroCD.Journal
