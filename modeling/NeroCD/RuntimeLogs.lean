import Mathlib.Data.List.GetD
import NeroCD.Redactor.Theorems
import NeroCD.Utf8

-- Framing of a container's log (`runnerruntime/docker_runtime_logs.go`). The parser of timestamps and the receiver of
-- the events are parameters.

namespace NeroCD.RuntimeLogs

open NeroCD.Redaction NeroCD.Framing NeroCD.Utf8

def messageLimit : Nat := 16 <<< 10

structure LogEvent (T : Type) where
  component : String
  stream : String
  message : Bytes
  messageTruncated : Bool
  sourceTimestamp : Option T
deriving DecidableEq

section Model

variable {T : Type} (grow : Nat → Nat) (parse : Bytes → Option T) (accepts : List (LogEvent T) → LogEvent T → Bool)

def stampOf (message : Bytes) : Option (T × Bytes) :=
  match message.findIdx? (· == 32) with
  | none => none
  | some space => (parse (message.take space)).map fun stamp => (stamp, message.drop (space + 1))

def logEvent (stream : String) (fragment : Bytes × Bool) : LogEvent T :=
  match stampOf parse fragment.1 with
  | some (stamp, remainder) => ⟨"application", stream, remainder, fragment.2, some stamp⟩
  | none => ⟨"application", stream, fragment.1, fragment.2, none⟩

def clipEnd (line : Bytes) : Nat → Nat
  | 0 => 0
  | n + 1 => if runeStart (line.getD (n + 1) 0) then n + 1 else clipEnd line n

-- A cut of no length would be made forever; the text is valid, and there is none.
def clipLine (line : Bytes) : Option ((Bytes × Bool) × Nat) :=
  let n := clipEnd line messageLimit
  if n = 0 then none else some ((line.take n, true), n)

def cutLine (line : Bytes) : Option ((Bytes × Bool) × Nat) :=
  match line.findIdx? (· == 10) with
  | none => if line.length ≤ messageLimit then none else clipLine line
  | some newline =>
    if newline + 1 > messageLimit then clipLine line else some ((line.take (newline + 1), false), newline + 1)

structure Framer (T : Type) where
  redactor : Redactor
  lines : String → Bytes := fun _ => []
  utf8tails : String → Bytes := fun _ => []
  emitted : List (LogEvent T) := []

def newFramer (token : Bytes) : Framer T := { redactor := newRedactor [⟨token, ["base64", "base64url", "hex"]⟩] }

def deliver : List (LogEvent T) → List (LogEvent T) → List (LogEvent T) × Bool
  | emitted, [] => (emitted, true)
  | emitted, event :: events =>
    if accepts emitted event then deliver (emitted ++ [event]) events else (emitted, false)

def chunk (f : Framer T) (stream : String) (raw : Bytes) : Framer T × Bool :=
  let (redactor, safe) := redactChunk grow f.redactor stream raw
  let (runes, tail) := drain (cutRune false) (f.utf8tails stream ++ safe)
  let (fragments, rest) := drain cutLine (f.lines stream ++ runes.flatten)
  let (emitted, ok) := deliver accepts f.emitted (fragments.map (logEvent parse stream))
  ({ redactor
     lines := Function.update f.lines stream (if ok then rest else [])
     utf8tails := Function.update f.utf8tails stream tail
     emitted }, ok)

def chunkAll : Framer T → List (String × Bytes) → Framer T × Bool
  | f, [] => (f, true)
  | f, (stream, raw) :: calls =>
    match chunk grow parse accepts f stream raw with
    | (f, false) => (f, false)
    | (f, true) => chunkAll f calls

end Model

def eventsOf {T : Type} (stream : String) (events : List (LogEvent T)) : List (LogEvent T) :=
  events.filter (·.stream = stream)

section Cut

theorem clipEnd_spec (line : Bytes) (n : Nat) :
    clipEnd line n ≤ n ∧ (clipEnd line n ≠ 0 → runeStart (line.getD (clipEnd line n) 0) = true) ∧
      ∀ k, k ≤ n → runeStart (line.getD k 0) = true → k ≤ clipEnd line n := by
  induction n with
  | zero => exact ⟨Nat.le_refl 0, fun h => absurd rfl h, fun k hk _ => hk⟩
  | succ n ih =>
    rw [clipEnd]
    split
    · rename_i hStart
      exact ⟨Nat.le_refl _, fun _ => hStart, fun k hk _ => hk⟩
    · rename_i hNot
      refine ⟨Nat.le_succ_of_le ih.1, ih.2.1, fun k hk hStart => ih.2.2 k ?_ hStart⟩
      have hOther : k ≠ n + 1 := fun h => hNot (h ▸ hStart)
      omega

theorem clipEnd_append {line : Bytes} {n : Nat} (h : n < line.length) (more : Bytes) :
    clipEnd (line ++ more) n = clipEnd line n := by
  induction n with
  | zero => rfl
  | succ n ih => rw [clipEnd, clipEnd, List.getD_append _ _ _ _ h, ih (by omega)]

theorem cutLine_eq (line : Bytes) :
    cutLine line =
      match (line.take messageLimit).findIdx? (· == 10) with
      | some newline => some ((line.take (newline + 1), false), newline + 1)
      | none => if line.length ≤ messageLimit then none else clipLine line := by
  unfold cutLine
  rw [List.findIdx?_take]
  cases hFound : line.findIdx? (· == 10) with
  | none => rfl
  | some newline =>
    obtain ⟨hLess, -⟩ := List.findIdx?_eq_some_iff_getElem.mp hFound
    by_cases hNear : newline < messageLimit
    · simp [Option.guard, hNear, Nat.not_lt_of_le (Nat.succ_le_of_lt hNear)]
    · simp only [Option.bind_some, Option.guard, hNear, decide_false, Bool.false_eq_true, if_false]
      rw [if_pos (by omega), if_neg (by omega)]

theorem cutLine_consumes : Consumes cutLine := by
  intro line fragment n h
  have hEnd := (clipEnd_spec line messageLimit).1
  rw [cutLine_eq] at h
  split at h
  · rename_i newline hFound
    cases h
    obtain ⟨hLess, -⟩ := List.findIdx?_eq_some_iff_getElem.mp hFound
    rw [List.length_take] at hLess
    omega
  · split at h
    · cases h
    · simp only [clipLine, Option.ite_none_left_eq_some, Option.some.injEq, Prod.mk.injEq] at h
      omega

theorem cutLine_stable : Stable cutLine := by
  intro line fragment n h more
  rw [cutLine_eq] at h ⊢
  split at h
  · rename_i newline hFound
    obtain ⟨hLess, -⟩ := List.findIdx?_eq_some_iff_getElem.mp hFound
    rw [List.length_take] at hLess
    rw [List.take_append, List.findIdx?_append, hFound]
    simp only [Option.some_or]
    rw [List.take_append_of_le_length (by omega)]
    exact h
  · rename_i hNone
    split at h
    · cases h
    · have hEnd := (clipEnd_spec line messageLimit).1
      rw [List.take_append_of_le_length (by omega), hNone]
      simp only [clipLine, List.length_append] at h ⊢
      rw [if_neg (by omega), clipEnd_append (by omega), List.take_append_of_le_length (by omega)]
      exact h

theorem clipEnd_valid {line : Bytes} (h : Valid line) (hLong : messageLimit < line.length) :
    messageLimit ≤ clipEnd line messageLimit + 3 ∧ Valid (line.take (clipEnd line messageLimit)) ∧
      Valid (line.drop (clipEnd line messageLimit)) := by
  obtain ⟨hEnd, hStart, hLast⟩ := clipEnd_spec line messageLimit
  have hHead : ∀ k, k < line.length → (line.drop k).head? = some (line.getD k 0) := by
    intro k hk
    rw [List.head?_drop, List.getD_eq_getElem?_getD, List.getElem?_eq_getElem hk, Option.getD_some]
  have hNear : messageLimit ≤ clipEnd line messageLimit + 3 := by
    by_cases hAt : runeStart (line.getD messageLimit 0) = true
    · have hSame := hLast messageLimit (Nat.le_refl _) hAt
      omega
    · obtain ⟨start, hBefore, hClose, ⟨b, hb, hRune⟩, -⟩ :=
        h.unfinished ⟨_, hHead messageLimit hLong, Bool.eq_false_iff.mpr hAt⟩
      have hFound := hLast start (by omega) (by rw [List.getD_eq_getElem?_getD, hb]; exact hRune)
      omega
  have hLimit : 3 < messageLimit := by decide
  refine ⟨hNear, h.split fun b hb => ?_⟩
  rw [hHead _ (by omega)] at hb
  exact Option.some.inj hb ▸ hStart (by omega)

structure Plain (text : Bytes) : Prop where
  valid : Valid text
  noNul : 0 ∉ text

theorem Plain.append {text more : Bytes} (h : Plain text) (hMore : Plain more) : Plain (text ++ more) :=
  ⟨h.valid.append hMore.valid, fun hMem => (List.mem_append.mp hMem).elim h.noNul hMore.noNul⟩

theorem plain_runes {runes : List Bytes} (h : ∀ rune ∈ runes, Rune rune) : Plain runes.flatten := by
  induction runes with
  | nil => exact ⟨.nil, List.not_mem_nil⟩
  | cons _ _ ih =>
    obtain ⟨hRune, hRunes⟩ := List.forall_mem_cons.mp h
    have hValid := Valid.rune_append hRune.width .nil
    rw [hRune.whole, List.take_length, List.append_nil] at hValid
    exact Plain.append ⟨hValid, hRune.noNul⟩ (ih hRunes)

theorem cutLine_plain {line : Bytes} {fragment : Bytes × Bool} {n : Nat} (h : Plain line)
    (hCut : cutLine line = some (fragment, n)) :
    (Plain fragment.1 ∧ fragment.1.length ≤ messageLimit) ∧ Plain (line.drop n) := by
  have hBounds := cutLine_consumes _ _ _ hCut
  have hParts : fragment.1 = line.take n ∧ n ≤ messageLimit ∧ Valid (line.take n) ∧ Valid (line.drop n) := by
    rw [cutLine_eq] at hCut
    split at hCut
    · rename_i newline hFound
      cases hCut
      obtain ⟨hLess, hNewline, -⟩ := List.findIdx?_eq_some_iff_getElem.mp hFound
      rw [List.length_take] at hLess
      rw [List.getElem_take, beq_iff_eq] at hNewline
      have hAt : (line)[newline]? = some 10 := List.getElem?_eq_some_iff.mpr ⟨by omega, hNewline⟩
      obtain ⟨hTake, hDrop⟩ := h.valid.part hAt (by decide)
      refine ⟨rfl, by omega, ?_, hDrop⟩
      rw [List.take_add_one, hAt]
      exact hTake.append (.cons [10] (by decide) .nil)
    · split at hCut
      · cases hCut
      · simp only [clipLine, Option.ite_none_left_eq_some, Option.some.injEq, Prod.mk.injEq] at hCut
        obtain ⟨-, rfl, rfl⟩ := hCut
        exact ⟨rfl, (clipEnd_spec line messageLimit).1, (clipEnd_valid h.valid (by omega)).2⟩
  obtain ⟨hFragment, hShort, hTake, hDrop⟩ := hParts
  rw [hFragment]
  refine ⟨⟨⟨hTake, fun hMem => h.noNul (List.mem_of_mem_take hMem)⟩, ?_⟩, hDrop,
    fun hMem => h.noNul (List.mem_of_mem_drop hMem)⟩
  rw [List.length_take]
  omega

theorem cutLine_none {line : Bytes} (h : Valid line) (hCut : cutLine line = none) : line.length ≤ messageLimit := by
  rw [cutLine_eq] at hCut
  split at hCut
  · cases hCut
  · split at hCut
    · assumption
    · have hLimit : 3 < messageLimit := by decide
      have hNear := (clipEnd_valid h (by omega)).1
      rw [clipLine, if_neg (by omega)] at hCut
      cases hCut

end Cut

section Events

variable {T : Type} {grow : Nat → Nat} {parse : Bytes → Option T} {accepts : List (LogEvent T) → LogEvent T → Bool}

theorem logEvent_message (parse : Bytes → Option T) (stream : String) (fragment : Bytes × Bool) :
    (logEvent parse stream fragment).message = fragment.1 ∨
      ∃ space, fragment.1[space]? = some 32 ∧
        (logEvent parse stream fragment).message = fragment.1.drop (space + 1) := by
  unfold logEvent
  split
  · rename_i stamp remainder hStamp
    unfold stampOf at hStamp
    split at hStamp
    · cases hStamp
    · rename_i space hSpace
      obtain ⟨hLess, hFound, -⟩ := List.findIdx?_eq_some_iff_getElem.mp hSpace
      obtain ⟨_, -, hPair⟩ := Option.map_eq_some_iff.mp hStamp
      cases hPair
      exact .inr ⟨space, by rw [List.getElem?_eq_getElem hLess, beq_iff_eq.mp hFound], rfl⟩
  · exact .inl rfl

theorem logEvent_good {fragment : Bytes × Bool} (h : Plain fragment.1 ∧ fragment.1.length ≤ messageLimit)
    (stream : String) :
    Plain (logEvent parse stream fragment).message ∧
      (logEvent parse stream fragment).message.length ≤ messageLimit := by
  rcases logEvent_message parse stream fragment with hWhole | ⟨space, hSpace, hRest⟩
  · rwa [hWhole]
  · rw [hRest, List.length_drop]
    exact ⟨⟨(h.1.valid.part hSpace (by decide)).2, fun hMem => h.1.noNul (List.mem_of_mem_drop hMem)⟩, by omega⟩

theorem deliver_prefix (accepts : List (LogEvent T) → LogEvent T → Bool) (events emitted : List (LogEvent T)) :
    ∃ sent, sent <+: events ∧ (deliver accepts emitted events).1 = emitted ++ sent ∧
      ((deliver accepts emitted events).2 = true → sent = events) := by
  induction events generalizing emitted with
  | nil => exact ⟨[], List.prefix_rfl, (List.append_nil _).symm, fun _ => rfl⟩
  | cons event _ ih =>
    rw [deliver]
    split
    · obtain ⟨sent, hSent, hEmitted, hAll⟩ := ih (emitted ++ [event])
      refine ⟨event :: sent, List.cons_prefix_cons.mpr ⟨rfl, hSent⟩, ?_, fun hOk => by rw [hAll hOk]⟩
      rw [hEmitted, List.append_assoc, List.singleton_append]
    · exact ⟨[], List.nil_prefix, (List.append_nil _).symm, nofun⟩

theorem eventsOf_logEvents (stream other : String) (fragments : List (Bytes × Bool)) :
    eventsOf stream (fragments.map (logEvent parse other)) =
      if other = stream then fragments.map (logEvent parse other) else [] := by
  have hStream : ∀ fragment, (logEvent parse other fragment).stream = other := by
    intro fragment
    unfold logEvent
    split <;> rfl
  unfold eventsOf
  split
  · rename_i hSame
    exact List.filter_eq_self.mpr fun event hEvent => by
      obtain ⟨fragment, -, rfl⟩ := List.mem_map.mp hEvent
      exact decide_eq_true ((hStream fragment).trans hSame)
  · rename_i hOther
    exact List.filter_eq_nil_iff.mpr fun event hEvent => by
      obtain ⟨fragment, -, rfl⟩ := List.mem_map.mp hEvent
      rw [hStream fragment, decide_eq_true_eq]
      exact hOther

end Events

section Runs

variable {T : Type} {grow : Nat → Nat} {parse : Bytes → Option T} {accepts : List (LogEvent T) → LogEvent T → Bool}

def readable (text : Bytes) : Bytes := (drain (cutRune false) text).1.flatten

def fragments (text : Bytes) : List (Bytes × Bool) := (drain cutLine (readable text)).1

theorem readable_append (text more : Bytes) :
    readable (text ++ more) =
      readable text ++ (drain (cutRune false) ((drain (cutRune false) text).2 ++ more)).1.flatten := by
  rw [readable, drain_append (cutRune_consumes false) cutRune_stable, List.flatten_append]
  rfl

structure Follows (parse : Bytes → Option T) (f : Framer T) (texts : String → Bytes) : Prop where
  tails : ∀ stream, f.utf8tails stream = (drain (cutRune false) (texts stream)).2
  lines : ∀ stream, f.lines stream = (drain cutLine (readable (texts stream))).2
  emitted : ∀ stream, eventsOf stream f.emitted = (fragments (texts stream)).map (logEvent parse stream)

theorem chunk_follows {f f' : Framer T} {texts : String → Bytes} (h : Follows parse f texts) {stream : String}
    {raw : Bytes} (hChunk : chunk grow parse accepts f stream raw = (f', true)) :
    Follows parse f' (Function.update texts stream (texts stream ++ (redactChunk grow f.redactor stream raw).2)) ∧
      f'.redactor = (redactChunk grow f.redactor stream raw).1 := by
  generalize hSafe : (redactChunk grow f.redactor stream raw).2 = safe
  have hRunes := readable_append (texts stream) safe
  have hLines := drain_append cutLine_consumes cutLine_stable (readable (texts stream))
    (drain (cutRune false) ((drain (cutRune false) (texts stream)).2 ++ safe)).1.flatten
  rw [← hRunes] at hLines
  unfold chunk at hChunk
  simp only [hSafe, h.tails stream, h.lines stream] at hChunk
  obtain ⟨sent, -, hEmitted, hAll⟩ := deliver_prefix accepts
    ((drain cutLine ((drain cutLine (readable (texts stream))).2 ++
      (drain (cutRune false) ((drain (cutRune false) (texts stream)).2 ++ safe)).1.flatten)).1.map
        (logEvent parse stream)) f.emitted
  obtain ⟨rfl, hOk⟩ := Prod.mk.inj hChunk
  rw [hAll hOk] at hEmitted
  refine ⟨⟨fun other => ?_, fun other => ?_, fun other => ?_⟩, rfl⟩
  · simp only [Function.update_apply]
    split
    · rw [drain_append (cutRune_consumes false) cutRune_stable (texts stream) safe]
    · exact h.tails other
  · simp only [hOk, if_true, Function.update_apply]
    split
    · rw [hLines]
    · exact h.lines other
  · rw [hEmitted, eventsOf, List.filter_append]
    change eventsOf other f.emitted ++ eventsOf other _ = _
    rw [h.emitted other, eventsOf_logEvents, Function.update_apply]
    by_cases hOther : other = stream
    · subst hOther
      rw [if_pos rfl, if_pos rfl, fragments, fragments, hLines, List.map_append]
    · rw [if_neg (Ne.symm hOther), if_neg hOther, List.append_nil]

theorem chunkAll_follows {f f' : Framer T} {texts : String → Bytes} (h : Follows parse f texts)
    {calls : List (String × Bytes)} (hCalls : chunkAll grow parse accepts f calls = (f', true)) :
    Follows parse f' (fun stream => texts stream ++ textOf stream (runChunks grow f.redactor calls).2) := by
  induction calls generalizing f texts with
  | nil =>
    cases hCalls
    simpa [runChunks, textOf] using h
  | cons call _ ih =>
    obtain ⟨name, raw⟩ := call
    rw [chunkAll] at hCalls
    split at hCalls
    · cases hCalls
    · rename_i next hChunk
      obtain ⟨hNext, hRedactor⟩ := chunk_follows h hChunk
      have hRest := ih hNext hCalls
      rw [hRedactor] at hRest
      convert hRest using 2 with stream
      simp only [runChunks, textOf_cons, Function.update_apply]
      by_cases hName : name = stream
      · subst hName
        simp
      · simp [hName, Ne.symm hName]

structure Bounded (f : Framer T) : Prop where
  lines : ∀ stream, Plain (f.lines stream) ∧ (f.lines stream).length ≤ messageLimit
  emitted : ∀ event ∈ f.emitted, Plain event.message ∧ event.message.length ≤ messageLimit

variable (grow parse accepts) in
theorem chunk_bounded {f : Framer T} (h : Bounded f) (stream : String) (raw : Bytes) :
    Bounded (chunk grow parse accepts f stream raw).1 := by
  unfold chunk
  dsimp only
  generalize (redactChunk grow f.redactor stream raw).2 = safe
  have hRunes : ∀ rune ∈ (drain (cutRune false) (f.utf8tails stream ++ safe)).1, Rune rune :=
    (forall_pieces (P := fun _ => True) (cutRune_consumes false)
      (fun _ _ _ _ hCut => ⟨cutRune_rune hCut, trivial⟩) trivial).1
  obtain ⟨hFragments, hRest⟩ := forall_pieces cutLine_consumes (fun _ _ _ => cutLine_plain)
    ((h.lines stream).1.append (plain_runes hRunes))
  have hNone := cutLine_none hRest.valid (cut_rest cutLine_consumes _)
  refine ⟨fun other => ?_, ?_⟩
  · simp only [Function.update_apply]
    split
    · split
      · exact ⟨hRest, hNone⟩
      · exact ⟨⟨.nil, List.not_mem_nil⟩, Nat.zero_le _⟩
    · exact h.lines other
  · obtain ⟨sent, hSent, hEmitted, -⟩ := deliver_prefix accepts
      ((drain cutLine (f.lines stream ++ (drain (cutRune false) (f.utf8tails stream ++ safe)).1.flatten)).1.map
        (logEvent parse stream)) f.emitted
    rw [hEmitted, List.forall_mem_append]
    refine ⟨h.emitted, fun event hEvent => ?_⟩
    obtain ⟨fragment, hFragment, rfl⟩ := List.mem_map.mp (hSent.subset hEvent)
    exact logEvent_good (hFragments fragment hFragment) stream

variable (grow parse accepts) in
theorem chunkAll_bounded {f : Framer T} (h : Bounded f) (calls : List (String × Bytes)) :
    Bounded (chunkAll grow parse accepts f calls).1 := by
  induction calls generalizing f with
  | nil => exact h
  | cons call _ ih =>
    have hNext := chunk_bounded grow parse accepts h call.1 call.2
    rw [chunkAll]
    split
    · rename_i hChunk
      rwa [hChunk] at hNext
    · rename_i hChunk
      rw [hChunk] at hNext
      exact ih hNext

theorem follows_new (token : Bytes) : Follows parse (newFramer token) (fun _ => []) :=
  ⟨fun _ => rfl, fun _ => rfl, fun _ => rfl⟩

theorem bounded_new (token : Bytes) : Bounded (newFramer token : Framer T) :=
  ⟨fun _ => ⟨⟨.nil, List.not_mem_nil⟩, Nat.zero_le _⟩, nofun⟩

end Runs

-- Whatever the chunks, a stream's events follow from what the redactor gives out for it; every message is valid, free
-- of NUL and within the limit, and so is the line that is held.
theorem runtime_framing_independent {T : Type} (grow : Nat → Nat) (parse : Bytes → Option T)
    (accepts : List (LogEvent T) → LogEvent T → Bool) (token : Bytes) :
    (∀ accepts' calls calls' f f' stream, chunkAll grow parse accepts (newFramer token) calls = (f, true) →
      chunkAll grow parse accepts' (newFramer token) calls' = (f', true) →
      textOf stream (runChunks grow (newFramer token : Framer T).redactor calls).2 =
        textOf stream (runChunks grow (newFramer token : Framer T).redactor calls').2 →
      eventsOf stream f.emitted = eventsOf stream f'.emitted) ∧
    ∀ calls, (∀ event ∈ (chunkAll grow parse accepts (newFramer token) calls).1.emitted,
        Valid event.message ∧ 0 ∉ event.message ∧ event.message.length ≤ messageLimit) ∧
      ∀ stream, ((chunkAll grow parse accepts (newFramer token) calls).1.lines stream).length ≤ messageLimit := by
  refine ⟨fun accepts' calls calls' f f' stream hRun hRun' hSame => ?_, fun calls => ?_⟩
  · rw [(chunkAll_follows (follows_new token) hRun).emitted stream,
      (chunkAll_follows (follows_new token) hRun').emitted stream, hSame]
  · have hBounded := chunkAll_bounded grow parse accepts (bounded_new token) calls
    refine ⟨fun event hEvent => ?_, fun stream => (hBounded.lines stream).2⟩
    obtain ⟨hPlain, hShort⟩ := hBounded.emitted event hEvent
    exact ⟨hPlain.valid, hPlain.noNul, hShort⟩

def noStamp : Bytes → Option Unit := fun _ => none

-- A line in one chunk and in two, the other stream in between.
theorem same_line_in_two_chunks :
    eventsOf "stdout"
        (chunkAll id noStamp (fun _ _ => true) (newFramer []) [("stdout", [97, 98, 10])]).1.emitted =
      eventsOf "stdout" (chunkAll id noStamp (fun _ _ => true) (newFramer [])
        [("stdout", [97]), ("stderr", [120]), ("stdout", [98, 10])]).1.emitted :=
  (runtime_framing_independent id noStamp (fun _ _ => true) []).1 (fun _ _ => true) _ _ _ _ "stdout"
    (Prod.ext rfl (by decide +kernel)) (Prod.ext rfl (by decide +kernel)) (by decide +kernel)

end NeroCD.RuntimeLogs
