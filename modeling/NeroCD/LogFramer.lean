import NeroCD.Redactor.Theorems
import NeroCD.Utf8

-- Framing of a process's output (`runnerruntime/log_framer.go`).

namespace NeroCD.LogFramer

open NeroCD.Redaction (ProcessEvent textOf textOf_cons)
open NeroCD.Framing NeroCD.Utf8

def maxProcessLogRecordBytes : Nat := 32 <<< 10

def trimSuffix (text : Bytes) (last : UInt8) : Bytes := if text.getLast? = some last then text.dropLast else text

-- Where an unfinished rune starts in the last three bytes of the text up to its end, the end moves there.
def finishedEnd (text : Bytes) : Nat :=
  ((List.range' (text.length - 3) (text.length - (text.length - 3))).find? fun start =>
    runeStart (text.getD start 0) && !fullRune (text.drop start)).getD text.length

def awaitsNewline (stream : String) : Bool := stream == "stdout" || stream == "stderr"

-- The record before invalid bytes are replaced, and the bytes that it takes.
def cutRecord (stream : String) (final : Bool) (text : Bytes) : Option (Bytes × Nat) :=
  if text = [] then none
  else
    let limit := min text.length maxProcessLogRecordBytes
    match (text.take limit).findIdx? (· == 10) with
    | some newline => some (trimSuffix (trimSuffix (text.take (newline + 1)) 10) 13, newline + 1)
    | none =>
      if !final && text.length < maxProcessLogRecordBytes && awaitsNewline stream then none
      else
        let stop := if !final || limit < text.length then finishedEnd (text.take limit) else limit
        if stop = 0 then none else some (text.take stop, stop)

def recordEvents (stream : String) (records : List Bytes) : List ProcessEvent :=
  ((records.map toValidUTF8).filter (· ≠ [])).map (ProcessEvent.mk stream)

def drainStream (stream : String) (final : Bool) (text : Bytes) : List ProcessEvent × Bytes :=
  let (records, rest) := drain (cutRecord stream final) text
  (recordEvents stream records, rest)

structure ProcessLogFramer where
  pending : String → Option Bytes := fun _ => none
  order : List String := []

def ProcessLogFramer.held (f : ProcessLogFramer) (stream : String) : Bytes := (f.pending stream).getD []

def push (f : ProcessLogFramer) (stream : String) (text : Bytes) : ProcessLogFramer × List ProcessEvent :=
  let order := if (f.pending stream).isNone then f.order ++ [stream] else f.order
  let (events, rest) := drainStream stream false (f.held stream ++ text)
  ({ pending := Function.update f.pending stream (some rest), order }, events)

def flush (f : ProcessLogFramer) : ProcessLogFramer × List ProcessEvent :=
  ({}, f.order.flatMap fun stream => (drainStream stream true (f.held stream)).1)

def pushAll : ProcessLogFramer → List (String × Bytes) → ProcessLogFramer × List ProcessEvent
  | f, [] => (f, [])
  | f, (stream, text) :: calls =>
    let (f, events) := push f stream text
    let (f, later) := pushAll f calls
    (f, events ++ later)

def session (calls : List (String × Bytes)) : List ProcessEvent :=
  let (f, events) := pushAll {} calls
  events ++ (flush f).2

def eventsOf (stream : String) (events : List ProcessEvent) : List ProcessEvent := events.filter (·.stream = stream)

section Cut

theorem take_limit (text : Bytes) :
    text.take (min text.length maxProcessLogRecordBytes) = text.take maxProcessLogRecordBytes := by
  rw [Nat.min_comm, ← List.take_eq_take_min]

theorem finishedEnd_cases (text : Bytes) :
    (∃ start, finishedEnd text = start ∧ text.length - 3 ≤ start ∧ start < text.length ∧
      runeStart (text.getD start 0) = true) ∨
    (finishedEnd text = text.length ∧ ∀ start, text.length - 3 ≤ start → start < text.length →
      runeStart (text.getD start 0) = true → fullRune (text.drop start) = true) := by
  unfold finishedEnd
  generalize hFind : List.find? _ _ = found
  cases found with
  | none =>
    refine .inr ⟨rfl, fun start hLow hHigh hStart => ?_⟩
    have hNot := List.find?_eq_none.mp hFind start (List.mem_range'_1.mpr ⟨hLow, by omega⟩)
    rw [hStart, Bool.true_and, Bool.not_eq_true', Bool.not_eq_false] at hNot
    exact hNot
  | some start =>
    have hMem := List.mem_range'_1.mp (List.mem_of_find?_eq_some hFind)
    have hHolds := List.find?_some hFind
    rw [Bool.and_eq_true] at hHolds
    exact .inl ⟨start, rfl, hMem.1, by omega, hHolds.1⟩

theorem finishedEnd_bounds (text : Bytes) :
    text.length - 3 ≤ finishedEnd text ∧ finishedEnd text ≤ text.length := by
  rcases finishedEnd_cases text with ⟨start, hEnd, hLow, hHigh, -⟩ | ⟨hEnd, -⟩ <;> omega

variable {stream : String} {text : Bytes}

theorem cutRecord_live (hStream : awaitsNewline stream = true) (text : Bytes) :
    cutRecord stream false text =
      match (text.take maxProcessLogRecordBytes).findIdx? (· == 10) with
      | some newline => some (trimSuffix (trimSuffix (text.take (newline + 1)) 10) 13, newline + 1)
      | none =>
        if text.length < maxProcessLogRecordBytes then none
        else
          let stop := finishedEnd (text.take maxProcessLogRecordBytes)
          some (text.take stop, stop) := by
  unfold cutRecord
  by_cases hText : text = []
  · subst hText
    rfl
  · simp only [hText, if_false, take_limit, hStream, Bool.not_false, Bool.true_and, Bool.and_true, Bool.true_or,
      if_true, decide_eq_true_eq]
    split
    · rfl
    · split
      · rfl
      · have hEnd := (finishedEnd_bounds (text.take maxProcessLogRecordBytes)).1
        have hLong : 3 < maxProcessLogRecordBytes := by decide
        rw [List.length_take] at hEnd
        rw [if_neg (by omega)]

theorem cutRecord_final (stream : String) (text : Bytes) :
    cutRecord stream true text =
      if text = [] then none
      else
        match (text.take maxProcessLogRecordBytes).findIdx? (· == 10) with
        | some newline => some (trimSuffix (trimSuffix (text.take (newline + 1)) 10) 13, newline + 1)
        | none =>
          let stop := if maxProcessLogRecordBytes < text.length then
            finishedEnd (text.take maxProcessLogRecordBytes) else text.length
          some (text.take stop, stop) := by
  unfold cutRecord
  split
  · rfl
  · rename_i hText
    have hSome := List.length_pos_iff.mpr hText
    have hLimit : min text.length maxProcessLogRecordBytes < text.length ↔
        maxProcessLogRecordBytes < text.length := by
      omega
    simp only [take_limit, hLimit, Bool.not_true, Bool.false_and, Bool.false_or, Bool.false_eq_true, if_false,
      decide_eq_true_eq]
    split
    · rfl
    · by_cases hLong : maxProcessLogRecordBytes < text.length
      · have hEnd := (finishedEnd_bounds (text.take maxProcessLogRecordBytes)).1
        have hBound : 3 < maxProcessLogRecordBytes := by decide
        rw [List.length_take] at hEnd
        simp only [if_pos hLong]
        rw [if_neg (by omega)]
      · simp only [if_neg hLong, Nat.min_eq_left (Nat.le_of_not_lt hLong)]
        rw [if_neg (by omega)]

theorem findIdx?_take {limit newline : Nat} (h : (text.take limit).findIdx? (· == 10) = some newline) :
    newline < text.length ∧ newline < limit ∧ text[newline]? = some 10 ∧ 10 ∉ text.take newline := by
  obtain ⟨hLess, hFound, hBefore⟩ := List.findIdx?_eq_some_iff_getElem.mp h
  rw [List.length_take] at hLess
  rw [List.getElem_take, beq_iff_eq] at hFound
  refine ⟨by omega, by omega, ?_, ?_⟩
  · rw [List.getElem?_eq_getElem (by omega), hFound]
  · intro hMem
    obtain ⟨i, hi, hEq⟩ := List.mem_take_iff_getElem.mp hMem
    have hNot := hBefore i (by omega)
    rw [List.getElem_take, hEq] at hNot
    exact hNot rfl

theorem cutRecord_consumes (stream : String) (final : Bool) : Consumes (cutRecord stream final) := by
  intro text record n h
  unfold cutRecord at h
  split at h
  · cases h
  · dsimp only at h
    split at h
    · rename_i newline hFound
      cases h
      have hBounds := findIdx?_take hFound
      omega
    · split at h
      · cases h
      · simp only [Option.ite_none_left_eq_some, Option.some.injEq, Prod.mk.injEq] at h
        obtain ⟨hStop, -, rfl⟩ := h
        have hEnd := (finishedEnd_bounds (text.take (min text.length maxProcessLogRecordBytes))).2
        rw [List.length_take] at hEnd
        refine ⟨Nat.pos_of_ne_zero hStop, ?_⟩
        split <;> omega

theorem cutRecord_stable (hStream : awaitsNewline stream = true) : Stable (cutRecord stream false) := by
  intro text record n h more
  rw [cutRecord_live hStream] at h ⊢
  split at h
  · rename_i newline hFound
    have hBounds := findIdx?_take hFound
    rw [List.take_append, List.findIdx?_append, hFound]
    simp only [Option.some_or]
    rw [List.take_append_of_le_length (by omega)]
    exact h
  · rename_i hNone
    split at h
    · cases h
    · rename_i hLong
      have hEnd := (finishedEnd_bounds (text.take maxProcessLogRecordBytes)).2
      rw [List.length_take] at hEnd
      rw [List.take_append_of_le_length (by omega), hNone]
      simp only [List.length_append]
      rw [if_neg (by omega), List.take_append_of_le_length (by omega)]
      exact h

theorem cutRecord_none (hStream : awaitsNewline stream = true) (h : cutRecord stream false text = none) :
    text.length < maxProcessLogRecordBytes := by
  rw [cutRecord_live hStream] at h
  split at h
  · cases h
  · split at h
    · assumption
    · cases h

theorem cutRecord_final_none (h : cutRecord stream true text = none) : text = [] := by
  rw [cutRecord_final] at h
  split at h
  · assumption
  · split at h <;> cases h

end Cut

section ValidText

variable {text : Bytes}

theorem head?_drop_of_lt {k : Nat} (hk : k < text.length) : (text.drop k).head? = some (text.getD k 0) := by
  rw [List.head?_drop, List.getD_eq_getElem?_getD, List.getElem?_eq_getElem hk, Option.getD_some]

theorem finishedEnd_valid (h : Valid text) (k : Nat) :
    Valid (text.take (finishedEnd (text.take k))) ∧ Valid (text.drop (finishedEnd (text.take k))) := by
  apply h.split
  intro b hb
  rcases finishedEnd_cases (text.take k) with ⟨start, hEnd, -, hHigh, hStart⟩ | ⟨hEnd, hFull⟩
  · rw [List.length_take] at hHigh
    rw [hEnd, head?_drop_of_lt (by omega)] at hb
    rw [List.getD_eq_getElem?_getD, List.getElem?_take_of_lt (by omega), ← List.getD_eq_getElem?_getD] at hStart
    exact Option.some.inj hb ▸ hStart
  · by_contra hNot
    rw [hEnd] at hb
    obtain ⟨start, hBefore, hNear, ⟨c, hc, hStart⟩, hOpen⟩ := h.unfinished ⟨b, hb, Bool.eq_false_iff.mpr hNot⟩
    have hTake : text.take (text.take k).length = text.take k := by
      rw [List.length_take, ← List.take_eq_take_min]
    rw [hTake] at hOpen
    have hGet : (text.take k).getD start 0 = c := by
      rw [← hTake, List.getD_eq_getElem?_getD, List.getElem?_take_of_lt hBefore, hc, Option.getD_some]
    have hFull := hFull start (by omega) hBefore (hGet ▸ hStart)
    exact absurd (hFull.symm.trans hOpen) (by decide)

theorem trimSuffix_concat (text : Bytes) (b : UInt8) : trimSuffix (text ++ [b]) b = text := by
  rw [trimSuffix, List.getLast?_concat, if_pos rfl, List.dropLast_concat]

theorem trimSuffix_notMem {b : UInt8} (h : b ∉ text) : trimSuffix text b = text := by
  refine if_neg fun hLast => h (List.mem_of_getLast? hLast)

theorem filter_newline (h : 10 ∉ text) : text.filter (· ≠ 10) = text :=
  List.filter_eq_self.mpr fun _ hb => decide_eq_true (ne_of_mem_of_not_mem hb h)

theorem newline_record {limit newline : Nat} (hText : Valid text) (hReturn : 13 ∉ text)
    (h : (text.take limit).findIdx? (· == 10) = some newline) :
    toValidUTF8 (trimSuffix (trimSuffix (text.take (newline + 1)) 10) 13) =
      (text.take (newline + 1)).filter (· ≠ 10) ∧ Valid (text.drop (newline + 1)) := by
  obtain ⟨hLess, -, hNewline, hBefore⟩ := findIdx?_take h
  have hTake : text.take (newline + 1) = text.take newline ++ [10] := by
    rw [List.take_add_one, hNewline, Option.toList_some]
  obtain ⟨hFirst, hSecond⟩ := hText.part hNewline (by decide)
  refine ⟨?_, hSecond⟩
  rw [hTake, trimSuffix_concat, trimSuffix_notMem fun hMem => hReturn (List.mem_of_mem_take hMem),
    toValidUTF8_eq_self hFirst, List.filter_append, filter_newline hBefore]
  simp

theorem cutRecord_valid {stream : String} {final : Bool} (hStream : awaitsNewline stream = true) {record : Bytes}
    {n : Nat} (hText : Valid text) (hReturn : 13 ∉ text) (h : cutRecord stream final text = some (record, n)) :
    toValidUTF8 record = (text.take n).filter (· ≠ 10) ∧ Valid (text.drop n) := by
  have hClipped := finishedEnd_valid hText maxProcessLogRecordBytes
  have hEnd := (finishedEnd_bounds (text.take maxProcessLogRecordBytes)).2
  -- no newline comes before the end of a clipped record
  have hPlain : ∀ stop ≤ (text.take maxProcessLogRecordBytes).length,
      (text.take maxProcessLogRecordBytes).findIdx? (· == 10) = none → 10 ∉ text.take stop := by
    intro stop hStop hNone hMem
    have hInside : 10 ∈ text.take maxProcessLogRecordBytes := by
      rw [List.length_take] at hStop
      exact List.take_subset_take_left text (show stop ≤ maxProcessLogRecordBytes by omega) hMem
    exact absurd (List.findIdx?_eq_none_iff.mp hNone 10 hInside) (by decide)
  cases final with
  | false =>
    rw [cutRecord_live hStream] at h
    split at h
    · cases h
      exact newline_record hText hReturn ‹_›
    · rename_i hNone
      split at h
      · cases h
      · cases h
        rw [filter_newline (hPlain _ hEnd hNone)]
        exact ⟨toValidUTF8_eq_self hClipped.1, hClipped.2⟩
  | true =>
    rw [cutRecord_final] at h
    split at h
    · cases h
    · split at h
      · cases h
        exact newline_record hText hReturn ‹_›
      · rename_i hNone
        dsimp only at h
        split at h
        · cases h
          rw [filter_newline (hPlain _ hEnd hNone)]
          exact ⟨toValidUTF8_eq_self hClipped.1, hClipped.2⟩
        · cases h
          rw [filter_newline (hPlain _ (by rw [List.length_take]; omega) hNone), List.take_length, List.drop_length]
          exact ⟨toValidUTF8_eq_self hText, .nil⟩

theorem drain_valid {stream : String} (final : Bool) (hStream : awaitsNewline stream = true) (hText : Valid text)
    (hReturn : 13 ∉ text) :
    ((drain (cutRecord stream final) text).1.map toValidUTF8).flatten ++
        (drain (cutRecord stream final) text).2.filter (· ≠ 10) = text.filter (· ≠ 10) ∧
      Valid (drain (cutRecord stream final) text).2 := by
  induction text using drain_induction (cutRecord_consumes stream final) with
  | hold _ hCut =>
    rw [drain_none hCut]
    exact ⟨rfl, hText⟩
  | step _ _ _ hCut ih =>
    obtain ⟨hRecord, hRest⟩ := cutRecord_valid hStream hText hReturn hCut
    obtain ⟨hJoined, hHeld⟩ := ih hRest fun hMem => hReturn (List.mem_of_mem_drop hMem)
    rw [drain_some (cutRecord_consumes stream final) hCut]
    refine ⟨?_, hHeld⟩
    rw [List.map_cons, List.flatten_cons, List.append_assoc, hJoined, hRecord, ← List.filter_append,
      List.take_append_drop]

end ValidText

section Sessions

variable {stream : String}

theorem recordEvents_append (records more : List Bytes) :
    recordEvents stream (records ++ more) = recordEvents stream records ++ recordEvents stream more := by
  simp only [recordEvents, List.map_append, List.filter_append]

theorem recordEvents_messages (records : List Bytes) :
    ((recordEvents stream records).map (·.message)).flatten = (records.map toValidUTF8).flatten := by
  simp only [recordEvents, List.map_map, Function.comp_def, List.map_id']
  induction records with
  | nil => rfl
  | cons record _ ih =>
    rw [List.map_cons, List.filter_cons]
    split
    · rw [List.flatten_cons, ih, List.flatten_cons]
    · rename_i hNil
      rw [ih, List.flatten_cons, show toValidUTF8 record = [] by simpa using hNil, List.nil_append]

theorem eventsOf_append (events more : List ProcessEvent) :
    eventsOf stream (events ++ more) = eventsOf stream events ++ eventsOf stream more :=
  List.filter_append events more

theorem eventsOf_recordEvents (other : String) (records : List Bytes) :
    eventsOf stream (recordEvents other records) = if other = stream then recordEvents other records else [] := by
  unfold eventsOf recordEvents
  split
  · rename_i hSame
    rw [List.filter_eq_self]
    intro event hEvent
    obtain ⟨message, -, rfl⟩ := List.mem_map.mp hEvent
    exact decide_eq_true hSame
  · rename_i hOther
    rw [List.filter_eq_nil_iff]
    intro event hEvent
    obtain ⟨message, -, rfl⟩ := List.mem_map.mp hEvent
    simpa using hOther

structure Ordered (f : ProcessLogFramer) : Prop where
  nodup : f.order.Nodup
  listed : ∀ stream, stream ∈ f.order ↔ (f.pending stream).isSome = true

theorem ordered_empty : Ordered {} := ⟨List.nodup_nil, by simp⟩

variable {f : ProcessLogFramer}

theorem push_ordered (h : Ordered f) (name : String) (text : Bytes) : Ordered (push f name text).1 := by
  have hFresh : (f.pending name).isNone = true ↔ name ∉ f.order := by simp [h.listed]
  constructor
  · simp only [push]
    split
    · rename_i hNew
      exact List.nodup_append.mpr ⟨h.nodup, List.nodup_singleton name, by
        intro a ha b hb hab
        rw [List.mem_singleton.mp hb] at hab
        exact hFresh.mp hNew (hab ▸ ha)⟩
    · exact h.nodup
  · intro other
    simp only [push, Function.update_apply]
    by_cases hOther : other = name
    · subst hOther
      split
      · simp
      · rename_i hOld
        simpa [h.listed, Option.isSome_iff_ne_none] using hOld
    · split <;> simp [hOther, h.listed]

theorem held_push (stream : String) (f : ProcessLogFramer) (name : String) (text : Bytes) :
    (push f name text).1.held stream =
      if stream = name then (drain (cutRecord name false) (f.held name ++ text)).2 else f.held stream := by
  simp only [push, ProcessLogFramer.held, Function.update_apply, drainStream]
  split <;> rfl

theorem pushAll_ordered (h : Ordered f) (calls : List (String × Bytes)) : Ordered (pushAll f calls).1 := by
  induction calls generalizing f with
  | nil => exact h
  | cons call _ ih => exact ih (push_ordered h call.1 call.2)

theorem pushAll_stream (hStream : awaitsNewline stream = true) (calls : List (String × Bytes))
    (hDrained : cutRecord stream false (f.held stream) = none) :
    eventsOf stream (pushAll f calls).2 =
        recordEvents stream (drain (cutRecord stream false) (f.held stream ++ textOf stream calls)).1 ∧
      (pushAll f calls).1.held stream =
        (drain (cutRecord stream false) (f.held stream ++ textOf stream calls)).2 := by
  have hConsumes := cutRecord_consumes stream false
  induction calls generalizing f with
  | nil =>
    have hNone : drain (cutRecord stream false) (f.held stream ++ textOf stream []) = ([], f.held stream) := by
      rw [show textOf stream [] = [] from rfl, List.append_nil, drain_none hDrained]
    rw [hNone]
    exact ⟨rfl, rfl⟩
  | cons call _ ih =>
    obtain ⟨name, text⟩ := call
    simp only [pushAll, eventsOf_append, textOf_cons]
    have hHeld := held_push stream f name text
    by_cases hName : name = stream
    · subst hName
      rw [if_pos rfl] at hHeld
      obtain ⟨hEvents, hRest⟩ := ih (f := (push f name text).1) (by rw [hHeld]; exact cut_rest hConsumes _)
      rw [hEvents, hRest, hHeld, if_pos rfl, ← List.append_assoc,
        drain_append hConsumes (cutRecord_stable hStream) (f.held name ++ text)]
      refine ⟨?_, rfl⟩
      rw [recordEvents_append]
      simp only [push, drainStream, eventsOf_recordEvents, if_true]
    · rw [if_neg (Ne.symm hName)] at hHeld
      obtain ⟨hEvents, hRest⟩ := ih (f := (push f name text).1) (by rw [hHeld]; exact hDrained)
      rw [hEvents, hRest, hHeld, if_neg hName, List.nil_append]
      refine ⟨?_, rfl⟩
      simp only [push, drainStream, eventsOf_recordEvents, if_neg hName, List.nil_append]

theorem eventsOf_flush (stream : String) (h : Ordered f) :
    eventsOf stream (flush f).2 = recordEvents stream (drain (cutRecord stream true) (f.held stream)).1 := by
  have hOrder : ∀ order : List String, order.Nodup →
      eventsOf stream (order.flatMap fun name => (drainStream name true (f.held name)).1) =
        if stream ∈ order then recordEvents stream (drain (cutRecord stream true) (f.held stream)).1 else [] := by
    intro order hNodup
    induction order with
    | nil => rfl
    | cons name _ ih =>
      obtain ⟨hFresh, hNodup⟩ := List.nodup_cons.mp hNodup
      rw [List.flatMap_cons, eventsOf_append, ih hNodup, drainStream, eventsOf_recordEvents]
      by_cases hName : name = stream
      · subst hName
        simp [hFresh]
      · simp [hName, Ne.symm hName]
  rw [flush, hOrder f.order h.nodup]
  split
  · rfl
  · rename_i hAbsent
    rw [h.listed, Bool.not_eq_true, Option.isSome_eq_false_iff, Option.isNone_iff_eq_none] at hAbsent
    rw [ProcessLogFramer.held, hAbsent]
    rfl

theorem eventsOf_session (hStream : awaitsNewline stream = true) (calls : List (String × Bytes)) :
    eventsOf stream (session calls) =
      recordEvents stream ((drain (cutRecord stream false) (textOf stream calls)).1 ++
        (drain (cutRecord stream true) (drain (cutRecord stream false) (textOf stream calls)).2).1) := by
  obtain ⟨hEvents, hHeld⟩ := pushAll_stream hStream calls (f := {}) rfl
  have hFlush := eventsOf_flush stream (pushAll_ordered ordered_empty calls)
  rw [hHeld] at hFlush
  rw [session, eventsOf_append, hEvents, hFlush, ← recordEvents_append]
  rfl

theorem session_single (text : Bytes) :
    session [(stream, text)] = recordEvents stream ((drain (cutRecord stream false) text).1 ++
      (drain (cutRecord stream true) (drain (cutRecord stream false) text).2).1) := by
  simp [session, pushAll, push, flush, drainStream, ProcessLogFramer.held, recordEvents_append]

end Sessions

-- However the output is split and interleaved, each stream has the events that its whole text gives in one push.
theorem framing_independent_of_reads (calls : List (String × Bytes)) (stream : String)
    (hStream : stream = "stdout" ∨ stream = "stderr") :
    eventsOf stream (session calls) = session [(stream, textOf stream calls)] ∧
    ((pushAll {} calls).1.held stream).length < maxProcessLogRecordBytes ∧
    (Valid (textOf stream calls) → 13 ∉ textOf stream calls →
      ((eventsOf stream (session calls)).map (·.message)).flatten = (textOf stream calls).filter (· ≠ 10)) := by
  have hWaits : awaitsNewline stream = true := by rcases hStream with rfl | rfl <;> rfl
  refine ⟨?_, ?_, fun hValid hReturn => ?_⟩
  · rw [eventsOf_session hWaits, session_single]
  · rw [(pushAll_stream hWaits calls (f := {}) rfl).2]
    exact cutRecord_none hWaits (cut_rest (cutRecord_consumes stream false) _)
  · obtain ⟨hBefore, hHeld⟩ := drain_valid false hWaits hValid hReturn
    have hSuffix := rest_suffix (cutRecord_consumes stream false) (textOf stream calls)
    obtain ⟨hAfter, -⟩ := drain_valid true hWaits hHeld fun hMem => hReturn (hSuffix.subset hMem)
    have hNothing := cutRecord_final_none (cut_rest (cutRecord_consumes stream true)
      (drain (cutRecord stream false) (textOf stream calls)).2)
    rw [hNothing, List.filter_nil, List.append_nil] at hAfter
    rw [eventsOf_session hWaits, recordEvents_messages, List.map_append, List.flatten_append, hAfter, hBefore]

-- A line in two reads, with an error in between.
theorem split_line :
    eventsOf "stdout" (session [("stdout", [97]), ("stderr", [120]), ("stdout", [98, 10])]) =
        session [("stdout", [97, 98, 10])] ∧
      ((eventsOf "stdout" (session [("stdout", [97]), ("stderr", [120]), ("stdout", [98, 10])])).map
        (·.message)).flatten = [97, 98] := by
  obtain ⟨hEvents, -, hMessages⟩ := framing_independent_of_reads
    [("stdout", [97]), ("stderr", [120]), ("stdout", [98, 10])] "stdout" (.inl rfl)
  have hValid : Valid [97, 98, 10] := .cons _ (by decide) (.cons _ (by decide) (.cons _ (by decide) .nil))
  exact ⟨hEvents, hMessages hValid (by decide)⟩

section Bounds

inductive Call where
  | push (stream : String) (text : Bytes)
  | flush

def call (f : ProcessLogFramer) : Call → ProcessLogFramer × List ProcessEvent
  | .push stream text => push f stream text
  | .flush => flush f

def run : ProcessLogFramer → List Call → ProcessLogFramer × List ProcessEvent
  | f, [] => (f, [])
  | f, next :: calls =>
    let (f, events) := call f next
    let (f, later) := run f calls
    (f, events ++ later)

end Bounds

section Alternating

end Alternating

end NeroCD.LogFramer
