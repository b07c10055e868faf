import NeroCD.RuntimeLogs

-- The events of whole lines, and what becomes of their text.

namespace NeroCD.RuntimeLogs

open NeroCD.Redaction NeroCD.Framing NeroCD.Utf8

section Lines

variable {T : Type} {grow : Nat → Nat} {parse : Bytes → Option T} {accepts : List (LogEvent T) → LogEvent T → Bool}

structure Terminated (line : Bytes) : Prop where
  plain : Plain line
  ended : ∃ body, line = body ++ [10] ∧ 10 ∉ body

def fragmentsOf (line : Bytes) : List (Bytes × Bool) := (drain cutLine line).1

def lineEvents (parse : Bytes → Option T) (stream : String) (line : Bytes) : List (LogEvent T) :=
  (fragmentsOf line).map (logEvent parse stream)

def messageText (parse : Bytes → Option T) (fragment : Bytes) : Bytes :=
  match stampOf parse fragment with
  | some (_, remainder) => remainder
  | none => fragment

theorem logEvent_messageText (stream : String) (fragment : Bytes × Bool) :
    (logEvent parse stream fragment).message = messageText parse fragment.1 := by
  cases hStamp : stampOf parse fragment.1 with
  | none => simp only [logEvent, messageText, hStamp]
  | some _ => simp only [logEvent, messageText, hStamp]

theorem drain_plain {text : Bytes} (h : Plain text) :
    readable text = text ∧ (drain (cutRune false) text).2 = [] := by
  obtain ⟨hValid, hNul⟩ := h
  unfold readable
  induction hValid with
  | nil => exact ⟨rfl, rfl⟩
  | cons text hWidth _ ih =>
    have hText : text ≠ [] := by
      rintro rfl
      exact absurd hWidth (by decide)
    have hLe := (runeWidth_le text).1
    have hFull : fullRune text = true := by
      have hTake := fullRune_take (k := text.length) hWidth
      rwa [List.take_length, decide_eq_true hLe] at hTake
    have hRune : text.take (runeWidth text) ≠ [0] := fun hZero =>
      hNul (List.mem_of_mem_take (hZero ▸ List.mem_singleton_self 0))
    have hCut : cutRune false text = some (text.take (runeWidth text), runeWidth text) := by
      rw [cutRune, if_neg hText, hFull, if_neg (by decide), if_neg (Nat.ne_of_gt hWidth), if_neg hRune]
    obtain ⟨hRead, hHeld⟩ := ih fun hMem => hNul (List.mem_of_mem_drop hMem)
    rw [drain_some (cutRune_consumes false) hCut, List.flatten_cons, hRead, List.take_append_drop]
    exact ⟨rfl, hHeld⟩

theorem cutLine_take {line : Bytes} {fragment : Bytes × Bool} {n : Nat} (h : cutLine line = some (fragment, n)) :
    fragment.1 = line.take n ∧ fragment.1.length ≤ messageLimit := by
  have hTakes := cutLine_consumes _ _ _ h
  rw [cutLine_eq] at h
  split at h
  · rename_i newline hFound
    cases h
    obtain ⟨hLess, -⟩ := List.findIdx?_eq_some_iff_getElem.mp hFound
    rw [List.length_take] at hLess ⊢
    exact ⟨rfl, by omega⟩
  · split at h
    · cases h
    · simp only [clipLine, Option.ite_none_left_eq_some, Option.some.injEq, Prod.mk.injEq] at h
      obtain ⟨-, rfl, rfl⟩ := h
      rw [List.length_take]
      exact ⟨rfl, (Nat.min_le_left _ _).trans (clipEnd_spec line messageLimit).1⟩

theorem fragments_join (line : Bytes) :
    ((fragmentsOf line).map Prod.fst).flatten ++ (drain cutLine line).2 = line := by
  unfold fragmentsOf
  induction line using drain_induction cutLine_consumes with
  | hold _ hCut => rw [drain_none hCut, List.map_nil, List.flatten_nil, List.nil_append]
  | step _ _ _ hCut ih =>
    rw [drain_some cutLine_consumes hCut, List.map_cons, List.flatten_cons, List.append_assoc, ih,
      (cutLine_take hCut).1, List.take_append_drop]

theorem terminated_rest {line : Bytes} (h : Terminated line) : (drain cutLine line).2 = [] := by
  obtain ⟨body, hBody, -⟩ := h.ended
  obtain ⟨-, hRest⟩ := forall_pieces cutLine_consumes (fun _ _ _ => cutLine_plain) h.plain
  have hNone := cut_rest cutLine_consumes line
  have hShort := cutLine_none hRest.valid hNone
  obtain ⟨before, hBefore⟩ := rest_suffix cutLine_consumes line
  by_contra hSome
  have hLast : (drain cutLine line).2.getLast? = some 10 := by
    rw [← List.getLast?_append_of_ne_nil before hSome, hBefore, hBody, List.getLast?_concat]
  rw [cutLine_eq, List.take_of_length_le hShort] at hNone
  split at hNone
  · cases hNone
  · rename_i hNewline
    exact absurd (List.findIdx?_eq_none_iff.mp hNewline 10 (List.mem_of_getLast? hLast)) (by decide)

theorem drain_terminated {line : Bytes} (h : Terminated line) (more : Bytes) :
    drain cutLine (line ++ more) = (fragmentsOf line ++ (drain cutLine more).1, (drain cutLine more).2) := by
  rw [drain_append cutLine_consumes cutLine_stable, terminated_rest h, List.nil_append]
  rfl

theorem fragments_lines {lines : List Bytes} (h : ∀ line ∈ lines, Terminated line) (more : Bytes) :
    fragments (lines.flatten ++ more) = lines.flatMap fragmentsOf ++ fragments more := by
  induction lines with
  | nil => rfl
  | cons line lines ih =>
    obtain ⟨hLine, hLines⟩ := List.forall_mem_cons.mp h
    obtain ⟨hRead, hHeld⟩ := drain_plain hLine.plain
    have hReadable : readable (line ++ (lines.flatten ++ more)) = line ++ readable (lines.flatten ++ more) := by
      rw [readable_append, hRead, hHeld, List.nil_append]
      rfl
    rw [List.flatten_cons, List.append_assoc, fragments, hReadable, drain_terminated hLine, List.flatMap_cons,
      List.append_assoc, ← ih hLines]
    rfl

theorem eventsOf_lines {calls : List (String × Bytes)} {f : Framer T} {stream : String} {lines : List Bytes}
    {more : Bytes} (hRun : chunkAll grow parse accepts (newFramer []) calls = (f, true))
    (hText : textOf stream calls = lines.flatten ++ more) (hLines : ∀ line ∈ lines, Terminated line) :
    eventsOf stream f.emitted =
      lines.flatMap (lineEvents parse stream) ++ (fragments more).map (logEvent parse stream) := by
  have hEvents := (chunkAll_follows (follows_new []) hRun).emitted stream
  have hNoSecret : (newRedactor [⟨[], ["base64", "base64url", "hex"]⟩]).longest = 0 := by decide +kernel
  rw [newFramer, runChunks_passthrough grow hNoSecret, List.nil_append, hText, fragments_lines hLines,
    List.map_append, List.map_flatMap] at hEvents
  exact hEvents

end Lines

section Stamps

variable {T : Type} {parse : Bytes → Option T}

-- What RFC 3339 says of its timestamps: they have no space, and none ends in another one.
structure Rfc3339 (parse : Bytes → Option T) : Prop where
  noSpace : ∀ stamp, (parse stamp).isSome = true → 32 ∉ stamp
  noSuffix : ∀ front stamp, front ≠ [] → (parse (front ++ stamp)).isSome = true → parse stamp = none

structure Stamped (parse : Bytes → Option T) (line stamp text : Bytes) : Prop where
  terminated : Terminated line
  parts : line = stamp ++ 32 :: text
  parsed : (parse stamp).isSome = true

variable {stamp line text : Bytes}

theorem findIdx?_space (h : 32 ∉ stamp) (text : Bytes) :
    (stamp ++ 32 :: text).findIdx? (· == 32) = some stamp.length := by
  have hNone : stamp.findIdx? (· == 32) = none :=
    List.findIdx?_eq_none_iff.mpr fun b hb => beq_eq_false_iff_ne.mpr (ne_of_mem_of_not_mem hb h)
  rw [List.findIdx?_append, hNone, List.findIdx?_cons]
  simp

theorem stampOf_some {fragment remainder : Bytes} {time : T} (h : stampOf parse fragment = some (time, remainder)) :
    ∃ stamp, fragment = stamp ++ 32 :: remainder ∧ 32 ∉ stamp ∧ (parse stamp).isSome = true := by
  unfold stampOf at h
  split at h
  · cases h
  · rename_i space hSpace
    obtain ⟨hLess, hFound, hBefore⟩ := List.findIdx?_eq_some_iff_getElem.mp hSpace
    obtain ⟨_, hParsed, hPair⟩ := Option.map_eq_some_iff.mp h
    cases hPair
    refine ⟨fragment.take space, ?_, ?_, by rw [hParsed]; rfl⟩
    · rw [← beq_iff_eq.mp hFound, ← List.drop_eq_getElem_cons hLess, List.take_append_drop]
    · intro hMem
      obtain ⟨i, hi, hEq⟩ := List.mem_take_iff_getElem.mp hMem
      exact hBefore i (by omega) (beq_iff_eq.mpr hEq)

theorem messageText_length (parse : Bytes → Option T) (fragment : Bytes) :
    (messageText parse fragment).length ≤ fragment.length ∧
      (stampOf parse fragment ≠ none → (messageText parse fragment).length < fragment.length) := by
  unfold messageText
  split
  · rename_i hStamp
    obtain ⟨stamp, hParts, -⟩ := stampOf_some hStamp
    rw [hParts, List.length_append, List.length_cons]
    omega
  · rename_i hNone
    exact ⟨Nat.le_refl _, fun h => absurd hNone h⟩

theorem messages_eq_iff (pieces : List Bytes) :
    (pieces.map (messageText parse)).flatten = pieces.flatten ↔ ∀ piece ∈ pieces, stampOf parse piece = none := by
  have hLength : ∀ pieces : List Bytes, (pieces.map (messageText parse)).flatten.length ≤ pieces.flatten.length := by
    intro pieces
    induction pieces with
    | nil => exact Nat.le_refl _
    | cons piece _ _ =>
      have hPiece := (messageText_length parse piece).1
      simp only [List.map_cons, List.flatten_cons, List.length_append]
      omega
  induction pieces with
  | nil => simp
  | cons piece pieces ih =>
    rw [List.forall_mem_cons, List.map_cons, List.flatten_cons, List.flatten_cons]
    by_cases hStamp : stampOf parse piece = none
    · have hSame : messageText parse piece = piece := by
        unfold messageText
        rw [hStamp]
      simp only [hSame, List.append_cancel_left_eq, hStamp, true_and]
      exact ih
    · have hShorter := (messageText_length parse piece).2 hStamp
      refine ⟨fun hEq => ?_, fun h => absurd h.1 hStamp⟩
      have hSum := congrArg List.length hEq
      have hRest := hLength pieces
      simp only [List.length_append] at hSum
      omega

theorem Stamped.text_valid (h : Stamped parse line stamp text) : Valid text ∧ text ≠ [] := by
  have hSpace : (line)[stamp.length]? = some 32 := by simp [h.parts]
  have hDrop : line.drop (stamp.length + 1) = text := by simp [h.parts]
  refine ⟨hDrop ▸ (h.terminated.plain.valid.part hSpace (by decide)).2, ?_⟩
  rintro rfl
  obtain ⟨body, hBody, -⟩ := h.terminated.ended
  have hLast := congrArg List.getLast? (h.parts.symm.trans hBody)
  simp at hLast

theorem runeStart_head {b : UInt8} {rest : Bytes} (h : Valid (b :: rest)) : runeStart b = true := by
  obtain ⟨c, others, size, low, high, hText, hLead, -, -⟩ := runeWidth_pos (h.width_pos (List.cons_ne_nil _ _))
  cases hText
  exact runeStart_lead hLead

theorem first_cut {fragment : Bytes × Bool} {n : Nat} (hLine : Stamped parse line stamp text)
    (hFits : stamp.length < messageLimit) (hCut : cutLine line = some (fragment, n)) : stamp.length < n := by
  obtain ⟨body, hBody, hNewlines⟩ := hLine.terminated.ended
  obtain ⟨hText, hSome⟩ := hLine.text_valid
  have hLength : line.length = stamp.length + (text.length + 1) := by
    rw [hLine.parts, List.length_append, List.length_cons]
  have hPositive := List.length_pos_iff.mpr hSome
  rw [cutLine_eq] at hCut
  split at hCut
  · rename_i newline hFound
    cases hCut
    -- the only newline is the last byte
    obtain ⟨hLess, hNewline, -⟩ := List.findIdx?_eq_some_iff_getElem.mp hFound
    rw [List.getElem_take, beq_iff_eq] at hNewline
    rw [List.length_take] at hLess
    have hLast : body.length ≤ newline := by
      by_contra hBefore
      refine hNewlines (List.mem_of_getElem? (i := newline) ?_)
      have hAt : (line)[newline]? = some 10 := List.getElem?_eq_some_iff.mpr ⟨by omega, hNewline⟩
      rwa [hBody, List.getElem?_append_left (by omega)] at hAt
    rw [hBody, List.length_append, List.length_singleton] at hLength
    omega
  · split at hCut
    · cases hCut
    · simp only [clipLine, Option.ite_none_left_eq_some, Option.some.injEq, Prod.mk.injEq] at hCut
      obtain ⟨-, -, rfl⟩ := hCut
      refine (clipEnd_spec line messageLimit).2.2 (stamp.length + 1) hFits ?_
      cases text with
      | nil => exact absurd rfl hSome
      | cons b _ =>
        have hGet : line.getD (stamp.length + 1) 0 = b := by simp [hLine.parts]
        rw [hGet]
        exact runeStart_head hText

theorem messageText_first (hLaw : Rfc3339 parse) (hParsed : (parse stamp).isSome = true) :
    messageText parse (stamp ++ 32 :: text) = text := by
  obtain ⟨time, hTime⟩ := Option.isSome_iff_exists.mp hParsed
  have hStamp : stampOf parse (stamp ++ 32 :: text) = some (time, text) := by
    unfold stampOf
    rw [findIdx?_space (hLaw.noSpace stamp hParsed)]
    simp [hTime]
  unfold messageText
  rw [hStamp]

-- Were the text to start over with the line, a timestamp further on would be the end of the first one.
theorem no_repetition {found : Bytes} (line : Bytes) (start : Nat) (hLaw : Rfc3339 parse)
    (hStamp : (parse stamp).isSome = true) (hLine : line = stamp ++ 32 :: text)
    (hFound : (parse found).isSome = true) (hShort : found.length < stamp.length)
    (hRepeats : line.take start <+: text) (hAt : found ++ [32] <+: line.drop start) : False := by
  have hText : text = line.drop (stamp.length + 1) := by simp [hLine]
  induction start using Nat.strongRecOn with
  | ind start ih =>
    by_cases hLater : stamp.length < start
    · -- one period earlier
      refine ih (start - (stamp.length + 1)) (by omega) ?_ ?_
      · exact (List.take_prefix_take_left (by omega)).trans hRepeats
      · have hDrop : line.drop start = text.drop (start - (stamp.length + 1)) := by
          rw [hText, List.drop_drop]
          congr 1
          omega
        obtain ⟨after, hAfter⟩ := hRepeats
        have hLength : start ≤ line.length := by
          have hSome := hAt.length_le
          simp only [List.length_append, List.length_singleton, List.length_drop] at hSome
          omega
        rw [hDrop, ← hAfter, List.drop_append_of_le_length (by rw [List.length_take]; omega)] at hAt
        refine (List.prefix_of_prefix_length_le hAt (List.prefix_append _ _) ?_).trans
          ((List.take_prefix _ _).drop _)
        simp only [List.length_append, List.length_singleton, List.length_drop, List.length_take]
        omega
    · -- inside the first timestamp
      have hSpace := hLaw.noSpace stamp hStamp
      have hSuffix : found = stamp.drop start := by
        rw [hLine, List.drop_append_of_le_length (by omega)] at hAt
        obtain ⟨after, hAfter⟩ := hAt
        rw [List.append_assoc, List.singleton_append] at hAfter
        have hLeft := findIdx?_space (hLaw.noSpace found hFound) after
        rw [hAfter, findIdx?_space fun hMem => hSpace (List.mem_of_mem_drop hMem)] at hLeft
        exact (List.append_inj hAfter (Option.some.inj hLeft).symm).1
      by_cases hZero : start = 0
      · rw [hSuffix, hZero, List.drop_zero] at hShort
        exact Nat.lt_irrefl _ hShort
      · have hFront : stamp.take start ≠ [] := by
          rw [ne_eq, List.take_eq_nil_iff]
          rintro (rfl | rfl)
          · exact hZero rfl
          · simp at hShort
        have hNone := hLaw.noSuffix (stamp.take start) found hFront (by rwa [hSuffix, List.take_append_drop])
        rw [hNone] at hFound
        cases hFound

theorem oversized_stamp {pieces : List Bytes} (hLaw : Rfc3339 parse) (hStamp : (parse stamp).isSome = true)
    (hJoin : pieces.flatten = stamp ++ 32 :: text) (hBound : ∀ piece ∈ pieces, piece.length ≤ stamp.length) :
    (pieces.map (messageText parse)).flatten ≠ text := by
  intro hText
  cases hFind : pieces.find? (fun piece => (stampOf parse piece).isSome) with
  | none =>
    have hNone := (messages_eq_iff pieces).mpr fun piece hPiece => by
      simpa using List.find?_eq_none.mp hFind piece hPiece
    have hLength := congrArg List.length (hText.symm.trans (hNone.trans hJoin))
    simp only [List.length_append, List.length_cons] at hLength
    omega
  | some piece =>
    obtain ⟨hPiece, before, after, rfl, hBefore⟩ := List.find?_eq_some_iff_append.mp hFind
    obtain ⟨⟨time, remainder⟩, hFound⟩ := Option.isSome_iff_exists.mp hPiece
    obtain ⟨found, rfl, -, hParsed⟩ := stampOf_some hFound
    have hPlain := (messages_eq_iff before).mpr fun piece hMem => by simpa using hBefore piece hMem
    have hShort := hBound _ (List.mem_append_right _ List.mem_cons_self)
    rw [List.length_append, List.length_cons] at hShort
    rw [List.map_append, List.flatten_append, hPlain] at hText
    rw [List.flatten_append] at hJoin
    refine no_repetition (before.flatten ++ ((found ++ 32 :: remainder) :: after).flatten) before.flatten.length hLaw
      hStamp hJoin hParsed (by omega) ?_ ?_
    · rw [List.take_left]
      exact ⟨_, hText⟩
    · rw [List.drop_left, List.flatten_cons, List.append_assoc, List.cons_append]
      exact ⟨remainder ++ after.flatten, by simp⟩

theorem line_text_iff (hLaw : Rfc3339 parse) (hLine : Stamped parse line stamp text) (stream : String) :
    ((lineEvents parse stream line).map (·.message)).flatten = text ↔
      stamp.length < messageLimit ∧ ∀ fragment ∈ (fragmentsOf line).tail, stampOf parse fragment.1 = none := by
  have hMessages : (lineEvents parse stream line).map (·.message) =
      ((fragmentsOf line).map Prod.fst).map (messageText parse) := by
    simp only [lineEvents, List.map_map, Function.comp_def, logEvent_messageText]
  have hJoin := fragments_join line
  have hRest := terminated_rest hLine.terminated
  rw [hRest, List.append_nil] at hJoin
  rw [hMessages]
  by_cases hFits : stamp.length < messageLimit
  · obtain ⟨⟨fragment, n⟩, hCut⟩ : ∃ found, cutLine line = some found := by
      refine Option.ne_none_iff_exists'.mp fun hNone => ?_
      rw [drain_none hNone] at hRest
      simp [hLine.parts] at hRest
    have hFirst := first_cut hLine hFits hCut
    have hFragment : fragment.1 = stamp ++ 32 :: text.take (n - (stamp.length + 1)) := by
      rw [(cutLine_take hCut).1, hLine.parts, List.take_append, List.take_of_length_le (by omega),
        show n - stamp.length = n - (stamp.length + 1) + 1 by omega, List.take_succ_cons]
    have hFragments : fragmentsOf line = fragment :: fragmentsOf (line.drop n) := by
      rw [fragmentsOf, drain_some cutLine_consumes hCut]
      rfl
    generalize fragmentsOf (line.drop n) = later at hFragments
    have hText : text = text.take (n - (stamp.length + 1)) ++ (later.map Prod.fst).flatten := by
      rw [hFragments, List.map_cons, List.flatten_cons, hFragment, hLine.parts, List.append_assoc, List.cons_append,
        List.append_cancel_left_eq, List.cons.injEq] at hJoin
      exact hJoin.2.symm
    rw [hFragments, List.map_cons, List.map_cons, List.flatten_cons, hFragment, messageText_first hLaw hLine.parsed,
      List.tail_cons, and_iff_right hFits]
    conv_lhs =>
      rhs
      rw [hText]
    rw [List.append_cancel_left_eq, messages_eq_iff, List.forall_mem_map]
  · refine ⟨fun hText => ?_, fun h => absurd h.1 hFits⟩
    have hBound : ∀ fragment ∈ (drain cutLine line).1, fragment.1.length ≤ messageLimit :=
      (forall_pieces (P := fun _ => True) (Q := fun fragment : Bytes × Bool => fragment.1.length ≤ messageLimit)
        cutLine_consumes (fun _ _ _ _ hCut => ⟨(cutLine_take hCut).2, trivial⟩) trivial).1
    refine absurd hText (oversized_stamp hLaw hLine.parsed (hJoin.trans hLine.parts) fun piece hPiece => ?_)
    obtain ⟨fragment, hFragment, rfl⟩ := List.mem_map.mp hPiece
    exact (hBound fragment hFragment).trans (Nat.le_of_not_lt hFits)

end Stamps

-- A stream's events are those of its lines, and a line keeps its text exactly if its timestamp fits in the first
-- fragment and no later fragment starts with a timestamp of its own.
theorem runtime_log_text {T : Type} (grow : Nat → Nat) (parse : Bytes → Option T)
    (accepts : List (LogEvent T) → LogEvent T → Bool) (hLaw : Rfc3339 parse) (stream : String) :
    (∀ calls f (lines : List Bytes) more, chunkAll grow parse accepts (newFramer []) calls = (f, true) →
      textOf stream calls = lines.flatten ++ more → (∀ line ∈ lines, Terminated line) →
      eventsOf stream f.emitted =
        lines.flatMap (lineEvents parse stream) ++ (fragments more).map (logEvent parse stream)) ∧
    ∀ line stamp text, Stamped parse line stamp text →
      (((lineEvents parse stream line).map (·.message)).flatten = text ↔
        stamp.length < messageLimit ∧ ∀ fragment ∈ (fragmentsOf line).tail, stampOf parse fragment.1 = none) :=
  ⟨fun _ _ _ _ => eventsOf_lines, fun _ _ _ hLine => line_text_iff hLaw hLine stream⟩

section Sample

-- `2024-01-01T00:00:00Z`.
def sampleStamp : Bytes := [50, 48, 50, 52, 45, 48, 49, 45, 48, 49, 84, 48, 48, 58, 48, 48, 58, 48, 48, 90]

def sampleParse (stamp : Bytes) : Option Unit := if stamp = sampleStamp then some () else none

theorem sampleParse_law : Rfc3339 sampleParse := by
  constructor
  · intro stamp hParsed
    have hStamp : stamp = sampleStamp := by simpa [sampleParse] using hParsed
    rw [hStamp]
    decide
  · intro front stamp hFront hParsed
    have hWhole : front ++ stamp = sampleStamp := by simpa [sampleParse] using hParsed
    refine if_neg fun hStamp => hFront ?_
    rw [hStamp] at hWhole
    exact List.append_cancel_right (hWhole.trans (List.nil_append sampleStamp).symm)

def longHead : Bytes := sampleStamp ++ 32 :: List.replicate (messageLimit - 21) 97

def longLine (last : Bytes) : Bytes := longHead ++ last

theorem longHead_length : longHead.length = messageLimit := by
  simp only [longHead, List.length_append, List.length_cons, List.length_replicate]
  decide

theorem longHead_plain : ∀ b ∈ longHead, b < 0x80 ∧ b ≠ 0 ∧ b ≠ 10 := by
  intro b hb
  rw [longHead, List.mem_append, List.mem_cons] at hb
  rcases hb with hb | rfl | hb
  · revert b
    decide +kernel
  · decide
  · rw [(List.mem_replicate.mp hb).2]
    decide

theorem longLine_stamped (body : Bytes) (hBody : ∀ b ∈ body, b < 0x80 ∧ b ≠ 0 ∧ b ≠ 10) :
    Stamped sampleParse (longLine (body ++ [10])) sampleStamp
      (List.replicate (messageLimit - 21) 97 ++ (body ++ [10])) := by
  have hPlain := List.forall_mem_append.mpr ⟨longHead_plain, hBody⟩
  have hLine : longLine (body ++ [10]) = longHead ++ body ++ [10] := by rw [longLine, List.append_assoc]
  have hAll : ∀ b ∈ longLine (body ++ [10]), b < 0x80 ∧ b ≠ 0 := by
    rw [hLine, List.forall_mem_append]
    exact ⟨fun b hb => ⟨(hPlain b hb).1, (hPlain b hb).2.1⟩, by decide +kernel⟩
  refine ⟨⟨⟨valid_plain fun b hb => (hAll b hb).1, fun hb => (hAll 0 hb).2 rfl⟩, _, hLine, ?_⟩, ?_, rfl⟩
  · exact fun hb => (hPlain 10 hb).2.2 rfl
  · rw [longLine, longHead, List.append_assoc, List.cons_append]

theorem fragmentsOf_longLine {last : Bytes} (hStart : runeStart (last.getD 0 0) = true)
    (hLast : cutLine last = some ((last, false), last.length)) :
    fragmentsOf (longLine last) = [(longHead, true), (last, false)] := by
  have hTake : (longLine last).take messageLimit = longHead := by rw [longLine, ← longHead_length, List.take_left]
  have hDrop : (longLine last).drop messageLimit = last := by rw [longLine, ← longHead_length, List.drop_left]
  have hNone : longHead.findIdx? (· == 10) = none := by
    rw [List.findIdx?_eq_none_iff]
    exact fun b hb => beq_eq_false_iff_ne.mpr (longHead_plain b hb).2.2
  have hLength : messageLimit < (longLine last).length := by
    rw [longLine, List.length_append, longHead_length]
    exact Nat.lt_add_of_pos_right (cutLine_consumes _ _ _ hLast).1
  have hEnd : clipEnd (longLine last) messageLimit = messageLimit := by
    obtain ⟨hMost, -, hBest⟩ := clipEnd_spec (longLine last) messageLimit
    refine Nat.le_antisymm hMost (hBest messageLimit (Nat.le_refl _) ?_)
    rw [longLine, ← longHead_length, List.getD_append_right _ _ _ _ (Nat.le_refl _), Nat.sub_self]
    exact hStart
  have hFirst : cutLine (longLine last) = some ((longHead, true), messageLimit) := by
    rw [cutLine_eq, hTake, hNone]
    simp only [clipLine, hEnd, hTake]
    rw [if_neg (by omega), if_neg (by decide)]
  rw [fragmentsOf, drain_some cutLine_consumes hFirst, hDrop, drain_some cutLine_consumes hLast, List.drop_length]
  rfl

-- A line of two fragments whose second one starts with no timestamp.
theorem longLine_text :
    fragmentsOf (longLine [98, 10]) = [(longHead, true), ([98, 10], false)] ∧
      ((lineEvents sampleParse "stdout" (longLine [98, 10])).map (·.message)).flatten =
        List.replicate (messageLimit - 21) 97 ++ [98, 10] := by
  have hFragments := @fragmentsOf_longLine [98, 10] (by decide) (by decide +kernel)
  refine ⟨hFragments, ((runtime_log_text id sampleParse (fun _ _ => true) sampleParse_law "stdout").2 _ sampleStamp _
    (longLine_stamped [98] (by decide +kernel))).mpr ⟨by decide, ?_⟩⟩
  rw [List.singleton_append, hFragments]
  decide +kernel

def shortLine : Bytes := sampleStamp ++ [32, 97, 10]

theorem deliver_all {T : Type} (events emitted : List (LogEvent T)) :
    (deliver (fun _ _ => true) emitted events).2 = true := by
  induction events generalizing emitted with
  | nil => rfl
  | cons _ _ ih => exact ih _

theorem single_chunk {line : Bytes} (h : Terminated line) :
    ∃ f, chunkAll id sampleParse (fun _ _ => true) (newFramer []) [("stdout", line)] = (f, true) ∧
      eventsOf "stdout" f.emitted = lineEvents sampleParse "stdout" line := by
  have hRun : (chunkAll id sampleParse (fun _ _ => true) (newFramer []) [("stdout", line)]).2 = true := by
    simp only [chunkAll, chunk, deliver_all]
  refine ⟨_, Prod.ext rfl hRun, ?_⟩
  have hText : textOf "stdout" [("stdout", line)] = [line].flatten ++ [] := by simp [textOf]
  rw [eventsOf_lines (Prod.ext rfl hRun) hText (List.forall_mem_singleton.mpr h), List.flatMap_singleton]
  exact List.append_nil _

-- The second timestamp belongs to the application, and is gone.
theorem continuation_loses_text :
    ∃ f, chunkAll id sampleParse (fun _ _ => true) (newFramer []) [("stdout", longLine shortLine)] = (f, true) ∧
      ((eventsOf "stdout" f.emitted).map (·.message)).flatten ≠
        List.replicate (messageLimit - 21) 97 ++ shortLine := by
  have hStamped := longLine_stamped (sampleStamp ++ [32, 97]) (by decide +kernel)
  rw [show sampleStamp ++ [32, 97] ++ [10] = shortLine from rfl] at hStamped
  obtain ⟨f, hRun, hEvents⟩ := single_chunk hStamped.terminated
  refine ⟨f, hRun, ?_⟩
  rw [hEvents, ne_eq, line_text_iff sampleParse_law hStamped, fragmentsOf_longLine (by decide) (by decide +kernel)]
  rintro ⟨-, hNone⟩
  exact absurd (hNone (shortLine, false) List.mem_cons_self) (by decide)

end Sample

end NeroCD.RuntimeLogs
