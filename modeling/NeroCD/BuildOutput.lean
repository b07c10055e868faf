import NeroCD.Redactor.Theorems
import NeroCD.Utf8

-- Delivery of build output (`runnerruntime/hosting_build_logs.go`).  The calls that leave the adapter succeed or fail
-- as given.

namespace NeroCD.BuildOutput

open NeroCD.Redaction NeroCD.Framing NeroCD.Utf8

def messageLimit : Nat := 16 * 1024

inductive BuildLogError where
  | unresolved
  | invalidOutput
  | context
  | authority
  | journal
  | delivery
deriving DecidableEq

structure Answers where
  context : Nat → Bool
  authority : Nat → Bool
  append : Nat → Bool
  drain : Nat → Bool

structure JournalEntry where
  component : String
  stream : String
  message : Bytes
deriving DecidableEq

structure Adapter where
  redactor : Redactor
  tails : String → Bytes := fun _ => []
  failed : Bool := false
  journal : List JournalEntry := []
  asked : Nat := 0

structure Output where
  component : String
  stream : String
  data : Bytes

def components : List String := ["build", "buildkit", "railpack"]
def streams : List String := ["system", "stdout", "stderr"]

def validBuildOutput (component stream : String) : Bool := components.contains component && streams.contains stream

def outputKey (component stream : String) : String := component ++ "/" ++ stream

def Output.key (out : Output) : String := outputKey out.component out.stream

def entry (key : String) (message : Bytes) : JournalEntry where
  component := String.ofList (key.toList.takeWhile (· ≠ '/'))
  stream := String.ofList ((key.toList.dropWhile (· ≠ '/')).drop 1)
  message := message

section Adapter

variable (grow : Nat → Nat) (answers : Answers)

def emit (s : Adapter) (key : String) (frame : Bytes) : Adapter × Option BuildLogError :=
  if frame = [] then (s, none)
  else
    let now := s.asked
    let s := { s with asked := s.asked + 1 }
    if !answers.context now then (s, some .context)
    else if !answers.authority now then (s, some .authority)
    else if !answers.append now then (s, some .journal)
    else
      let s := { s with journal := s.journal ++ [entry key frame] }
      if answers.drain now then (s, none) else (s, some .delivery)

def packRunes (key : String) : Adapter → Bytes → List Bytes → Adapter × Except BuildLogError Bytes
  | s, frame, [] => (s, .ok frame)
  | s, frame, rune :: runes =>
    if frame.length + rune.length > messageLimit then
      match emit answers s key frame with
      | (s, some err) => (s, .error err)
      | (s, none) => packRunes key s rune runes
    else packRunes key s (frame ++ rune) runes

def frame (s : Adapter) (key : String) (safe : Bytes) (final : Bool) : Adapter × Option BuildLogError :=
  let (runes, rest) := drain (cutRune final) (s.tails key ++ safe)
  match packRunes answers key { s with tails := Function.update s.tails key [] } [] runes with
  | (s, .error err) => (s, some err)
  | (s, .ok last) => emit answers { s with tails := Function.update s.tails key rest } key last

def sink (s : Adapter) (out : Output) : Adapter × Option BuildLogError :=
  if s.failed then (s, some .unresolved)
  else if !validBuildOutput out.component out.stream || out.data.length > messageLimit then
    ({ s with failed := true }, some .invalidOutput)
  else if !answers.context s.asked then ({ s with failed := true, asked := s.asked + 1 }, some .context)
  else
    let (redactor, safe) := redactChunk grow s.redactor out.key out.data
    match frame answers { s with redactor, asked := s.asked + 1 } out.key safe false with
    | (s, some err) => ({ s with failed := true }, some err)
    | (s, none) => (s, none)

def sinkAll : Adapter → List Output → Adapter × List (Option BuildLogError)
  | s, [] => (s, [])
  | s, out :: outputs =>
    let (s, result) := sink grow answers s out
    let (s, results) := sinkAll s outputs
    (s, result :: results)

def frameAll (final : Bool) : Adapter → List (String × Bytes) → Adapter × Option BuildLogError
  | s, [] => (s, none)
  | s, (key, safe) :: rest =>
    match frame answers s key safe final with
    | (s, some err) => ({ s with failed := true }, some err)
    | (s, none) => frameAll final s rest

def finalKeys : List (String × Bytes) :=
  components.flatMap fun component => streams.map fun stream => (outputKey component stream, [])

def finish (s : Adapter) : Adapter × Option BuildLogError :=
  if s.failed then (s, some .unresolved)
  else if !answers.context s.asked then ({ s with asked := s.asked + 1 }, some .context)
  else
    let (redactor, flushed) := flush s.redactor
    match frameAll answers false { s with redactor, asked := s.asked + 1 }
        (flushed.map fun event => (event.stream, event.message)) with
    | (s, some err) => (s, some err)
    | (s, none) =>
      match frameAll answers true s finalKeys with
      | (s, some err) => (s, some err)
      | (s, none) =>
        let now := s.asked
        let s := { s with asked := s.asked + 1 }
        if answers.drain now then (s, none) else (s, some .delivery)

end Adapter

def messagesOf (component stream : String) (journal : List JournalEntry) : List Bytes :=
  (journal.filter fun e => e.component = component && e.stream = stream).map (·.message)

-- Every byte outside a valid rune and every NUL is U+FFFD, and all other runes stay.
def transcodedLoop : Nat → Bytes → Bytes
  | 0, _ => []
  | _, [] => []
  | fuel + 1, b :: rest =>
    if b = 0 ∨ runeWidth (b :: rest) = 0 then replacement ++ transcodedLoop fuel rest
    else (b :: rest).take (runeWidth (b :: rest)) ++ transcodedLoop fuel ((b :: rest).drop (runeWidth (b :: rest)))

def transcoded (text : Bytes) : Bytes := transcodedLoop text.length text

section Runes

theorem cutRune_final {text piece : Bytes} {n : Nat} (h : cutRune false text = some (piece, n)) :
    cutRune true text = some (piece, n) := by
  unfold cutRune at h ⊢
  split at h
  · cases h
  · rename_i hText
    split at h
    · cases h
    · simpa [hText] using h

theorem cutRune_cons (b : UInt8) (rest : Bytes) :
    cutRune true (b :: rest) =
      if b = 0 ∨ runeWidth (b :: rest) = 0 then some (replacement, 1)
      else some ((b :: rest).take (runeWidth (b :: rest)), runeWidth (b :: rest)) := by
  simp only [cutRune, List.cons_ne_nil, Bool.not_true, Bool.false_and, Bool.false_eq_true, if_false]
  by_cases hNul : b = 0
  · subst hNul
    have hWidth : runeWidth (0 :: rest) = 1 := rfl
    simp [hWidth]
  by_cases hWidth : runeWidth (b :: rest) = 0
  · simp [hWidth]
  · have hFirst : (b :: rest).take (runeWidth (b :: rest)) ≠ [0] := by
      obtain ⟨less, hLess⟩ := Nat.exists_eq_succ_of_ne_zero hWidth
      rw [hLess, List.take_succ_cons]
      exact fun hEq => hNul (List.cons.inj hEq).1
    simp [hNul, hWidth, hFirst]

theorem transcodedLoop_eq {fuel : Nat} {text : Bytes} (hFuel : text.length ≤ fuel) :
    transcodedLoop fuel text = (drain (cutRune true) text).1.flatten := by
  have hNil : drain (cutRune true) [] = ([], []) := drain_none (cut_nil (cutRune_consumes true))
  induction fuel generalizing text with
  | zero => rw [List.length_eq_zero_iff.mp (Nat.le_zero.mp hFuel), hNil, transcodedLoop, List.flatten_nil]
  | succ fuel ih =>
    cases text with
    | nil =>
      rw [hNil]
      rfl
    | cons b rest =>
      rw [List.length_cons] at hFuel
      have hCut := cutRune_cons b rest
      rw [transcodedLoop]
      split
      · rename_i hBad
        rw [if_pos hBad] at hCut
        rw [drain_some (cutRune_consumes true) hCut, List.flatten_cons, List.drop_one, List.tail_cons,
          ih (by omega)]
      · rename_i hRune
        rw [if_neg hRune] at hCut
        have hDropped : ((b :: rest).drop (runeWidth (b :: rest))).length ≤ fuel := by
          rw [List.length_drop, List.length_cons]
          omega
        rw [drain_some (cutRune_consumes true) hCut, List.flatten_cons, ih hDropped]

theorem transcoded_eq (text : Bytes) : transcoded text = (drain (cutRune true) text).1.flatten :=
  transcodedLoop_eq (Nat.le_refl _)

theorem transcoded_split (text : Bytes) :
    transcoded text = (drain (cutRune false) text).1.flatten ++ transcoded (drain (cutRune false) text).2 := by
  rw [transcoded_eq, transcoded_eq]
  induction text using drain_induction (cutRune_consumes false) with
  | hold _ hCut => rw [drain_none hCut, List.flatten_nil, List.nil_append]
  | step _ _ _ hCut ih =>
    rw [drain_some (cutRune_consumes true) (cutRune_final hCut), drain_some (cutRune_consumes false) hCut,
      List.flatten_cons, List.flatten_cons, ih, List.append_assoc]

theorem drain_final_rest (text : Bytes) : (drain (cutRune true) text).2 = [] := by
  have hNone := cut_rest (cutRune_consumes true) text
  by_contra hRest
  rw [cutRune, if_neg hRest] at hNone
  simp only [Bool.not_true, Bool.false_and, Bool.false_eq_true, if_false] at hNone
  split at hNone
  · cases hNone
  · split at hNone <;> cases hNone

end Runes

section Frames

variable {answers : Answers}

structure Fits (message : Bytes) : Prop where
  valid : Valid message
  bounded : message.length ≤ messageLimit

structure Wrote (key : String) (s s' : Adapter) (messages : List Bytes) : Prop where
  redactor : s'.redactor = s.redactor
  journal : s'.journal = s.journal ++ messages.map (entry key)
  good : ∀ message ∈ messages, message ≠ [] ∧ Fits message

variable {key : String} {s s' : Adapter}

theorem Wrote.trans {s'' : Adapter} {first second : List Bytes} (h : Wrote key s s' first)
    (h' : Wrote key s' s'' second) : Wrote key s s'' (first ++ second) where
  redactor := h'.redactor.trans h.redactor
  journal := by rw [h'.journal, h.journal, List.map_append, List.append_assoc]
  good := List.forall_mem_append.mpr ⟨h.good, h'.good⟩

theorem emit_tails (answers : Answers) (s : Adapter) (key : String) (text : Bytes) :
    (emit answers s key text).1.tails = s.tails := by
  unfold emit
  dsimp only
  repeat' split
  all_goals rfl

theorem emit_ok {text : Bytes} (hText : Fits text) (h : emit answers s key text = (s', none)) :
    ∃ messages, Wrote key s s' messages ∧ messages.flatten = text := by
  unfold emit at h
  split at h
  · rename_i hNil
    cases h
    exact ⟨[], ⟨rfl, (List.append_nil _).symm, nofun⟩, hNil.symm⟩
  · rename_i hSome
    refine ⟨[text], ?_, List.flatten_singleton⟩
    dsimp only at h
    repeat' split at h
    all_goals cases h
    exact ⟨rfl, rfl, List.forall_mem_singleton.mpr ⟨hSome, hText⟩⟩

theorem fits_of_rune {piece : Bytes} (h : Rune piece) : Fits piece := by
  have hFour := (runeWidth_le piece).2
  rw [h.whole] at hFour
  refine ⟨?_, hFour.trans (by decide)⟩
  have hValid := Valid.rune_append h.width .nil
  rwa [h.whole, List.take_length, List.append_nil] at hValid

theorem packRunes_tails (answers : Answers) (key : String) (s : Adapter) (text : Bytes) (runes : List Bytes) :
    (packRunes answers key s text runes).1.tails = s.tails := by
  induction runes generalizing s text with
  | nil => rfl
  | cons _ _ ih =>
    have hEmit := emit_tails answers s key text
    rw [packRunes]
    split
    · split
      · rename_i hFailed
        rwa [hFailed] at hEmit
      · rename_i hDone
        rw [hDone] at hEmit
        rw [ih, hEmit]
    · exact ih s _

theorem packRunes_ok {text last : Bytes} {runes : List Bytes} (hText : Fits text)
    (hRunes : ∀ rune ∈ runes, Rune rune) (h : packRunes answers key s text runes = (s', .ok last)) :
    ∃ messages, Wrote key s s' messages ∧ messages.flatten ++ last = text ++ runes.flatten ∧ Fits last := by
  induction runes generalizing s text with
  | nil =>
    cases h
    exact ⟨[], ⟨rfl, (List.append_nil _).symm, nofun⟩, (List.append_nil _).symm, hText⟩
  | cons rune _ ih =>
    obtain ⟨hRune, hRunes⟩ := List.forall_mem_cons.mp hRunes
    rw [packRunes] at h
    split at h
    · split at h
      · cases h
      · rename_i hEmit
        obtain ⟨first, hFirst, hWritten⟩ := emit_ok hText hEmit
        obtain ⟨second, hSecond, hRest, hLast⟩ := ih (fits_of_rune hRune) hRunes h
        refine ⟨first ++ second, hFirst.trans hSecond, ?_, hLast⟩
        rw [List.flatten_append, List.append_assoc, hRest, hWritten, List.flatten_cons]
    · rename_i hRoom
      have hLonger : Fits (text ++ rune) :=
        ⟨hText.valid.append (fits_of_rune hRune).valid, by rw [List.length_append]; omega⟩
      obtain ⟨messages, hMessages, hRest, hLast⟩ := ih hLonger hRunes h
      exact ⟨messages, hMessages, by rw [hRest, List.append_assoc, List.flatten_cons], hLast⟩

theorem drain_runes (final : Bool) (text : Bytes) : ∀ rune ∈ (drain (cutRune final) text).1, Rune rune :=
  (forall_pieces (P := fun _ => True) (cutRune_consumes final)
    (fun _ _ _ _ hCut => ⟨cutRune_rune hCut, trivial⟩) trivial).1

theorem frame_ok {safe : Bytes} {final : Bool} (h : frame answers s key safe final = (s', none)) :
    ∃ messages, Wrote key s s' messages ∧
      messages.flatten = (drain (cutRune final) (s.tails key ++ safe)).1.flatten ∧
      s'.tails = Function.update s.tails key (drain (cutRune final) (s.tails key ++ safe)).2 := by
  unfold frame at h
  dsimp only at h
  split at h
  · cases h
  · rename_i packed last hPack
    have hTails := packRunes_tails answers key { s with tails := Function.update s.tails key [] } []
      (drain (cutRune final) (s.tails key ++ safe)).1
    obtain ⟨first, hFirst, hPacked, hLast⟩ := packRunes_ok ⟨.nil, Nat.zero_le _⟩ (drain_runes final _) hPack
    obtain ⟨second, hSecond, hWritten⟩ := emit_ok hLast h
    have hKept := emit_tails answers { packed with
      tails := Function.update packed.tails key (drain (cutRune final) (s.tails key ++ safe)).2 } key last
    rw [hPack] at hTails
    rw [h] at hKept
    refine ⟨first ++ second, ⟨hSecond.redactor.trans hFirst.redactor, ?_, ?_⟩, ?_, ?_⟩
    · rw [hSecond.journal, hFirst.journal, List.map_append, List.append_assoc]
    · exact List.forall_mem_append.mpr ⟨hFirst.good, hSecond.good⟩
    · rw [List.flatten_append, hWritten, hPacked, List.nil_append]
    · rw [hKept, hTails, Function.update_idem]

theorem frame_tails (answers : Answers) (h : ∀ key, (s.tails key).length ≤ 3) (key : String) (safe : Bytes) :
    ∀ other, ((frame answers s key safe false).1.tails other).length ≤ 3 := by
  have hRest : (drain (cutRune false) (s.tails key ++ safe)).2.length ≤ 3 :=
    cutRune_none (cut_rest (cutRune_consumes false) _)
  have hPack := packRunes_tails answers key { s with tails := Function.update s.tails key [] } []
    (drain (cutRune false) (s.tails key ++ safe)).1
  intro other
  unfold frame
  dsimp only
  split
  · rename_i hFailed
    rw [hFailed] at hPack
    dsimp only at hPack
    simp only [hPack, Function.update_apply]
    split
    · exact Nat.zero_le 3
    · exact h other
  · rename_i hDone
    rw [hDone] at hPack
    dsimp only at hPack
    simp only [emit_tails, hPack, Function.update_idem, Function.update_apply]
    split
    · exact hRest
    · exact h other

end Frames

section Keys

theorem entry_iff {component stream : String} (hValid : validBuildOutput component stream = true) (key : String)
    (message : Bytes) :
    (entry key message).component = component ∧ (entry key message).stream = stream ↔
      key = outputKey component stream := by
  constructor
  · rintro ⟨rfl, rfl⟩
    have hSplit := List.takeWhile_append_dropWhile (p := (· ≠ '/')) (l := key.toList)
    cases hDrop : key.toList.dropWhile (· ≠ '/') with
    | nil =>
      have hStream : (entry key message).stream = "" := by
        rw [entry, hDrop]
        rfl
      rw [validBuildOutput, hStream, Bool.and_eq_true] at hValid
      exact absurd hValid.2 (by decide)
    | cons c _ =>
      have hSlash : c = '/' := by
        have hHead := List.head?_dropWhile_not (· ≠ '/') key.toList
        rw [hDrop] at hHead
        simpa using hHead
      rw [hDrop, hSlash] at hSplit
      apply String.toList_injective
      simp only [outputKey, String.toList_append, entry, hDrop, String.toList_ofList, List.append_assoc]
      exact hSplit.symm
  · rintro rfl
    simp only [validBuildOutput, components, streams, Bool.and_eq_true, List.contains_iff_mem, List.mem_cons,
      List.not_mem_nil, or_false] at hValid
    obtain ⟨rfl | rfl | rfl, rfl | rfl | rfl⟩ := hValid <;> exact ⟨rfl, rfl⟩

def journaled (component stream : String) (s : Adapter) : Bytes := (messagesOf component stream s.journal).flatten

theorem Wrote.journaled_eq {key : String} {s s' : Adapter} {messages : List Bytes} (h : Wrote key s s' messages)
    {component stream : String} (hValid : validBuildOutput component stream = true) :
    journaled component stream s' =
      journaled component stream s ++ if key = outputKey component stream then messages.flatten else [] := by
  have hEntries : messagesOf component stream (messages.map (entry key)) =
      if key = outputKey component stream then messages else [] := by
    have hKey : ∀ message,
        (decide ((entry key message).component = component) && decide ((entry key message).stream = stream)) =
          decide (key = outputKey component stream) := by
      intro message
      rw [Bool.eq_iff_iff]
      simpa using entry_iff hValid key message
    simp only [messagesOf, List.filter_map, Function.comp_def, hKey]
    split
    · rename_i hSame
      simp [hSame, Function.comp_def, entry]
    · rename_i hOther
      simp [hOther]
  rw [journaled, h.journal, messagesOf, List.filter_append, List.map_append, List.flatten_append]
  change _ ++ (messagesOf component stream (messages.map (entry key))).flatten = _
  rw [hEntries]
  split <;> rfl

end Keys

section Runs

variable {grow : Nat → Nat} {answers : Answers}

structure Progress (s : Adapter) (texts : String → Bytes) : Prop where
  written : ∀ component stream, validBuildOutput component stream = true →
    journaled component stream s = (drain (cutRune false) (texts (outputKey component stream))).1.flatten
  tails : ∀ key, s.tails key = (drain (cutRune false) (texts key)).2
  good : ∀ e ∈ s.journal, e.message ≠ [] ∧ Fits e.message

variable {s s' : Adapter} {texts : String → Bytes}

theorem Wrote.good_journal {key : String} {messages : List Bytes} (h : Wrote key s s' messages)
    (hGood : ∀ e ∈ s.journal, e.message ≠ [] ∧ Fits e.message) :
    ∀ e ∈ s'.journal, e.message ≠ [] ∧ Fits e.message := by
  rw [h.journal, List.forall_mem_append]
  refine ⟨hGood, fun e he => ?_⟩
  obtain ⟨message, hMessage, rfl⟩ := List.mem_map.mp he
  exact h.good message hMessage

theorem frame_progress (hProgress : Progress s texts) {key : String} {safe : Bytes}
    (h : frame answers s key safe false = (s', none)) :
    Progress s' (Function.update texts key (texts key ++ safe)) ∧ s'.redactor = s.redactor := by
  obtain ⟨messages, hWrote, hMessages, hTails⟩ := frame_ok h
  have hAppend := drain_append (cutRune_consumes false) cutRune_stable (texts key) safe
  rw [hProgress.tails key] at hMessages hTails
  refine ⟨⟨fun component stream hValid => ?_, fun other => ?_, hWrote.good_journal hProgress.good⟩, hWrote.redactor⟩
  · rw [hWrote.journaled_eq hValid, hProgress.written component stream hValid, Function.update_apply]
    by_cases hKey : key = outputKey component stream
    · rw [if_pos hKey, if_pos hKey.symm, hAppend, List.flatten_append, hMessages, hKey]
    · rw [if_neg hKey, if_neg (Ne.symm hKey), List.append_nil]
  · rw [hTails, Function.update_apply, Function.update_apply]
    split
    · rw [hAppend]
    · exact hProgress.tails other

theorem sink_progress (hProgress : Progress s texts) {out : Output} (h : sink grow answers s out = (s', none)) :
    Progress s' (Function.update texts out.key (texts out.key ++ (redactChunk grow s.redactor out.key out.data).2)) ∧
      s'.redactor = (redactChunk grow s.redactor out.key out.data).1 := by
  unfold sink at h
  split at h
  · cases h
  · split at h
    · cases h
    · split at h
      · cases h
      · dsimp only at h
        split at h
        · cases h
        · rename_i hFrame
          cases h
          obtain ⟨hNext, hRedactor⟩ := frame_progress (s := { s with
            redactor := (redactChunk grow s.redactor out.key out.data).1, asked := s.asked + 1 })
            ⟨hProgress.written, hProgress.tails, hProgress.good⟩ hFrame
          exact ⟨hNext, hRedactor⟩

def keyed (outputs : List Output) : List (String × Bytes) := outputs.map fun out => (out.key, out.data)

theorem sinkAll_progress (hProgress : Progress s texts) (outputs : List Output)
    (h : ∀ result ∈ (sinkAll grow answers s outputs).2, result = none) :
    Progress (sinkAll grow answers s outputs).1
        (fun key => texts key ++ textOf key (runChunks grow s.redactor (keyed outputs)).2) ∧
      (sinkAll grow answers s outputs).1.redactor = (runChunks grow s.redactor (keyed outputs)).1 := by
  induction outputs generalizing s texts with
  | nil => exact ⟨by simpa [textOf, keyed, runChunks, sinkAll] using hProgress, rfl⟩
  | cons out _ ih =>
    simp only [sinkAll, List.forall_mem_cons] at h ⊢
    obtain ⟨hNext, hRedactor⟩ := sink_progress hProgress (Prod.ext rfl h.1)
    obtain ⟨hRest, hLast⟩ := ih hNext h.2
    rw [hRedactor] at hRest hLast
    refine ⟨?_, hLast⟩
    convert hRest using 2 with key
    simp only [keyed, List.map_cons, runChunks, textOf_cons, Function.update_apply]
    by_cases hKey : out.key = key
    · subst hKey
      simp
    · simp [hKey, Ne.symm hKey]

theorem frameAll_progress (hProgress : Progress s texts) {pieces : List (String × Bytes)}
    (h : frameAll answers false s pieces = (s', none)) : Progress s' (fun key => texts key ++ textOf key pieces) := by
  induction pieces generalizing s texts with
  | nil =>
    cases h
    simpa [textOf] using hProgress
  | cons piece _ ih =>
    obtain ⟨name, safe⟩ := piece
    rw [frameAll] at h
    split at h
    · cases h
    · rename_i hFrame
      convert ih (frame_progress hProgress hFrame).1 h using 2 with key
      simp only [textOf_cons, Function.update_apply]
      by_cases hKey : name = key
      · subst hKey
        simp
      · simp [hKey, Ne.symm hKey]

theorem frameAll_final {keys : List (String × Bytes)} (hKeys : ∀ entry ∈ keys, entry.2 = [])
    (h : frameAll answers true s keys = (s', none)) (hGood : ∀ e ∈ s.journal, e.message ≠ [] ∧ Fits e.message) :
    (∀ component stream, validBuildOutput component stream = true →
      journaled component stream s' ++ transcoded (s'.tails (outputKey component stream)) =
        journaled component stream s ++ transcoded (s.tails (outputKey component stream))) ∧
    (∀ key, (∃ entry ∈ keys, entry.1 = key) ∨ s.tails key = [] → s'.tails key = []) ∧
    ∀ e ∈ s'.journal, e.message ≠ [] ∧ Fits e.message := by
  induction keys generalizing s with
  | nil =>
    cases h
    exact ⟨fun _ _ _ => rfl, fun _ hKey => hKey.resolve_left (by simp), hGood⟩
  | cons entry _ ih =>
    obtain ⟨name, safe⟩ := entry
    obtain ⟨rfl, hOthers⟩ := List.forall_mem_cons.mp hKeys
    rw [frameAll] at h
    split at h
    · cases h
    · rename_i next hFrame
      obtain ⟨messages, hWrote, hMessages, hTails⟩ := frame_ok hFrame
      rw [List.append_nil] at hMessages hTails
      rw [drain_final_rest] at hTails
      obtain ⟨hTexts, hEmpty, hLast⟩ := ih hOthers h (hWrote.good_journal hGood)
      refine ⟨fun component stream hValid => ?_, fun key hKey => hEmpty key ?_, hLast⟩
      · rw [hTexts component stream hValid, hWrote.journaled_eq hValid, hTails, Function.update_apply]
        by_cases hName : name = outputKey component stream
        · rw [if_pos hName, if_pos hName.symm, hMessages, ← hName, ← transcoded_eq, List.append_assoc]
          exact congrArg _ (List.append_nil _)
        · rw [if_neg hName, if_neg (Ne.symm hName), List.append_nil]
      · rw [hTails, Function.update_apply]
        split
        · exact .inr rfl
        · rename_i hOther
          rcases hKey with ⟨entry, hEntry, rfl⟩ | hNone
          · rcases List.mem_cons.mp hEntry with rfl | hLater
            · exact absurd rfl hOther
            · exact .inl ⟨entry, hLater, rfl⟩
          · exact .inr hNone

theorem sinkAll_tails (h : ∀ key, (s.tails key).length ≤ 3) (outputs : List Output) :
    ∀ key, ((sinkAll grow answers s outputs).1.tails key).length ≤ 3 := by
  induction outputs generalizing s with
  | nil => exact h
  | cons out _ ih =>
    suffices hSink : ∀ key, ((sink grow answers s out).1.tails key).length ≤ 3 from ih hSink
    unfold sink
    split
    · exact h
    · split
      · exact h
      · split
        · exact h
        · have hFrame := frame_tails answers (s := { s with
            redactor := (redactChunk grow s.redactor out.key out.data).1, asked := s.asked + 1 }) h out.key
            (redactChunk grow s.redactor out.key out.data).2
          dsimp only
          split
          · rename_i hFailed
            rwa [hFailed] at hFrame
          · rename_i hDone
            rwa [hDone] at hFrame

theorem textOf_flushed (key : String) (events : List ProcessEvent) :
    textOf key (events.map fun event => (event.stream, event.message)) = messageOf key events := by
  simp [textOf, messageOf, List.filter_map, List.flatMap_map, Function.comp_def]

theorem mem_finalKeys {component stream : String} (h : validBuildOutput component stream = true) :
    ∃ entry ∈ finalKeys, entry.1 = outputKey component stream := by
  simp only [validBuildOutput, Bool.and_eq_true, List.contains_iff_mem] at h
  exact ⟨_, List.mem_flatMap.mpr ⟨component, h.1, List.mem_map_of_mem h.2⟩, rfl⟩

theorem finish_ok (hProgress : Progress s texts) (h : finish answers s = (s', none)) :
    (∀ component stream, validBuildOutput component stream = true → journaled component stream s' =
      transcoded (texts (outputKey component stream) ++
        messageOf (outputKey component stream) (flush s.redactor).2)) ∧
    ∀ e ∈ s'.journal, e.message ≠ [] ∧ Fits e.message := by
  unfold finish at h
  split at h
  · cases h
  · split at h
    · cases h
    · dsimp only at h
      split at h
      · cases h
      · rename_i flushed hFlushed
        split at h
        · cases h
        · rename_i last hLast
          have hNext := frameAll_progress (s := { s with redactor := (flush s.redactor).1, asked := s.asked + 1 })
            ⟨hProgress.written, hProgress.tails, hProgress.good⟩ hFlushed
          obtain ⟨hTexts, hEmpty, hGood⟩ := frameAll_final (by decide) hLast hNext.good
          split at h
          · cases h
            refine ⟨fun component stream hValid => ?_, hGood⟩
            have hText := hTexts component stream hValid
            rw [hEmpty _ (.inl (mem_finalKeys hValid)), hNext.written component stream hValid,
              hNext.tails (outputKey component stream), ← transcoded_split, textOf_flushed] at hText
            exact (List.append_nil _).symm.trans hText
          · cases h

end Runs

-- However the output is split and interleaved, a run that succeeds journals the redacted text of each component and
-- stream in messages of a bounded size.
theorem build_output_delivery (grow : Nat → Nat) (answers : Answers) (secrets : List SecretMaterial)
    (outputs : List Output) :
    (∀ key, ((sinkAll grow answers { redactor := newRedactor secrets } outputs).1.tails key).length ≤ 3) ∧
    ∀ s', (∀ result ∈ (sinkAll grow answers { redactor := newRedactor secrets } outputs).2, result = none) →
      finish answers (sinkAll grow answers { redactor := newRedactor secrets } outputs).1 = (s', none) →
      (∀ component stream, validBuildOutput component stream = true →
        (messagesOf component stream s'.journal).flatten =
          transcoded (redact grow (newRedactor secrets) (textOf (outputKey component stream) (keyed outputs)))) ∧
      ∀ e ∈ s'.journal, e.message ≠ [] ∧ Valid e.message ∧ e.message.length ≤ messageLimit := by
  refine ⟨sinkAll_tails (s := { redactor := newRedactor secrets }) (fun _ => Nat.zero_le 3) outputs, ?_⟩
  intro s' hSinks hFinish
  have hStart : Progress { redactor := newRedactor secrets } (fun _ => []) :=
    ⟨fun _ _ _ => rfl, fun _ => rfl, nofun⟩
  obtain ⟨hProgress, hRedactor⟩ := sinkAll_progress hStart outputs hSinks
  obtain ⟨hTexts, hGood⟩ := finish_ok hProgress hFinish
  refine ⟨fun component stream hValid => ?_, fun e he => ?_⟩
  · have hText := hTexts component stream hValid
    rw [hRedactor, List.nil_append] at hText
    rw [← streamed_eq_redact]
    exact hText
  · exact ⟨(hGood e he).1, (hGood e he).2.valid, (hGood e he).2.bounded⟩

section Sample

def willing : Answers := ⟨fun _ => true, fun _ => true, fun _ => true, fun _ => true⟩

def sampleOutputs : List Output :=
  [⟨"build", "stdout", [0xE2, 0x82]⟩, ⟨"build", "stderr", [0]⟩, ⟨"build", "stdout", [0xAC]⟩]

theorem sample_delivery :
    (finish willing (sinkAll id willing { redactor := newRedactor [] } sampleOutputs).1).2 = none ∧
    (messagesOf "build" "stdout" (finish willing
      (sinkAll id willing { redactor := newRedactor [] } sampleOutputs).1).1.journal).flatten = [0xE2, 0x82, 0xAC] ∧
    (messagesOf "build" "stderr" (finish willing
      (sinkAll id willing { redactor := newRedactor [] } sampleOutputs).1).1.journal).flatten = replacement := by
  have hFinish : (finish willing (sinkAll id willing { redactor := newRedactor [] } sampleOutputs).1).2 = none := by
    decide +kernel
  obtain ⟨hTexts, -⟩ := (build_output_delivery id willing [] sampleOutputs).2
    (finish willing (sinkAll id willing { redactor := newRedactor [] } sampleOutputs).1).1 (by decide +kernel)
    (Prod.ext rfl hFinish)
  exact ⟨hFinish, (hTexts "build" "stdout" rfl).trans (by decide +kernel),
    (hTexts "build" "stderr" rfl).trans (by decide +kernel)⟩

end Sample

end NeroCD.BuildOutput
