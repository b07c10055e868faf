import NeroCD.Framing
import NeroCD.GoStrings

-- UTF-8 as Go's `unicode/utf8` reads it. A rune is written as its bytes.

namespace NeroCD.Utf8

-- The number of bytes of a rune that starts with this byte, and the bounds of its second byte (`first` and
-- `acceptRanges`).
def lead (b : UInt8) : Option (Nat × UInt8 × UInt8) :=
  if b < 0x80 then some (1, 0x80, 0xBF)
  else if b < 0xC2 then none
  else if b < 0xE0 then some (2, 0x80, 0xBF)
  else if b = 0xE0 then some (3, 0xA0, 0xBF)
  else if b = 0xED then some (3, 0x80, 0x9F)
  else if b < 0xF0 then some (3, 0x80, 0xBF)
  else if b = 0xF0 then some (4, 0x90, 0xBF)
  else if b < 0xF4 then some (4, 0x80, 0xBF)
  else if b = 0xF4 then some (4, 0x80, 0x8F)
  else none

inductive Follow where
  | complete
  | broken
  | unfinished
deriving DecidableEq

def follow : Nat → UInt8 → UInt8 → Bytes → Follow
  | 0, _, _, _ => .complete
  | _ + 1, _, _, [] => .unfinished
  | n + 1, low, high, b :: rest => if low ≤ b ∧ b ≤ high then follow n 0x80 0xBF rest else .broken

def runeWidth : Bytes → Nat
  | [] => 0
  | b :: rest =>
    match lead b with
    | none => 0
    | some (size, low, high) => if follow (size - 1) low high rest = .complete then size else 0

-- `utf8.FullRune`: an invalid byte counts as a rune.
def fullRune : Bytes → Bool
  | [] => false
  | b :: rest =>
    match lead b with
    | none => true
    | some (size, low, high) => follow (size - 1) low high rest != .unfinished

def runeStart (b : UInt8) : Bool := b &&& 0xC0 != 0x80

def replacement : Bytes := [0xEF, 0xBF, 0xBD]

-- `strings.ToValidUTF8` with the replacement character: one for each run of invalid bytes.
def toValidLoop : Nat → Bool → Bytes → Bytes
  | 0, _, _ => []
  | _, _, [] => []
  | fuel + 1, invalid, b :: rest =>
    if runeWidth (b :: rest) = 0 then
      (if invalid then [] else replacement) ++ toValidLoop fuel true rest
    else
      (b :: rest).take (runeWidth (b :: rest)) ++ toValidLoop fuel false ((b :: rest).drop (runeWidth (b :: rest)))

def toValidUTF8 (text : Bytes) : Bytes := toValidLoop text.length false text

-- `utf8.Valid`.
inductive Valid : Bytes → Prop
  | nil : Valid []
  | cons (text : Bytes) : 0 < runeWidth text → Valid (text.drop (runeWidth text)) → Valid text

section Runes

variable {b low high : UInt8} {n k : Nat} {text : Bytes}

theorem lead_bounds {size : Nat} (h : lead b = some (size, low, high)) :
    (0 < size ∧ size ≤ 4) ∧ 0x80 ≤ low ∧ high ≤ 0xBF := by
  unfold lead at h
  repeat' split at h
  all_goals cases h
  all_goals decide

theorem runeStart_lead {size : Nat} (h : lead b = some (size, low, high)) : runeStart b = true := by
  have hAll : ∀ n : Fin 256, (lead (UInt8.ofNat n)).isSome = true → runeStart (UInt8.ofNat n) = true := by
    decide +kernel
  have hByte := hAll ⟨b.toNat, b.toNat_lt⟩
  simp only [UInt8.ofNat_toNat, h, Option.isSome_some] at hByte
  exact hByte trivial

theorem not_runeStart (hLow : 0x80 ≤ b) (hHigh : b ≤ 0xBF) : runeStart b = false := by
  have hAll : ∀ n : Fin 256, 0x80 ≤ n.1 → n.1 ≤ 0xBF → runeStart (UInt8.ofNat n) = false := by decide +kernel
  have hByte := hAll ⟨b.toNat, b.toNat_lt⟩ (UInt8.le_iff_toNat_le.mp hLow) (UInt8.le_iff_toNat_le.mp hHigh)
  rwa [UInt8.ofNat_toNat] at hByte

theorem follow_append (h : follow n low high text ≠ .unfinished) (more : Bytes) :
    follow n low high (text ++ more) = follow n low high text := by
  induction n generalizing low high text with
  | zero => rfl
  | succ n ih =>
    cases text with
    | nil => exact absurd rfl h
    | cons _ _ =>
      simp only [List.cons_append, follow] at h ⊢
      split
      · rename_i hWithin
        rw [if_pos hWithin] at h
        exact ih h
      · rfl

theorem follow_complete (h : follow n low high text = .complete) (hLow : 0x80 ≤ low) (hHigh : high ≤ 0xBF) :
    n ≤ text.length ∧ ∀ b ∈ text.take n, runeStart b = false := by
  induction n generalizing low high text with
  | zero => exact ⟨Nat.zero_le _, fun b hb => absurd hb (by simp)⟩
  | succ n ih =>
    cases text with
    | nil => cases h
    | cons _ _ =>
      simp only [follow] at h
      split at h
      · rename_i hWithin
        obtain ⟨hLength, hRest⟩ := ih h (by decide) (by decide)
        refine ⟨Nat.succ_le_succ hLength, ?_⟩
        rw [List.take_succ_cons, List.forall_mem_cons]
        exact ⟨not_runeStart (UInt8.le_trans hLow hWithin.1) (UInt8.le_trans hWithin.2 hHigh), hRest⟩
      · cases h

theorem follow_take (h : follow n low high text = .complete) :
    follow n low high (text.take k) = if k < n then .unfinished else .complete := by
  induction n generalizing low high text k with
  | zero => rfl
  | succ n ih =>
    cases text with
    | nil => cases h
    | cons _ _ =>
      cases k with
      | zero => rfl
      | succ k =>
        simp only [List.take_succ_cons, follow] at h ⊢
        split at h
        · rename_i hWithin
          rw [if_pos hWithin, ih h]
          simp only [Nat.add_lt_add_iff_right]
        · cases h

theorem follow_of_length_le (h : n ≤ text.length) : follow n low high text ≠ .unfinished := by
  induction n generalizing low high text with
  | zero => nofun
  | succ n ih =>
    cases text with
    | nil => exact absurd h (Nat.not_succ_le_zero n)
    | cons _ _ =>
      rw [follow]
      split
      · exact ih (Nat.le_of_succ_le_succ h)
      · nofun

theorem runeWidth_pos (h : 0 < runeWidth text) :
    ∃ b rest size low high, text = b :: rest ∧ lead b = some (size, low, high) ∧
      follow (size - 1) low high rest = .complete ∧ runeWidth text = size := by
  cases text with
  | nil => exact absurd h (Nat.lt_irrefl 0)
  | cons b rest =>
    simp only [runeWidth] at h ⊢
    split at h
    · exact absurd h (Nat.lt_irrefl 0)
    · rename_i size low high hLead
      split at h
      · rename_i hFollow
        exact ⟨b, rest, size, low, high, rfl, hLead, hFollow, by simp only [hFollow, if_true]⟩
      · exact absurd h (Nat.lt_irrefl 0)

theorem runeWidth_le (text : Bytes) : runeWidth text ≤ text.length ∧ runeWidth text ≤ 4 := by
  by_cases h : 0 < runeWidth text
  · obtain ⟨b, rest, size, low, high, rfl, hLead, hFollow, hWidth⟩ := runeWidth_pos h
    have hBounds := lead_bounds hLead
    have hLength := (follow_complete hFollow hBounds.2.1 hBounds.2.2).1
    rw [hWidth, List.length_cons]
    omega
  · omega

theorem fullRune_append (h : fullRune text = true) (more : Bytes) :
    fullRune (text ++ more) = true ∧ runeWidth (text ++ more) = runeWidth text := by
  cases text with
  | nil => cases h
  | cons _ _ =>
    simp only [List.cons_append, fullRune, runeWidth] at h ⊢
    split
    · exact ⟨rfl, rfl⟩
    · rename_i size low high hLead
      simp only [hLead, bne_iff_ne] at h
      rw [follow_append h more]
      exact ⟨bne_iff_ne.mpr h, rfl⟩

theorem fullRune_of_four (h : 4 ≤ text.length) : fullRune text = true := by
  cases text with
  | nil => exact absurd h (by decide)
  | cons _ _ =>
    rw [List.length_cons] at h
    rw [fullRune]
    split
    · rfl
    · rename_i size low high hLead
      have hBounds := lead_bounds hLead
      exact bne_iff_ne.mpr (follow_of_length_le (by omega))

theorem fullRune_take (h : 0 < runeWidth text) : fullRune (text.take k) = decide (runeWidth text ≤ k) := by
  obtain ⟨b, rest, size, low, high, rfl, hLead, hFollow, hWidth⟩ := runeWidth_pos h
  have hBounds := (lead_bounds hLead).1
  rw [hWidth]
  cases k with
  | zero =>
    simp only [List.take_zero, fullRune]
    exact (decide_eq_false (by omega)).symm
  | succ k =>
    simp only [List.take_succ_cons, fullRune, hLead, follow_take hFollow]
    by_cases hk : k < size - 1
    · rw [if_pos hk, decide_eq_false (by omega)]
      rfl
    · rw [if_neg hk, decide_eq_true (by omega)]
      rfl

theorem runeWidth_take (hk : runeWidth text ≤ k) (h : 0 < runeWidth text) :
    runeWidth (text.take k) = runeWidth text := by
  have hFull : fullRune (text.take k) = true := by rw [fullRune_take h, decide_eq_true hk]
  have hAppend := (fullRune_append hFull (text.drop k)).2
  rw [List.take_append_drop] at hAppend
  exact hAppend.symm

theorem runeWidth_take_append (h : 0 < runeWidth text) (more : Bytes) :
    runeWidth (text.take (runeWidth text) ++ more) = runeWidth text := by
  have hFull : fullRune (text.take (runeWidth text)) = true := by rw [fullRune_take h, decide_eq_true (Nat.le_refl _)]
  rw [(fullRune_append hFull more).2, runeWidth_take (Nat.le_refl _) h]

end Runes

section Valid

variable {text : Bytes}

theorem Valid.rune_append {more : Bytes} (h : 0 < runeWidth text) (hMore : Valid more) :
    Valid (text.take (runeWidth text) ++ more) := by
  have hWidth := runeWidth_take_append h more
  refine .cons _ (by rwa [hWidth]) ?_
  have hTake : (text.take (runeWidth text)).length = runeWidth text := by
    rw [List.length_take, Nat.min_eq_left (runeWidth_le text).1]
  rw [hWidth, List.drop_append_of_le_length (Nat.le_of_eq hTake.symm), List.drop_of_length_le (Nat.le_of_eq hTake),
    List.nil_append]
  exact hMore

theorem Valid.append {more : Bytes} (h : Valid text) (hMore : Valid more) : Valid (text ++ more) := by
  induction h with
  | nil => exact hMore
  | cons text hWidth _ ih =>
    rw [← List.take_append_drop (runeWidth text) text, List.append_assoc]
    exact .rune_append hWidth ih

theorem Valid.width_pos (h : Valid text) (hText : text ≠ []) : 0 < runeWidth text := by
  cases h with
  | nil => exact absurd rfl hText
  | cons _ hWidth _ => exact hWidth

theorem Valid.drop_rune (h : Valid text) : Valid (text.drop (runeWidth text)) := by
  cases h with
  | nil => exact .nil
  | cons _ _ hRest => exact hRest

theorem valid_replacement : Valid replacement := .cons _ (by decide) .nil

theorem Valid.split (h : Valid text) {k : Nat} (hk : ∀ b ∈ (text.drop k).head?, runeStart b = true) :
    Valid (text.take k) ∧ Valid (text.drop k) := by
  induction h generalizing k with
  | nil =>
    rw [List.take_nil, List.drop_nil]
    exact ⟨.nil, .nil⟩
  | cons text hWidth hRest ih =>
    by_cases hLess : k < runeWidth text
    · cases k with
      | zero => exact ⟨.nil, .cons text hWidth hRest⟩
      | succ k =>
        -- the cut lies inside the first rune, and there no rune starts
        obtain ⟨b, rest, size, low, high, rfl, hLead, hFollow, hSize⟩ := runeWidth_pos hWidth
        have hBounds := lead_bounds hLead
        obtain ⟨hLength, hInside⟩ := follow_complete hFollow hBounds.2.1 hBounds.2.2
        rw [List.drop_succ_cons, List.head?_drop] at hk
        have hIndex : k < rest.length := by omega
        have hStart := hk rest[k] (List.getElem?_eq_getElem hIndex)
        have hNot := hInside rest[k] (List.mem_take_iff_getElem.mpr ⟨k, by omega, rfl⟩)
        exact absurd (hStart.symm.trans hNot) (by decide)
    · obtain ⟨j, rfl⟩ : ∃ j, k = runeWidth text + j := ⟨k - runeWidth text, by omega⟩
      rw [← List.drop_drop] at hk ⊢
      obtain ⟨hTake, hDrop⟩ := ih hk
      refine ⟨?_, hDrop⟩
      rw [List.take_add]
      exact .rune_append hWidth hTake

theorem Valid.part (h : Valid text) {i : Nat} {b : UInt8} (hb : text[i]? = some b) (hPlain : b < 0x80) :
    Valid (text.take i) ∧ Valid (text.drop (i + 1)) := by
  have hLead : lead b = some (1, 0x80, 0xBF) := if_pos hPlain
  obtain ⟨hIndex, rfl⟩ := List.getElem?_eq_some_iff.mp hb
  obtain ⟨hTake, hDrop⟩ : Valid (text.take i) ∧ Valid (text.drop i) := by
    apply h.split
    intro c hc
    rw [List.head?_drop, hb] at hc
    exact Option.some.inj hc ▸ runeStart_lead hLead
  refine ⟨hTake, ?_⟩
  have hRest := hDrop.drop_rune
  rw [List.drop_eq_getElem_cons hIndex] at hRest
  rwa [runeWidth, hLead] at hRest

theorem valid_plain (h : ∀ b ∈ text, b < 0x80) : Valid text := by
  induction text with
  | nil => exact .nil
  | cons b rest ih =>
    obtain ⟨hPlain, hRest⟩ := List.forall_mem_cons.mp h
    have hWidth : runeWidth (b :: rest) = 1 := by
      have hLead : lead b = some (1, 0x80, 0xBF) := if_pos hPlain
      rw [runeWidth, hLead]
      rfl
    exact .cons _ (by rw [hWidth]; exact Nat.one_pos) (by rw [hWidth]; exact ih hRest)

theorem Valid.unfinished (h : Valid text) {k : Nat} (hk : ∃ b ∈ (text.drop k).head?, runeStart b = false) :
    ∃ start, start < k ∧ k ≤ start + 3 ∧ (∃ b, text[start]? = some b ∧ runeStart b = true) ∧
      fullRune ((text.take k).drop start) = false := by
  induction h generalizing k with
  | nil =>
    obtain ⟨b, hb, -⟩ := hk
    simp at hb
  | cons text hWidth _ ih =>
    by_cases hLess : k < runeWidth text
    · obtain ⟨b, rest, size, low, high, rfl, hLead, hFollow, hSize⟩ := runeWidth_pos hWidth
      have hStart := runeStart_lead hLead
      have hFour := (runeWidth_le (b :: rest)).2
      have hPos : 0 < k := by
        refine Nat.pos_of_ne_zero ?_
        rintro rfl
        obtain ⟨b', hb', hNot⟩ := hk
        obtain rfl : b = b' := by simpa using hb'
        exact absurd (hStart.symm.trans hNot) (by decide)
      refine ⟨0, hPos, by omega, ⟨b, rfl, hStart⟩, ?_⟩
      rw [List.drop_zero, fullRune_take hWidth, decide_eq_false (by omega)]
    · obtain ⟨j, rfl⟩ : ∃ j, k = runeWidth text + j := ⟨k - runeWidth text, by omega⟩
      rw [← List.drop_drop] at hk
      obtain ⟨start, hBefore, hNear, ⟨b, hb, hStart⟩, hOpen⟩ := ih hk
      refine ⟨runeWidth text + start, by omega, by omega, ⟨b, by rw [← hb, List.getElem?_drop], hStart⟩, ?_⟩
      rw [List.drop_take, ← List.drop_drop, Nat.add_sub_add_left, ← List.drop_take]
      exact hOpen

end Valid

section ToValid

theorem toValidLoop_valid (fuel : Nat) (invalid : Bool) (text : Bytes) : Valid (toValidLoop fuel invalid text) := by
  induction fuel generalizing invalid text with
  | zero => exact .nil
  | succ _ ih =>
    cases text with
    | nil => exact .nil
    | cons b rest =>
      rw [toValidLoop]
      split
      · refine .append ?_ (ih true rest)
        split
        · exact .nil
        · exact valid_replacement
      · rename_i hWidth
        exact .rune_append (Nat.pos_of_ne_zero hWidth) (ih false _)

theorem toValidUTF8_valid (text : Bytes) : Valid (toValidUTF8 text) := toValidLoop_valid _ _ _

theorem toValidUTF8_eq_self {text : Bytes} (h : Valid text) : toValidUTF8 text = text := by
  have hLoop : ∀ fuel invalid, text.length ≤ fuel → toValidLoop fuel invalid text = text := by
    induction h with
    | nil =>
      intro fuel invalid _
      cases fuel <;> rfl
    | cons text hWidth _ ih =>
      intro fuel invalid hFuel
      have hLe := (runeWidth_le text).1
      obtain ⟨fuel, rfl⟩ : ∃ less, fuel = less + 1 := ⟨fuel - 1, by omega⟩
      obtain ⟨b, rest, rfl⟩ := List.exists_cons_of_length_pos (l := text) (by omega)
      rw [toValidLoop, if_neg (Nat.ne_of_gt hWidth), ih fuel false (by rw [List.length_drop]; omega),
        List.take_append_drop]
  exact hLoop _ _ (Nat.le_refl _)

instance decidableValid (text : Bytes) : Decidable (Valid text) :=
  decidable_of_iff (toValidUTF8 text = text) ⟨fun h => h ▸ toValidUTF8_valid text, toValidUTF8_eq_self⟩

end ToValid

section Transcoding

-- A rune that may still be finished waits, unless the text ends here.
def cutRune (final : Bool) (text : Bytes) : Option (Bytes × Nat) :=
  if text = [] then none
  else if !final && !fullRune text then none
  else if runeWidth text = 0 then some (replacement, 1)
  else if text.take (runeWidth text) = [0] then some (replacement, runeWidth text)
  else some (text.take (runeWidth text), runeWidth text)

theorem cutRune_consumes (final : Bool) : Framing.Consumes (cutRune final) := by
  intro text piece n h
  have hLe := (runeWidth_le text).1
  unfold cutRune at h
  split at h
  · cases h
  · rename_i hText
    have hSome := List.length_pos_iff.mpr hText
    split at h
    · cases h
    · split at h
      · cases h
        omega
      · split at h <;> cases h <;> omega

theorem cutRune_stable : Framing.Stable (cutRune false) := by
  intro text piece n h more
  unfold cutRune at h ⊢
  split at h
  · cases h
  · rename_i hText
    split at h
    · cases h
    · rename_i hFull
      simp only [Bool.not_false, Bool.true_and, Bool.not_eq_true', Bool.not_eq_false] at hFull
      obtain ⟨hFull', hWidth⟩ := fullRune_append hFull more
      rw [if_neg (by simp [hText]), hFull', hWidth, List.take_append_of_le_length (runeWidth_le text).1]
      exact h

theorem cutRune_none {text : Bytes} (h : cutRune false text = none) : text.length ≤ 3 := by
  by_contra hLong
  have hText : text ≠ [] := List.ne_nil_of_length_pos (by omega)
  rw [cutRune, if_neg hText, fullRune_of_four (by omega)] at h
  simp only [Bool.not_true, Bool.and_false, Bool.false_eq_true, if_false] at h
  split at h
  · cases h
  · split at h <;> cases h

structure Rune (piece : Bytes) : Prop where
  width : 0 < runeWidth piece
  whole : runeWidth piece = piece.length
  noNul : 0 ∉ piece

theorem rune_replacement : Rune replacement := ⟨by decide, by decide, by decide⟩

theorem nul_notMem_rune {text : Bytes} (h : 0 < runeWidth text) (hNul : text.take (runeWidth text) ≠ [0]) :
    0 ∉ text.take (runeWidth text) := by
  obtain ⟨b, rest, size, low, high, rfl, hLead, hFollow, hWidth⟩ := runeWidth_pos h
  have hBounds := lead_bounds hLead
  obtain ⟨less, rfl⟩ : ∃ less, size = less + 1 := ⟨size - 1, by omega⟩
  rw [hWidth, List.take_succ_cons] at hNul ⊢
  intro hMem
  cases List.mem_cons.mp hMem with
  | inl hFirst =>
    subst hFirst
    have hOne : 1 = less + 1 := congrArg (fun found => (found.getD (1, 0, 0)).1) hLead
    obtain rfl : less = 0 := by omega
    exact hNul rfl
  | inr hInside =>
    have hNot := (follow_complete hFollow hBounds.2.1 hBounds.2.2).2 0 hInside
    exact absurd hNot (by decide)

theorem cutRune_rune {final : Bool} {text piece : Bytes} {n : Nat} (h : cutRune final text = some (piece, n)) :
    Rune piece := by
  unfold cutRune at h
  split at h
  · cases h
  · split at h
    · cases h
    · split at h
      · cases h
        exact rune_replacement
      · rename_i hWidth
        have hPos := Nat.pos_of_ne_zero hWidth
        split at h
        · cases h
          exact rune_replacement
        · rename_i hNul
          cases h
          have hTake := runeWidth_take (Nat.le_refl _) hPos
          refine ⟨by rwa [hTake], ?_, ?_⟩
          · rw [hTake, List.length_take, Nat.min_eq_left (runeWidth_le text).1]
          · exact nul_notMem_rune hPos hNul

end Transcoding

end NeroCD.Utf8
