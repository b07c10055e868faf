import NeroCD.Utf8

-- The admission of JSON requests by their Unicode (`validRuntimeJSONUnicode`), and the texts of JSON as bytes.

namespace NeroCD.JsonUnicode

open NeroCD.Utf8

def hexValue (b : UInt8) : Option Nat :=
  if 0x30 ≤ b ∧ b ≤ 0x39 then some (b.toNat - 0x30)
  else if 0x61 ≤ b ∧ b ≤ 0x66 then some (b.toNat - 0x61 + 10)
  else if 0x41 ≤ b ∧ b ≤ 0x46 then some (b.toNat - 0x41 + 10)
  else none

-- `strconv.ParseUint(text, 16, 16)` of four bytes, which cannot overflow.
def parseUint (a b c d : UInt8) : Option Nat := do
  return ((← hexValue a) * 16 + (← hexValue b)) * 256 + (← hexValue c) * 16 + (← hexValue d)

def isHigh (code : Nat) : Bool := 0xd800 ≤ code && code ≤ 0xdbff

def isLow (code : Nat) : Bool := 0xdc00 ≤ code && code ≤ 0xdfff

-- A check of the length is a pattern that does not match.
def scan : Bytes → Bool
  | [] => true
  | b :: rest =>
    if b ≠ 0x5c then scan rest
    else
      match rest with
      | [] => false
      | b :: rest =>
        if b ≠ 0x75 then scan rest
        else
          match rest with
          | a :: b :: c :: d :: rest =>
            match parseUint a b c d with
            | none => false
            | some code =>
              if isLow code then false
              else if isHigh code then
                match rest with
                | x :: y :: a :: b :: c :: d :: rest =>
                  if x ≠ 0x5c ∨ y ≠ 0x75 then false
                  else
                    match parseUint a b c d with
                    | none => false
                    | some low => if isLow low then scan rest else false
                | _ => false
              else scan rest
          | _ => false

def validRuntimeJSONUnicode (raw : Bytes) : Bool := if ¬ Valid raw then false else scan raw

inductive Piece
  | plain (b : UInt8) (h : 0x20 ≤ b ∧ b ≠ 0x22 ∧ b ≠ 0x5c)
  | short (b : UInt8) (h : b ∈ [0x22, 0x5c, 0x2f, 0x62, 0x66, 0x6e, 0x72, 0x74])
  | unicode (a b c d : UInt8) (code : Nat) (h : parseUint a b c d = some code)

namespace Piece

def bytes : Piece → Bytes
  | plain b _ => [b]
  | short b _ => [0x5c, b]
  | unicode a b c d _ _ => [0x5c, 0x75, a, b, c, d]

def high : Piece → Bool
  | unicode _ _ _ _ code _ => isHigh code
  | _ => false

def low : Piece → Bool
  | unicode _ _ _ _ code _ => isLow code
  | _ => false

end Piece

def quoted (pieces : List Piece) : Bytes := 0x22 :: (pieces.flatMap Piece.bytes ++ [0x22])

def Space (text : Bytes) : Prop := ∀ b ∈ text, b ∈ [0x20, 0x09, 0x0a, 0x0d]

def Digits (text : Bytes) : Prop := text ≠ [] ∧ ∀ b ∈ text, 0x30 ≤ b ∧ b ≤ 0x39

def Sign (text : Bytes) : Prop := text ∈ [[], [0x2b], [0x2d]]

structure Number (text : Bytes) : Prop where
  parts : ∃ sign int frac exp, text = sign ++ int ++ frac ++ exp ∧ sign ∈ [[], [0x2d]] ∧
    (Digits int ∧ (int.head? = some 0x30 → int = [0x30])) ∧
    (frac = [] ∨ ∃ digits, frac = 0x2e :: digits ∧ Digits digits) ∧
    (exp = [] ∨ ∃ e sign digits, exp = e :: sign ++ digits ∧ e ∈ [0x45, 0x65] ∧ Sign sign ∧ Digits digits)

inductive Part
  | value
  | element
  | member
  | many (part : Part)

-- The grammar of JSON: a text of a part, with the strings in it.
inductive Derives : Part → Bytes → List (List Piece) → Prop
  | null : Derives .value [0x6e, 0x75, 0x6c, 0x6c] []
  | true : Derives .value [0x74, 0x72, 0x75, 0x65] []
  | false : Derives .value [0x66, 0x61, 0x6c, 0x73, 0x65] []
  | number {text} (h : Number text) : Derives .value text []
  | string (pieces) : Derives .value (quoted pieces) [pieces]
  | emptyArray {space} (h : Space space) : Derives .value (0x5b :: (space ++ [0x5d])) []
  | array {text strings} (h : Derives (.many .element) text strings) :
      Derives .value (0x5b :: (text ++ [0x5d])) strings
  | emptyObject {space} (h : Space space) : Derives .value (0x7b :: (space ++ [0x7d])) []
  | object {text strings} (h : Derives (.many .member) text strings) :
      Derives .value (0x7b :: (text ++ [0x7d])) strings
  | element {before text after strings} (hBefore : Space before) (h : Derives .value text strings)
      (hAfter : Space after) : Derives .element (before ++ text ++ after) strings
  | member {before after text strings} (name) (hBefore : Space before) (hAfter : Space after)
      (h : Derives .element text strings) :
      Derives .member (before ++ quoted name ++ after ++ 0x3a :: text) (name :: strings)
  | one {part text strings} (h : Derives part text strings) : Derives (.many part) text strings
  | more {part text rest strings others} (h : Derives part text strings) (hRest : Derives (.many part) rest others) :
      Derives (.many part) (text ++ 0x2c :: rest) (strings ++ others)

structure WellFormed (pieces : List Piece) : Prop where
  high : ∀ i, pieces[i]?.any Piece.high → pieces[i + 1]?.any Piece.low
  low : ∀ i, pieces[i]?.any Piece.low → ∃ j, i = j + 1 ∧ pieces[j]?.any Piece.high

section WellFormed

variable {p q : Piece} {rest : List Piece}

theorem not_low_of_high (h : p.high = true) : p.low = false := by
  cases p with
  | unicode _ _ _ _ _ _ =>
    simp only [Piece.high, Piece.low, isHigh, isLow, Bool.and_eq_true, decide_eq_true_eq] at h ⊢
    simp only [Bool.and_eq_false_iff, decide_eq_false_iff_not]
    omega
  | _ => rfl

theorem wellFormed_nil : WellFormed [] := ⟨nofun, nofun⟩

theorem wellFormed_cons (hHigh : p.high = false) (hLow : p.low = false) :
    WellFormed (p :: rest) ↔ WellFormed rest := by
  constructor
  · intro h
    refine ⟨fun i hi => h.high (i + 1) hi, fun i hi => ?_⟩
    obtain ⟨j, hj, hjHigh⟩ := h.low (i + 1) hi
    cases j with
    | zero => simp [hHigh] at hjHigh
    | succ j => exact ⟨j, by omega, hjHigh⟩
  · intro h
    refine ⟨fun i hi => ?_, fun i hi => ?_⟩
    · cases i with
      | zero => simp [hHigh] at hi
      | succ i => exact h.high i hi
    · cases i with
      | zero => simp [hLow] at hi
      | succ i =>
        obtain ⟨j, rfl, hj⟩ := h.low i hi
        exact ⟨j + 1, rfl, hj⟩

theorem wellFormed_pair (hHigh : p.high = true) (hLow : q.low = true) :
    WellFormed (p :: q :: rest) ↔ WellFormed rest := by
  have hpLow := not_low_of_high hHigh
  have hqHigh : q.high = false := by
    cases hq : q.high with
    | false => rfl
    | true => rw [not_low_of_high hq] at hLow; cases hLow
  constructor
  · intro h
    refine ⟨fun i hi => h.high (i + 2) hi, fun i hi => ?_⟩
    obtain ⟨j, hj, hjHigh⟩ := h.low (i + 2) hi
    obtain rfl : j = i + 1 := by omega
    cases i with
    | zero => simp [hqHigh] at hjHigh
    | succ i => exact ⟨i, rfl, hjHigh⟩
  · intro h
    refine ⟨fun i hi => ?_, fun i hi => ?_⟩
    · match i with
      | 0 => simpa using hLow
      | 1 => simp [hqHigh] at hi
      | i + 2 => exact h.high i hi
    · match i with
      | 0 => simp [hpLow] at hi
      | 1 => exact ⟨0, rfl, by simpa using hHigh⟩
      | i + 2 =>
        obtain ⟨j, rfl, hj⟩ := h.low i hi
        exact ⟨j + 2, rfl, hj⟩

theorem not_wellFormed_low (hLow : p.low = true) : ¬ WellFormed (p :: rest) := by
  intro h
  obtain ⟨j, hj, -⟩ := h.low 0 (by simpa using hLow)
  cases hj

theorem not_wellFormed_high (hHigh : p.high = true) (hNext : ∀ q ∈ rest.head?, q.low = false) :
    ¬ WellFormed (p :: rest) := by
  intro h
  have hLow := h.high 0 (by simpa using hHigh)
  cases rest with
  | nil => simp at hLow
  | cons q _ => simp [hNext q rfl] at hLow

end WellFormed

section Scan

variable {rest : Bytes}

theorem scan_cons {b : UInt8} (h : b ≠ 0x5c) : scan (b :: rest) = scan rest := by
  rw [scan.eq_def]
  exact if_pos h

theorem scan_plain {text : Bytes} (h : 0x5c ∉ text) : scan (text ++ rest) = scan rest := by
  induction text with
  | nil => rfl
  | cons _ _ ih =>
    rw [List.mem_cons, not_or] at h
    rw [List.cons_append, scan_cons (Ne.symm h.1), ih h.2]

theorem scan_short {b : UInt8} (h : b ≠ 0x75) : scan (0x5c :: b :: rest) = scan rest := by
  rw [scan.eq_def]
  exact if_pos h

variable {a b c d : UInt8} {code : Nat} (h : parseUint a b c d = some code)

include h

theorem scan_low (hLow : isLow code = true) : scan (0x5c :: 0x75 :: a :: b :: c :: d :: rest) = false := by
  rw [scan.eq_def]
  simp [h, hLow]

theorem scan_unicode (hLow : isLow code = false) (hHigh : isHigh code = false) :
    scan (0x5c :: 0x75 :: a :: b :: c :: d :: rest) = scan rest := by
  rw [scan.eq_def]
  simp [h, hLow, hHigh]

theorem scan_pair {a' b' c' d' : UInt8} {code' : Nat} (h' : parseUint a' b' c' d' = some code')
    (hLow : isLow code = false) (hHigh : isHigh code = true) :
    scan (0x5c :: 0x75 :: a :: b :: c :: d :: 0x5c :: 0x75 :: a' :: b' :: c' :: d' :: rest) =
      (isLow code' && scan rest) := by
  rw [scan.eq_def]
  cases hLow' : isLow code' <;> simp [h, h', hLow, hHigh, hLow']

theorem scan_alone (hLow : isLow code = false) (hHigh : isHigh code = true) (hNext : rest.take 2 ≠ [0x5c, 0x75]) :
    scan (0x5c :: 0x75 :: a :: b :: c :: d :: rest) = false := by
  rw [scan.eq_def]
  simp only [ne_eq, not_true_eq_false, if_false, h, hLow, hHigh, Bool.false_eq_true, if_true]
  split
  · rw [if_pos]
    by_contra hBoth
    rw [not_or, not_not, not_not] at hBoth
    exact hNext (by rw [hBoth.1, hBoth.2]; rfl)
  · rfl

end Scan

theorem short_ne {b : UInt8} (h : b ∈ [0x22, 0x5c, 0x2f, 0x62, 0x66, 0x6e, 0x72, 0x74]) : b ≠ 0x75 := by
  rintro rfl
  revert h
  decide

-- The pieces are read one by one, a high surrogate together with the piece after it.
theorem scan_pieces (rest : Bytes) : ∀ pieces : List Piece,
    scan (pieces.flatMap Piece.bytes ++ 0x22 :: rest) = true ↔ WellFormed pieces ∧ scan rest = true
  | [] => by simp [scan_cons, wellFormed_nil]
  | .plain b hb :: pieces => by
    rw [wellFormed_cons rfl rfl, ← scan_pieces rest pieces]
    exact Bool.eq_iff_iff.mp (scan_cons hb.2.2)
  | .short b hb :: pieces => by
    rw [wellFormed_cons rfl rfl, ← scan_pieces rest pieces]
    exact Bool.eq_iff_iff.mp (scan_short (short_ne hb))
  | .unicode a b c d code h :: pieces => by
    have hRefused
        (hScan : scan ((Piece.unicode a b c d code h :: pieces).flatMap Piece.bytes ++ 0x22 :: rest) = false)
        (hNot : ¬ WellFormed (Piece.unicode a b c d code h :: pieces)) :
        scan ((Piece.unicode a b c d code h :: pieces).flatMap Piece.bytes ++ 0x22 :: rest) = true ↔
          WellFormed (Piece.unicode a b c d code h :: pieces) ∧ scan rest = true := by
      simp only [hScan, hNot, Bool.false_eq_true, false_and]
    cases hLow : isLow code with
    | true => exact hRefused (scan_low h hLow) (not_wellFormed_low hLow)
    | false =>
      cases hHigh : isHigh code with
      | false =>
        rw [wellFormed_cons (by exact hHigh) (by exact hLow), ← scan_pieces rest pieces]
        exact Bool.eq_iff_iff.mp (scan_unicode h hLow hHigh)
      | true =>
        match pieces with
        | [] => exact hRefused (scan_alone h hLow hHigh (by simp)) (not_wellFormed_high hHigh (by simp))
        | .plain b' hb :: pieces =>
          exact hRefused (scan_alone h hLow hHigh (by simp [Piece.bytes, hb.2.2]))
            (not_wellFormed_high hHigh (by simp [Piece.low]))
        | .short b' hb :: pieces =>
          exact hRefused (scan_alone h hLow hHigh (by simp [Piece.bytes, short_ne hb]))
            (not_wellFormed_high hHigh (by simp [Piece.low]))
        | .unicode a' b' c' d' code' h' :: pieces =>
          cases hLow' : isLow code' with
          | true =>
            rw [wellFormed_pair (by exact hHigh) (by exact hLow'), ← scan_pieces rest pieces]
            refine Bool.eq_iff_iff.mp ((scan_pair h h' hLow hHigh).trans ?_)
            rw [hLow', Bool.true_and]
            rfl
          | false =>
            refine hRefused ((scan_pair h h' hLow hHigh).trans ?_) (not_wellFormed_high hHigh ?_)
            · rw [hLow', Bool.false_and]
            · rintro _ ⟨⟩
              exact hLow'

theorem scan_quoted (pieces : List Piece) (rest : Bytes) :
    scan (quoted pieces ++ rest) = true ↔ WellFormed pieces ∧ scan rest = true := by
  rw [← scan_pieces, quoted, List.cons_append, List.append_assoc, scan_cons (by decide)]
  rfl

theorem Space.scan {space : Bytes} (h : Space space) (rest : Bytes) :
    JsonUnicode.scan (space ++ rest) = JsonUnicode.scan rest :=
  scan_plain fun hMem => absurd (h _ hMem) (by decide)

theorem Digits.plain {digits : Bytes} (h : Digits digits) : 0x5c ∉ digits :=
  fun hMem => absurd (h.2 _ hMem) (by decide)

theorem Number.plain {text : Bytes} (h : Number text) : 0x5c ∉ text := by
  obtain ⟨sign, int, frac, exp, rfl, hSign, hInt, hFrac, hExp⟩ := h.parts
  simp only [List.mem_append, not_or]
  refine ⟨⟨⟨?_, hInt.1.plain⟩, ?_⟩, ?_⟩
  · simp only [List.mem_cons, List.not_mem_nil, or_false] at hSign
    rcases hSign with rfl | rfl
    · decide
    · decide
  · rcases hFrac with rfl | ⟨digits, rfl, hDigits⟩
    · simp
    · simpa using hDigits.plain
  · rcases hExp with rfl | ⟨e, sign, digits, rfl, hE, hSign, hDigits⟩
    · simp
    · simp only [Sign, List.mem_cons, List.not_mem_nil, or_false] at hE hSign
      have hSigned : 0x5c ∉ e :: sign := by
        rcases hE with rfl | rfl
        · rcases hSign with rfl | rfl | rfl <;> decide
        · rcases hSign with rfl | rfl | rfl <;> decide
      rw [List.mem_append, not_or]
      exact ⟨hSigned, hDigits.plain⟩

-- What stands outside the strings has no backslash, so that each string is read on its own.
theorem scan_derives {part : Part} {text : Bytes} {strings : List (List Piece)} (h : Derives part text strings)
    (rest : Bytes) :
    scan (text ++ rest) = true ↔ (∀ pieces ∈ strings, WellFormed pieces) ∧ scan rest = true := by
  induction h generalizing rest with
  | null => rw [scan_plain (by decide)]; simp
  | true => rw [scan_plain (by decide)]; simp
  | false => rw [scan_plain (by decide)]; simp
  | number hNumber => rw [scan_plain hNumber.plain]; simp
  | string _ => rw [scan_quoted]; simp
  | emptyArray hSpace =>
    rw [List.cons_append, scan_cons (by decide), List.append_assoc, hSpace.scan, scan_plain (by decide)]
    simp
  | emptyObject hSpace =>
    rw [List.cons_append, scan_cons (by decide), List.append_assoc, hSpace.scan, scan_plain (by decide)]
    simp
  | array _ ih => rw [List.cons_append, scan_cons (by decide), List.append_assoc, ih, scan_plain (by decide)]
  | object _ ih => rw [List.cons_append, scan_cons (by decide), List.append_assoc, ih, scan_plain (by decide)]
  | element hBefore _ hAfter ih => rw [List.append_assoc, List.append_assoc, hBefore.scan, ih, hAfter.scan]
  | member _ hBefore hAfter _ ih =>
    simp only [List.append_assoc, List.cons_append]
    rw [hBefore.scan, scan_quoted, hAfter.scan, scan_cons (by decide), ih, List.forall_mem_cons, and_assoc]
  | one _ ih => exact ih rest
  | more _ _ ih ihRest =>
    rw [List.append_assoc, ih, List.cons_append, scan_cons (by decide), ihRest, List.forall_mem_append, and_assoc]

theorem validRuntimeJSONUnicode_iff {text : Bytes} {strings : List (List Piece)}
    (h : Derives .element text strings) :
    validRuntimeJSONUnicode text = true ↔ Valid text ∧ ∀ pieces ∈ strings, WellFormed pieces := by
  have hScan := scan_derives h []
  rw [List.append_nil] at hScan
  unfold validRuntimeJSONUnicode
  by_cases hValid : Valid text
  · simp [hValid, hScan, scan]
  · simp [hValid]

-- The text `"\ud834\udd1e"`, and the same without its second escape.
def sampleHigh : Piece := .unicode 0x64 0x38 0x33 0x34 0xd834 (by decide)

def sampleLow : Piece := .unicode 0x64 0x64 0x31 0x65 0xdd1e (by decide)

theorem paired_text_admitted : validRuntimeJSONUnicode (quoted [sampleHigh, sampleLow]) = true ∧
    ¬ (Valid (quoted [sampleHigh]) ∧ ∀ pieces ∈ [[sampleHigh]], WellFormed pieces) := by
  have hText (pieces : List Piece) : Derives .element (quoted pieces) [pieces] := by
    have h : Derives .element ([] ++ quoted pieces ++ []) [pieces] := .element nofun (.string pieces) nofun
    rwa [List.nil_append, List.append_nil] at h
  refine ⟨(validRuntimeJSONUnicode_iff (hText _)).mpr ⟨by decide +kernel, ?_⟩, ?_⟩
  · simp only [List.forall_mem_singleton, wellFormed_pair (p := sampleHigh) (q := sampleLow) rfl rfl, wellFormed_nil]
  · rw [← validRuntimeJSONUnicode_iff (hText _)]
    decide +kernel

end NeroCD.JsonUnicode
