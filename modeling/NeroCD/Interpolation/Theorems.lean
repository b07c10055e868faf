import NeroCD.Interpolation

-- The scanner follows the grammar: it accepts what can be read, with the meaning of what was read.

namespace NeroCD.Interpolation

open NeroCD.Checks

section Names

variable {name rest text : Bytes}

theorem takeWhile_append_stop {p : UInt8 → Bool} {l rest : Bytes} (hAll : ∀ b ∈ l, p b = true)
    (hStop : ∀ b ∈ rest.head?, p b = false) : (l ++ rest).takeWhile p = l ∧ (l ++ rest).dropWhile p = rest := by
  have hTake : rest.takeWhile p = [] ∧ rest.dropWhile p = rest := by
    cases rest with
    | nil => exact ⟨rfl, rfl⟩
    | cons b _ => simp [hStop b rfl]
  rw [List.takeWhile_append_of_pos hAll, List.dropWhile_append_of_pos hAll, hTake.1, hTake.2, List.append_nil]
  exact ⟨rfl, rfl⟩

theorem readName_append (hName : IsName name) (hEnd : ∀ b ∈ rest.head?, nameByte b = false) :
    readName (name ++ rest) = (name, rest) := by
  obtain ⟨b, tail, rfl, hStart, hTail⟩ := hName
  obtain ⟨hTake, hDrop⟩ := takeWhile_append_stop hTail hEnd
  rw [List.cons_append, readName, if_pos hStart, hTake, hDrop]

theorem readName_isName (h : (readName text).1 ≠ []) :
    IsName (readName text).1 ∧ text = (readName text).1 ++ (readName text).2 ∧
      ∀ b ∈ (readName text).2.head?, nameByte b = false := by
  cases text with
  | nil => exact absurd rfl h
  | cons b rest =>
    by_cases hStart : nameStart b = true
    · rw [readName, if_pos hStart]
      refine ⟨⟨b, rest.takeWhile nameByte, rfl, hStart, fun c hc => List.mem_takeWhile_imp hc⟩, ?_, ?_⟩
      · rw [List.cons_append, List.takeWhile_append_dropWhile]
      · intro c hc
        have hNot := List.head?_dropWhile_not nameByte rest
        rw [Option.mem_def.mp hc] at hNot
        simpa using hNot
    · rw [readName, if_neg hStart] at h
      exact absurd rfl h

theorem isName_ne_nil (h : IsName name) : name ≠ [] := by
  obtain ⟨b, tail, rfl, -⟩ := h
  exact List.cons_ne_nil b tail

end Names

section Pieces

variable {text rest : Bytes} {piece : Piece} {b : UInt8}

theorem byte_of_operation {op : Operation} (h : operation b = some op) : op.byte = b := by
  unfold operation at h
  split at h
  · cases h
    rename_i hb
    exact hb.symm
  · split at h
    · cases h
      rename_i hb
      exact hb.symm
    · split at h
      · cases h
        rename_i hb
        exact hb.symm
      · cases h

variable {operator : Operator} {modifier : Option (Operator × Bytes)} {name : Bytes}

theorem readOperand_ok (h : readOperand operator text = .ok (modifier, rest)) :
    ∃ operand, modifier = some (operator, operand) ∧ (∀ c ∈ operand, special c = false) ∧
      text = operand ++ closeBrace :: rest := by
  unfold readOperand at h
  split at h
  · cases h
  · rename_i c after hDrop
    split at h
    · cases h
    · rename_i hPlain
      cases h
      refine ⟨_, rfl, fun d hd => ?_, ?_⟩
      · have hNone := List.any_eq_false.mp (Bool.not_eq_true _ ▸ hPlain) d hd
        simpa using hNone
      · have hClose : c = closeBrace := by
          have hNot := List.head?_dropWhile_not (· != closeBrace) text
          rw [hDrop] at hNot
          simpa using hNot
        conv_lhs => rw [← List.takeWhile_append_dropWhile (p := (· != closeBrace)) (l := text), hDrop, hClose]

theorem readOperand_append {operand : Bytes} (h : ∀ c ∈ operand, special c = false) :
    readOperand operator (operand ++ closeBrace :: rest) = .ok (some (operator, operand), rest) := by
  have hAll : ∀ c ∈ operand, (c != closeBrace) = true := by
    intro c hc
    have hSpecial := h c hc
    simp only [special, Bool.or_eq_false_iff] at hSpecial
    rw [bne, hSpecial.2]
    rfl
  have hStop : ∀ c ∈ (closeBrace :: rest).head?, (c != closeBrace) = false := by simp
  obtain ⟨hTake, hDrop⟩ := takeWhile_append_stop hAll hStop
  have hPlain : ¬operand.any special = true := by
    rw [Bool.not_eq_true, List.any_eq_false]
    intro c hc
    rw [h c hc]
    exact Bool.false_ne_true
  rw [readOperand, hTake, hDrop]
  exact if_neg hPlain

theorem readOperator_ok {nonempty : Bool} (h : readOperator nonempty text = .ok (modifier, rest)) :
    ∃ op operand, modifier = some (⟨op, nonempty⟩, operand) ∧ (∀ c ∈ operand, special c = false) ∧
      text = op.byte :: (operand ++ closeBrace :: rest) := by
  unfold readOperator at h
  split at h
  · cases h
  · rename_i b after
    split at h
    · cases h
    · rename_i op hOp
      obtain ⟨operand, rfl, hOperand, rfl⟩ := readOperand_ok h
      exact ⟨op, operand, rfl, hOperand, by rw [byte_of_operation hOp]⟩

theorem readModifier_ok (h : readModifier text = .ok (modifier, rest)) :
    (modifier = none ∧ text = closeBrace :: rest) ∨
      ∃ operator operand, modifier = some (operator, operand) ∧ (∀ c ∈ operand, special c = false) ∧
        text = operator.text ++ (operand ++ closeBrace :: rest) := by
  unfold readModifier at h
  split at h
  · cases h
  · rename_i b after
    split at h
    · rename_i hClose
      cases h
      exact .inl ⟨rfl, by rw [hClose]⟩
    · split at h
      · rename_i hColon
        obtain ⟨op, operand, rfl, hOperand, rfl⟩ := readOperator_ok h
        exact .inr ⟨⟨op, true⟩, operand, rfl, hOperand, by rw [hColon]; rfl⟩
      · obtain ⟨op, operand, rfl, hOperand, hText⟩ := readOperator_ok h
        exact .inr ⟨⟨op, false⟩, operand, rfl, hOperand, hText⟩

theorem readModifier_text {operand : Bytes} (h : ∀ c ∈ operand, special c = false) :
    readModifier (operator.text ++ (operand ++ closeBrace :: rest)) = .ok (some (operator, operand), rest) := by
  have hOperand : ∀ operator : Operator, readOperand operator (operand ++ closeBrace :: rest) =
      .ok (some (operator, operand), rest) := fun _ => readOperand_append h
  obtain ⟨op, nonempty⟩ := operator
  cases nonempty with
  | false => cases op <;> exact hOperand _
  | true => cases op <;> exact hOperand _

theorem readVariable_begins {braced : Bool} (h : readVariable braced text = .ok (piece, rest)) :
    Begins (dollar :: if braced then openBrace :: text else text) piece rest := by
  have hRead : (readName text).1 ≠ [] → IsName (readName text).1 ∧ text = (readName text).1 ++ (readName text).2 ∧
      ∀ b ∈ (readName text).2.head?, nameByte b = false := readName_isName
  unfold readVariable at h
  generalize readName text = read at h hRead
  obtain ⟨name, after⟩ := read
  by_cases hEmpty : name = []
  · simp only [hEmpty, List.isEmpty_nil, if_true] at h
    cases h
  · obtain ⟨hName, rfl, hEnd⟩ := hRead hEmpty
    simp only [List.isEmpty_iff, hEmpty, if_false] at h
    split at h
    · rename_i hBraced
      rw [if_pos hBraced]
      simp only [bind_eq_ok, pure_eq_ok] at h
      obtain ⟨⟨modifier, tail⟩, hModifier, hPiece⟩ := h
      cases hPiece
      obtain ⟨rfl, rfl⟩ | ⟨operator, operand, rfl, hOperand, rfl⟩ := readModifier_ok hModifier
      · exact .braced hName
      · exact .modified hName hOperand
    · rename_i hPlain
      rw [if_neg hPlain]
      cases h
      exact .plain hName hEnd

theorem readPiece_begins (h : readPiece b text = .ok (piece, rest)) : Begins (b :: text) piece rest := by
  unfold readPiece at h
  split at h
  · rename_i hLiteral
    cases h
    exact .literal hLiteral
  · rename_i hDollar
    rw [not_not.mp hDollar]
    split at h
    · exact readVariable_begins h
    · rename_i c after
      split at h
      · rename_i hEscaped
        cases h
        rw [hEscaped]
        exact .escaped
      · split at h
        · rename_i hBrace
          rw [hBrace]
          exact readVariable_begins h
        · exact readVariable_begins h

theorem readVariable_name (hName : IsName name) (hEnd : ∀ c ∈ rest.head?, nameByte c = false) :
    readVariable false (name ++ rest) = .ok (.reference name none, rest) := by
  simp only [readVariable, readName_append hName hEnd, List.isEmpty_iff, isName_ne_nil hName, if_false,
    Bool.false_eq_true]

theorem readVariable_braced {text : Bytes} (hName : IsName name) (hEnd : ∀ c ∈ text.head?, nameByte c = false)
    (h : readModifier text = .ok (modifier, rest)) :
    readVariable true (name ++ text) = .ok (.reference name modifier, rest) := by
  simp only [readVariable, readName_append hName hEnd, List.isEmpty_iff, isName_ne_nil hName, if_false, if_true, h]
  rfl

theorem operator_end {text : Bytes} : ∀ c ∈ (operator.text ++ text).head?, nameByte c = false := by
  obtain ⟨op, nonempty⟩ := operator
  intro c hc
  cases nonempty with
  | false => cases op <;> cases hc <;> rfl
  | true => cases op <;> cases hc <;> rfl

theorem name_start (hName : IsName name) : ∃ c after, name = c :: after ∧ c ≠ dollar ∧ c ≠ openBrace := by
  obtain ⟨c, after, rfl, hStart, -⟩ := hName
  refine ⟨c, after, rfl, ?_, ?_⟩
  · rintro rfl
    exact absurd hStart (by decide)
  · rintro rfl
    exact absurd hStart (by decide)

theorem readPiece_of_begins (h : Begins text piece rest) :
    ∃ b after, text = b :: after ∧ readPiece b after = .ok (piece, rest) := by
  cases h with
  | literal hLiteral => exact ⟨_, _, rfl, if_pos hLiteral⟩
  | escaped => exact ⟨_, _, rfl, rfl⟩
  | @plain _ _ hName hEnd =>
    refine ⟨_, _, rfl, ?_⟩
    obtain ⟨c, after, hText, hDollar, hBrace⟩ := name_start hName
    have hVariable := readVariable_name hName hEnd
    rw [hText, List.cons_append] at hVariable ⊢
    simp only [readPiece, ne_eq, not_true_eq_false, hDollar, hBrace, if_false]
    exact hVariable
  | braced hName =>
    refine ⟨_, _, rfl, readVariable_braced hName (fun c hc => ?_) rfl⟩
    cases hc
    rfl
  | modified hName hOperand =>
    exact ⟨_, _, rfl, readVariable_braced hName operator_end (readModifier_text hOperand)⟩

theorem Begins.length_lt (h : Begins text piece rest) : rest.length < text.length := by
  cases h with
  | literal => exact Nat.lt_succ_self _
  | escaped => exact Nat.lt_succ_of_lt (Nat.lt_succ_self _)
  | plain =>
    rw [List.length_cons, List.length_append]
    omega
  | braced =>
    simp only [List.length_cons, List.length_append]
    omega
  | modified =>
    simp only [List.length_cons, List.length_append]
    omega

end Pieces

section Runs

variable {values : Values} {require : Bool} {text out v : Bytes} {pieces : List Piece}

theorem Reads.unique {other : List Piece} (h : Reads text pieces) (h' : Reads text other) : pieces = other := by
  induction h generalizing other with
  | nil =>
    cases h' with
    | nil => rfl
    | cons hBegins _ =>
      obtain ⟨b, after, hText, -⟩ := readPiece_of_begins hBegins
      cases hText
  | cons hBegins _ ih =>
    obtain ⟨b, after, rfl, hPiece⟩ := readPiece_of_begins hBegins
    cases h' with
    | cons hBegins' hReads' =>
      obtain ⟨b', after', hText, hPiece'⟩ := readPiece_of_begins hBegins'
      cases hText
      cases hPiece.symm.trans hPiece'
      rw [ih hReads']

def substituted (values : Values) (require : Bool) : List Piece → Option Bytes
  | [] => some []
  | piece :: rest => do
    let value ← (substitute values require piece).toOption
    let values ← substituted values require rest
    some (value ++ values)

theorem substitute_meaning (piece : Piece) : (substitute values true piece).toOption = piece.meaning values := by
  cases piece with
  | literal b => rfl
  | escaped => rfl
  | reference name modifier =>
    cases modifier with
    | none => rfl
    | some modifier =>
      obtain ⟨⟨op, nonempty⟩, operand⟩ := modifier
      simp only [substitute, Piece.meaning, Operator.meaning]
      cases hValue : values name with
      | none => cases op <;> cases nonempty <;> rfl
      | some value =>
        by_cases hEmpty : value = []
        · subst hEmpty
          cases op <;> cases nonempty <;> rfl
        · cases op <;> cases nonempty <;> simp [hEmpty, Option.filter, Except.toOption]

theorem substituted_meaning (pieces : List Piece) : substituted values true pieces = meaning values pieces := by
  induction pieces with
  | nil => rfl
  | cons _ _ ih => rw [substituted, meaning, substitute_meaning, ih]

variable {piece : Piece} {fuel : Nat}

-- A byte takes one place, so both tests ask whether the value still fits.
theorem full_iff {value : Bytes} (hOut : out.length ≤ 4096) (hValue : substitute values require piece = .ok value) :
    full out piece value = true ↔ 4096 < out.length + value.length := by
  cases piece with
  | literal b =>
    cases hValue
    simp only [full, beq_iff_eq, List.length_singleton]
    omega
  | escaped =>
    cases hValue
    simp only [full, beq_iff_eq, List.length_singleton]
    omega
  | reference _ _ =>
    simp only [full, decide_eq_true_iff]
    omega

theorem toOption_eq_some {α : Type} {x : Except Error α} {a : α} : x.toOption = some a ↔ x = .ok a := by
  cases x <;> simp [Except.toOption]

theorem substituted_cons {w : Bytes} :
    substituted values require (piece :: pieces) = some w ↔
      ∃ value rest, substitute values require piece = .ok value ∧ substituted values require pieces = some rest ∧
        w = value ++ rest := by
  simp only [substituted, Option.bind_eq_bind, Option.bind_eq_some_iff, toOption_eq_some, Option.some.injEq]
  constructor
  · rintro ⟨value, hValue, rest, hRest, rfl⟩
    exact ⟨value, rest, hValue, hRest, rfl⟩
  · rintro ⟨value, rest, hValue, hRest, rfl⟩
    exact ⟨value, hValue, rest, hRest, rfl⟩

theorem reads_nil : Reads [] pieces ↔ pieces = [] := by
  constructor
  · intro h
    exact h.unique .nil
  · rintro rfl
    exact .nil

theorem reads_cons {b : UInt8} {rest : Bytes} :
    Reads (b :: rest) pieces ↔ ∃ piece after others, readPiece b rest = .ok (piece, after) ∧ Reads after others ∧
      pieces = piece :: others := by
  constructor
  · intro h
    cases h with
    | cons hBegins hReads =>
      obtain ⟨b', after, hText, hPiece⟩ := readPiece_of_begins hBegins
      cases hText
      exact ⟨_, _, _, hPiece, hReads, rfl⟩
  · rintro ⟨piece, after, others, hPiece, hReads, rfl⟩
    exact .cons (readPiece_begins hPiece) hReads

theorem expandFrom_nil (hOut : out.length ≤ 4096) :
    expandFrom values require fuel [] out = .ok v ↔
      ∃ pieces w, Reads [] pieces ∧ substituted values require pieces = some w ∧ v = out ++ w ∧ v.length ≤ 4096 := by
  simp only [expandFrom, reads_nil, Except.ok.injEq]
  constructor
  · rintro rfl
    exact ⟨[], [], rfl, rfl, (List.append_nil _).symm, hOut⟩
  · rintro ⟨_, w, rfl, hw, rfl, -⟩
    cases hw
    exact (List.append_nil _).symm

theorem expandFrom_eq_ok (hFuel : text.length ≤ fuel) (hOut : out.length ≤ 4096) :
    expandFrom values require fuel text out = .ok v ↔
      ∃ pieces w, Reads text pieces ∧ substituted values require pieces = some w ∧ v = out ++ w ∧
        v.length ≤ 4096 := by
  induction fuel generalizing text out with
  | zero =>
    obtain rfl : text = [] := List.length_eq_zero_iff.mp (by omega)
    exact expandFrom_nil hOut
  | succ fuel ih =>
    cases text with
    | nil => exact expandFrom_nil hOut
    | cons b rest =>
      have hEnough : ∀ piece after, readPiece b rest = .ok (piece, after) → after.length ≤ fuel := by
        intro piece after hPiece
        have hShorter := (readPiece_begins hPiece).length_lt
        simp only [List.length_cons] at hFuel hShorter
        omega
      simp only [expandFrom, bind_eq_ok]
      constructor
      · rintro ⟨⟨piece, after⟩, hPiece, value, hValue, hLoop⟩
        simp only at hLoop
        split at hLoop
        · cases hLoop
        · rename_i hFits
          rw [full_iff hOut hValue, Nat.not_lt, ← List.length_append] at hFits
          rw [ih (hEnough piece after hPiece) hFits] at hLoop
          obtain ⟨pieces, w, hReads, hSubstituted, rfl, hLength⟩ := hLoop
          refine ⟨piece :: pieces, value ++ w, reads_cons.mpr ⟨piece, after, pieces, hPiece, hReads, rfl⟩,
            substituted_cons.mpr ⟨value, w, hValue, hSubstituted, rfl⟩, ?_, hLength⟩
          rw [List.append_assoc]
      · rintro ⟨pieces, w, hReads, hSubstituted, rfl, hLength⟩
        obtain ⟨piece, after, others, hPiece, hOthers, rfl⟩ := reads_cons.mp hReads
        obtain ⟨value, w, hValue, hRest, rfl⟩ := substituted_cons.mp hSubstituted
        rw [← List.append_assoc, List.length_append] at hLength
        have hFits : (out ++ value).length ≤ 4096 := by omega
        refine ⟨(piece, after), hPiece, value, hValue, ?_⟩
        rw [if_neg (by rw [full_iff hOut hValue, ← List.length_append]; omega),
          ih (hEnough piece after hPiece) hFits]
        refine ⟨others, w, hOthers, hRest, (List.append_assoc _ _ _).symm, ?_⟩
        rw [← List.append_assoc, List.length_append]
        exact hLength

theorem expand_eq_ok {expression : Bytes} :
    expand values require expression = .ok v ↔
      ∃ pieces, Reads expression pieces ∧ substituted values require pieces = some v ∧ v.length ≤ 4096 := by
  rw [expand, expandFrom_eq_ok (Nat.le_refl _) (Nat.zero_le _)]
  constructor
  · rintro ⟨pieces, w, hReads, hSubstituted, rfl, hLength⟩
    exact ⟨pieces, hReads, hSubstituted, hLength⟩
  · rintro ⟨pieces, hReads, hSubstituted, hLength⟩
    exact ⟨pieces, v, hReads, hSubstituted, rfl, hLength⟩

def Error.OfValues : Error → Prop
  | .limit | .required _ | .requiredNonempty _ => True
  | .invalid | .unterminated | .unsupported | .nested => False

theorem substitute_error {e : Error} (h : substitute values require piece = .error e) : e.OfValues := by
  unfold substitute at h
  split at h
  · cases h
  · cases h
  · simp only at h
    split at h
    · cases h
    · cases h
    · cases h
    · cases h
    · cases h
    · split at h
      · cases h
        trivial
      · cases h
    · split at h
      · cases h
        trivial
      · cases h

theorem expandFrom_error {e : Error} (hReads : Reads text pieces)
    (h : expandFrom values require fuel text out = .error e) : e.OfValues := by
  induction hReads generalizing fuel out with
  | nil => cases fuel <;> cases h
  | @cons _ _ piece _ hBegins _ ih =>
    obtain ⟨b, after, rfl, hPiece⟩ := readPiece_of_begins hBegins
    cases fuel with
    | zero => cases h
    | succ _ =>
      rw [expandFrom, hPiece, ok_bind] at h
      cases hValue : substitute values require piece with
      | error _ =>
        simp only [hValue] at h
        cases h
        exact substitute_error hValue
      | ok _ =>
        simp only [hValue, ok_bind] at h
        split at h
        · cases h
          trivial
        · exact ih h

def literals (value : Bytes) : List Piece := value.map fun b => if b = dollar then .escaped else .literal b

theorem reads_escape (value : Bytes) : Reads (escape value) (literals value) := by
  induction value with
  | nil => exact .nil
  | cons b _ ih =>
    rw [escape, List.flatMap_cons, literals, List.map_cons]
    by_cases hDollar : b = dollar
    · rw [if_pos hDollar, if_pos hDollar]
      exact .cons .escaped ih
    · rw [if_neg hDollar, if_neg hDollar]
      exact .cons (.literal hDollar) ih

theorem substituted_literals (value : Bytes) : substituted values require (literals value) = some value := by
  induction value with
  | nil => rfl
  | cons b rest ih =>
    rw [literals, List.map_cons, substituted_cons]
    refine ⟨[b], rest, ?_, ih, rfl⟩
    by_cases hDollar : b = dollar
    · rw [if_pos hDollar, hDollar]
      rfl
    · rw [if_neg hDollar]
      rfl

end Runs

theorem expand_escape {values : Values} {require : Bool} {value : Bytes} (h : value.length ≤ 4096) :
    expand values require (escape value) = .ok value :=
  expand_eq_ok.mpr ⟨literals value, reads_escape value, substituted_literals value, h⟩

theorem expand_error_iff {values : Values} {expression : Bytes} :
    (∃ e, expand values true expression = .error e) ↔
      (¬∃ pieces, Reads expression pieces) ∨ ∃ pieces, Reads expression pieces ∧
        (meaning values pieces = none ∨ ∃ v, meaning values pieces = some v ∧ 4096 < v.length) := by
  constructor
  · rintro ⟨e, hError⟩
    by_cases hReads : ∃ pieces, Reads expression pieces
    · obtain ⟨pieces, hReads⟩ := hReads
      refine .inr ⟨pieces, hReads, ?_⟩
      cases hMeaning : meaning values pieces with
      | none => exact .inl rfl
      | some v =>
        refine .inr ⟨v, rfl, Nat.lt_of_not_le fun hLength => ?_⟩
        have hOk : expand values true expression = .ok v :=
          expand_eq_ok.mpr ⟨pieces, hReads, (substituted_meaning pieces).trans hMeaning, hLength⟩
        cases hError.symm.trans hOk
    · exact .inl hReads
  · intro h
    cases hExpand : expand values true expression with
    | error e => exact ⟨e, rfl⟩
    | ok v =>
      obtain ⟨pieces, hReads, hSubstituted, hLength⟩ := expand_eq_ok.mp hExpand
      rw [substituted_meaning] at hSubstituted
      obtain hNone | ⟨other, hOther, hFails⟩ := h
      · exact absurd ⟨pieces, hReads⟩ hNone
      · obtain rfl := hReads.unique hOther
        obtain hNone | ⟨w, hSome, hLong⟩ := hFails
        · cases hSubstituted.symm.trans hNone
        · cases hSubstituted.symm.trans hSome
          exact absurd hLength (Nat.not_le_of_lt hLong)

-- Expansion is the reading of the expression, in one way only, with each variable substituted once; it fails on what
-- cannot be read, on a missing required variable and on a result over the limit.
theorem expansion_reference (values : Values) (expression : Bytes) :
    (∀ pieces other, Reads expression pieces → Reads expression other → pieces = other) ∧
    (∀ v, expand values true expression = .ok v ↔
      ∃ pieces, Reads expression pieces ∧ meaning values pieces = some v ∧ v.length ≤ 4096) ∧
    ((∃ e, expand values true expression = .error e) ↔
      (¬∃ pieces, Reads expression pieces) ∨ ∃ pieces, Reads expression pieces ∧
        (meaning values pieces = none ∨ ∃ v, meaning values pieces = some v ∧ 4096 < v.length)) ∧
    (∀ v e, expand (fun _ => none) false expression = .ok v → expand values true expression = .error e →
      e = .limit ∨ ∃ name, e = .required name ∨ e = .requiredNonempty name) ∧
    (∀ value other require, value.length ≤ 4096 → expand other require (escape value) = .ok value) ∧
    ∀ rendered other require, renderValue values expression = .ok rendered →
      expand other require rendered = expand values true expression := by
  refine ⟨fun _ _ => Reads.unique, ?_, expand_error_iff, ?_, fun _ _ _ => expand_escape, ?_⟩
  · intro v
    simp only [expand_eq_ok, substituted_meaning]
  · intro v e hValid hError
    obtain ⟨pieces, hReads, -⟩ := expand_eq_ok.mp hValid
    have hValues := expandFrom_error hReads hError
    cases e with
    | limit => exact .inl rfl
    | required => exact .inr ⟨_, .inl rfl⟩
    | requiredNonempty => exact .inr ⟨_, .inr rfl⟩
    | invalid => cases hValues
    | unterminated => cases hValues
    | unsupported => cases hValues
    | nested => cases hValues
  · intro rendered other require hRendered
    simp only [renderValue, bind_eq_ok, pure_eq_ok] at hRendered
    obtain ⟨value, hValue, rfl⟩ := hRendered
    obtain ⟨-, -, -, hLength⟩ := expand_eq_ok.mp hValue
    rw [hValue, expand_escape hLength]

-- The text is a default in braces followed by an escaped dollar.
example : (expand (fun _ => none) true [36, 123, 65, 58, 45, 98, 125, 36, 36]).toOption = some [98, 36] := by decide

end NeroCD.Interpolation
