import Mathlib.Data.List.Basic

-- Cutting a stream into pieces while it arrives: a cut gives the next piece with its length, or waits for more.

namespace NeroCD.Framing

variable {α β : Type*}

def drainLoop (cut : List α → Option (β × Nat)) : Nat → List α → List β × List α
  | 0, text => ([], text)
  | fuel + 1, text =>
    match cut text with
    | none => ([], text)
    | some (piece, n) =>
      let (pieces, rest) := drainLoop cut fuel (text.drop n)
      (piece :: pieces, rest)

def drain (cut : List α → Option (β × Nat)) (text : List α) : List β × List α := drainLoop cut text.length text

def Consumes (cut : List α → Option (β × Nat)) : Prop :=
  ∀ text piece n, cut text = some (piece, n) → 0 < n ∧ n ≤ text.length

def Stable (cut : List α → Option (β × Nat)) : Prop :=
  ∀ text piece n, cut text = some (piece, n) → ∀ more, cut (text ++ more) = some (piece, n)

section Drain

variable {cut : List α → Option (β × Nat)}

theorem cut_nil (h : Consumes cut) : cut [] = none := by
  cases hCut : cut [] with
  | none => rfl
  | some _ =>
    have hTakes := h _ _ _ hCut
    simp only [List.length_nil] at hTakes
    omega

theorem drainLoop_congr (h : Consumes cut) {fuel fuel' : Nat} {text : List α} (hFuel : text.length ≤ fuel)
    (hFuel' : text.length ≤ fuel') : drainLoop cut fuel text = drainLoop cut fuel' text := by
  have hNil : ∀ fuel, drainLoop cut fuel [] = ([], []) := by
    intro fuel
    cases fuel with
    | zero => rfl
    | succ _ => rw [drainLoop, cut_nil h]
  induction fuel generalizing fuel' text with
  | zero => rw [List.length_eq_zero_iff.mp (Nat.le_zero.mp hFuel), hNil, hNil]
  | succ _ ih =>
    cases fuel' with
    | zero => rw [List.length_eq_zero_iff.mp (Nat.le_zero.mp hFuel'), hNil, hNil]
    | succ fuel' =>
      rw [drainLoop, drainLoop]
      split
      · rfl
      · rename_i piece n hCut
        have hTakes := h _ _ _ hCut
        have hDropped : (text.drop n).length = text.length - n := List.length_drop
        rw [ih (by omega) (show (text.drop n).length ≤ fuel' by omega)]

theorem drain_none {text : List α} (hCut : cut text = none) : drain cut text = ([], text) := by
  unfold drain
  cases text.length with
  | zero => rfl
  | succ _ => rw [drainLoop, hCut]

theorem drain_some (h : Consumes cut) {text : List α} {piece : β} {n : Nat} (hCut : cut text = some (piece, n)) :
    drain cut text = (piece :: (drain cut (text.drop n)).1, (drain cut (text.drop n)).2) := by
  have hTakes := h _ _ _ hCut
  obtain ⟨fuel, hFuel⟩ : ∃ fuel, text.length = fuel + 1 := ⟨text.length - 1, by omega⟩
  have hDropped : (text.drop n).length = text.length - n := List.length_drop
  unfold drain
  rw [hFuel, drainLoop, hCut]
  simp only [drainLoop_congr h (show (text.drop n).length ≤ fuel by omega) (Nat.le_refl _)]

theorem drain_induction (h : Consumes cut) {motive : List α → Prop} (hold : ∀ text, cut text = none → motive text)
    (step : ∀ text piece n, cut text = some (piece, n) → motive (text.drop n) → motive text) (text : List α) :
    motive text := by
  induction hLength : text.length using Nat.strongRecOn generalizing text with
  | _ _ ih =>
    cases hCut : cut text with
    | none => exact hold text hCut
    | some _ =>
      have hTakes := h _ _ _ hCut
      exact step text _ _ hCut (ih _ (by rw [List.length_drop]; omega) _ rfl)

theorem cut_rest (h : Consumes cut) (text : List α) : cut (drain cut text).2 = none := by
  induction text using drain_induction h with
  | hold _ hCut => rw [drain_none hCut, hCut]
  | step _ _ _ hCut _ => rwa [drain_some h hCut]

theorem rest_suffix (h : Consumes cut) (text : List α) : (drain cut text).2 <:+ text := by
  induction text using drain_induction h with
  | hold _ hCut => simp [drain_none hCut]
  | step text _ n hCut ih =>
    rw [drain_some h hCut]
    exact ih.trans (List.drop_suffix n text)

theorem drain_append (h : Consumes cut) (hStable : Stable cut) (text more : List α) :
    drain cut (text ++ more) = ((drain cut text).1 ++ (drain cut ((drain cut text).2 ++ more)).1,
      (drain cut ((drain cut text).2 ++ more)).2) := by
  induction text using drain_induction h with
  | hold _ hCut => rw [drain_none hCut, List.nil_append]
  | step text _ n hCut ih =>
    have hTakes := h _ _ _ hCut
    have hDrop : (text ++ more).drop n = text.drop n ++ more := List.drop_append_of_le_length hTakes.2
    rw [drain_some h hCut, drain_some h (hStable _ _ _ hCut more), hDrop, ih, List.cons_append]

theorem forall_pieces (h : Consumes cut) {P : List α → Prop} {Q : β → Prop}
    (hCut : ∀ text piece n, P text → cut text = some (piece, n) → Q piece ∧ P (text.drop n)) {text : List α}
    (hText : P text) : (∀ piece ∈ (drain cut text).1, Q piece) ∧ P (drain cut text).2 := by
  induction text using drain_induction h with
  | hold _ hNone =>
    rw [drain_none hNone]
    exact ⟨fun _ hMem => absurd hMem List.not_mem_nil, hText⟩
  | step text piece n hSome ih =>
    obtain ⟨hPiece, hRest⟩ := hCut text piece n hText hSome
    rw [drain_some h hSome]
    exact ⟨List.forall_mem_cons.mpr ⟨hPiece, (ih hRest).1⟩, (ih hRest).2⟩

end Drain

end NeroCD.Framing
