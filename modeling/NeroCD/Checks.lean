import Mathlib.Data.List.Nodup

-- Sequences of checks that stop at the first error, and what it means that they pass.

namespace NeroCD.Checks

-- A check that returns an error when `bad` holds.
def refuse (bad : Bool) (message : String) : Except String Unit :=
  if bad then .error message else .ok ()

-- `err != nil` where the caller returns an error of its own.
def fails (x : Except String Unit) : Bool :=
  match x with
  | .ok _ => false
  | .error _ => true

def forEach {α : Type} (check : α → Except String Unit) : List α → Except String Unit
  | [] => .ok ()
  | e :: rest => do
    check e
    forEach check rest

-- Records the IDs of entries and refuses one already recorded, with a check before and one after.
def recordIDs {α : Type} (id : α → String) (before after : α → Except String Unit) (message : String) :
    List String → List α → Except String (List String)
  | ids, [] => .ok ids
  | ids, e :: rest => do
    before e
    refuse (ids.contains (id e)) message
    after e
    recordIDs id before after message (id e :: ids) rest

def noCheck {α : Type} (_ : α) : Except String Unit := .ok ()

variable {α ε : Type}

@[simp] theorem noCheck_eq (e : α) : noCheck e = .ok () := rfl

@[simp] theorem refuse_eq_ok (bad : Bool) (message : String) (u : Unit) :
    refuse bad message = .ok u ↔ bad = false := by
  unfold refuse
  cases bad <;> simp

@[simp] theorem fails_eq_false (x : Except String Unit) : fails x = false ↔ x = .ok () := by
  unfold fails
  cases x <;> simp

@[simp] theorem bind_eq_ok {β : Type} (x : Except ε α) (f : α → Except ε β) (b : β) :
    (x >>= f) = .ok b ↔ ∃ a, x = .ok a ∧ f a = .ok b := by
  cases x with
  | error e => simp [bind, Except.bind]
  | ok a => simp [bind, Except.bind]

theorem ok_bind {β : Type} (a : α) (f : α → Except ε β) : ((.ok a : Except ε α) >>= f) = f a := rfl

@[simp] theorem pure_eq_ok (a b : α) : (pure a : Except ε α) = .ok b ↔ a = b := by
  simp [pure, Except.pure]

theorem ok_of_isOk {x : Except ε α} (h : x.isOk = true) : ∃ a, x = .ok a := by
  cases x with
  | error e => cases h
  | ok a => exact ⟨a, rfl⟩

@[simp] theorem exists_unit (p : Unit → Prop) : (∃ u, p u) ↔ p () :=
  ⟨fun ⟨_, h⟩ => h, fun h => ⟨(), h⟩⟩

theorem forEach_eq_ok (check : α → Except String Unit) (l : List α) (u : Unit) :
    forEach check l = .ok u ↔ ∀ e ∈ l, check e = .ok () := by
  induction l with
  | nil => simp [forEach]
  | cons _ _ ih => simp only [forEach, bind_eq_ok, exists_unit, ih, List.forall_mem_cons]

theorem recordIDs_eq_ok (id : α → String) (before after : α → Except String Unit) (message : String) (l : List α)
    (ids r : List String) :
    recordIDs id before after message ids l = .ok r ↔
      (∀ e ∈ l, before e = .ok () ∧ after e = .ok ()) ∧ (l.map id).Nodup ∧ (∀ x ∈ l.map id, x ∉ ids) ∧
        r = (l.map id).reverse ++ ids := by
  induction l generalizing ids with
  | nil => simp [recordIDs, eq_comm]
  | cons _ _ ih =>
    simp only [recordIDs, bind_eq_ok, exists_unit, ih, refuse_eq_ok, List.contains_eq_mem, decide_eq_false_iff_not,
      List.forall_mem_cons, List.map_cons, List.nodup_cons, List.reverse_cons,
      List.append_assoc, List.singleton_append]
    refine ⟨?_, ?_⟩
    · intro h
      obtain ⟨hBefore, hNew, hAfter, hRest, hNodup, hApart, hr⟩ := h
      refine ⟨⟨⟨hBefore, hAfter⟩, hRest⟩, ⟨?_, hNodup⟩, ⟨hNew, ?_⟩, hr⟩
      · intro hMem
        exact hApart _ hMem List.mem_cons_self
      · intro x hx hIn
        exact hApart x hx (List.mem_cons_of_mem _ hIn)
    · intro h
      obtain ⟨⟨⟨hBefore, hAfter⟩, hRest⟩, ⟨hHead, hNodup⟩, ⟨hNew, hApart⟩, hr⟩ := h
      refine ⟨hBefore, hNew, hAfter, hRest, hNodup, ?_, hr⟩
      intro x hx hIn
      cases List.mem_cons.mp hIn with
      | inl hEq => exact hHead (hEq ▸ hx)
      | inr hIn => exact hApart x hx hIn

theorem recordIDs_ok (id : α → String) (before after : α → Except String Unit) (message : String) (l : List α)
    (ids : List String) (hChecks : ∀ e ∈ l, before e = .ok () ∧ after e = .ok ()) (hNodup : (l.map id).Nodup)
    (hApart : ∀ x ∈ l.map id, x ∉ ids) :
    ∃ r, recordIDs id before after message ids l = .ok r ∧ ∀ x, x ∈ r ↔ x ∈ l.map id ∨ x ∈ ids := by
  refine ⟨_, (recordIDs_eq_ok id before after message l ids _).mpr ⟨hChecks, hNodup, hApart, rfl⟩, ?_⟩
  intro x
  rw [List.mem_append, List.mem_reverse]

end NeroCD.Checks
