import Mathlib.Tactic.Common

-- Programs that work through calls to their surroundings, and a logic for what they leave behind when they return,
-- fail or are cut off.  A call relates the states before and after by its reply; a crash is a run that stops early.

namespace NeroCD.Programs

structure Interface where
  Call : Type
  Reply : Call → Type

inductive Program (I : Interface) (α : Type) where
  | done (value : α)
  | call (c : I.Call) (next : I.Reply c → Program I α)

namespace Program

variable {I : Interface} {S α β ε δ : Type}

def bind : Program I α → (α → Program I β) → Program I β
  | .done a, k => k a
  | .call c next, k => .call c fun reply => (next reply).bind k

end Program

section Semantics

variable {I : Interface} {S α β ε δ : Type}

abbrev Event (I : Interface) := Sigma I.Reply

-- A relation that says how the surroundings may answer a call.
abbrev Steps (I : Interface) (S : Type) := (c : I.Call) → S → I.Reply c → S → Prop

-- The program has made the calls of the trace; what is left of it stands after the trace.
inductive Runs (step : Steps I S) : Program I α → S → List (Event I) → Program I α → S → Prop where
  | stop (p : Program I α) (s : S) : Runs step p s [] p s
  | next {c : I.Call} {k : I.Reply c → Program I α} {s t u : S} {reply : I.Reply c} {trace : List (Event I)}
      {q : Program I α} (hStep : step c s reply t) (hRest : Runs step (k reply) t trace q u) :
      Runs step (.call c k) s (⟨c, reply⟩ :: trace) q u

-- Every state on the way satisfies `crash`, and a value that is returned satisfies `post` with the last one.
def Safe (step : Steps I S) (crash : S → Prop) (post : α → S → Prop) : Program I α → S → Prop
  | .done a, s => crash s ∧ post a s
  | .call c next, s => crash s ∧ ∀ reply t, step c s reply t → Safe step crash post (next reply) t

variable {step : Steps I S} {crash crash' : S → Prop} {post post' : α → S → Prop}
  {p : Program I α} {s t : S} {trace : List (Event I)}

theorem Safe.start (h : Safe step crash post p s) : crash s := by
  cases p with
  | done a => exact h.1
  | call _ _ => exact h.1

theorem Safe.run {q : Program I α} (h : Safe step crash post p s) (hRun : Runs step p s trace q t) :
    Safe step crash post q t := by
  induction hRun with
  | stop => exact h
  | next hStep _ ih => exact ih (h.2 _ _ hStep)

theorem Safe.crashed {q : Program I α} (h : Safe step crash post p s) (hRun : Runs step p s trace q t) :
    crash t := (h.run hRun).start

theorem Safe.returned {a : α} (h : Safe step crash post p s) (hRun : Runs step p s trace (.done a) t) :
    post a t := (h.run hRun).2

theorem Safe.mono (h : Safe step crash post p s) (hCrash : ∀ t, crash t → crash' t)
    (hPost : ∀ a t, post a t → post' a t) : Safe step crash' post' p s := by
  induction p generalizing s with
  | done a => exact ⟨hCrash s h.1, hPost a s h.2⟩
  | call _ _ ih => exact ⟨hCrash s h.1, fun reply t hStep => ih reply (h.2 reply t hStep)⟩

theorem Safe.bind {k : α → Program I β} {after : β → S → Prop} (h : Safe step crash post p s)
    (hNext : ∀ a t, crash t → post a t → Safe step crash after (k a) t) : Safe step crash after (p.bind k) s := by
  induction p generalizing s with
  | done a => exact hNext a s h.1 h.2
  | call _ _ ih => exact ⟨h.1, fun reply t hStep => ih reply (h.2 reply t hStep)⟩

end Semantics

def Fallible (I : Interface) (ε α : Type) := Program I (Except ε α)

namespace Fallible

variable {I : Interface} {S α β ε δ : Type}

def bind (x : Fallible I ε α) (k : α → Fallible I ε β) : Fallible I ε β :=
  Program.bind x fun
    | .ok a => k a
    | .error e => .done (.error e)

instance : Monad (Fallible I ε) where
  pure a := .done (.ok a)
  bind := bind

def fail (e : ε) : Fallible I ε α := .done (.error e)

def outcome (x : Fallible I ε α) : Fallible I δ (Except ε α) := Program.bind x fun r => .done (.ok r)

def settle (r : Except ε α) : Fallible I ε α := .done r

def mapError (f : ε → δ) (x : Fallible I ε α) : Fallible I δ α :=
  Program.bind x fun
    | .ok a => .done (.ok a)
    | .error e => .done (.error (f e))

def failIf (bad : Bool) (e : ε) : Fallible I ε Unit := if bad then fail e else pure ()

def onlyIf (c : Bool) (x : Fallible I ε Unit) : Fallible I ε Unit := if c then x else pure ()

def forEach (f : β → Fallible I ε Unit) : List β → Fallible I ε Unit
  | [] => pure ()
  | b :: rest => do
    f b
    forEach f rest

def mapEach (f : β → Fallible I ε α) : List β → Fallible I ε (List α)
  | [] => pure []
  | b :: rest => do
    let a ← f b
    let as ← mapEach f rest
    pure (a :: as)

end Fallible

-- The logic of programs that may fail: a condition for the states on the way, one for a value and one for an
-- error.
section Triples

variable {I : Interface} {S α β ε δ : Type} {step : Steps I S} {crash : S → Prop}
variable {good : α → S → Prop} {good' : β → S → Prop} {bad : ε → S → Prop} {s : S}

def settled (good : α → S → Prop) (bad : ε → S → Prop) : Except ε α → S → Prop
  | .ok a, s => good a s
  | .error e, s => bad e s

theorem settled_of (hGood : ∀ a, good a s) (hBad : ∀ e, bad e s) (r : Except ε α) : settled good bad r s := by
  cases r with
  | ok a => exact hGood a
  | error e => exact hBad e

def Holds (step : Steps I S) (crash : S → Prop) (good : α → S → Prop) (bad : ε → S → Prop)
    (x : Fallible I ε α) (s : S) : Prop := Safe step crash (settled good bad) x s

namespace Holds

variable {x : Fallible I ε α} {e : ε} {c : Bool}

theorem mono {crash' : S → Prop} {good' : α → S → Prop} {bad' : ε → S → Prop} (h : Holds step crash good bad x s)
    (hCrash : ∀ t, crash t → crash' t) (hGood : ∀ a t, good a t → good' a t) (hBad : ∀ e t, bad e t → bad' e t) :
    Holds step crash' good' bad' x s := by
  refine Safe.mono h hCrash fun r t hr => ?_
  cases r with
  | ok a => exact hGood a t hr
  | error e => exact hBad e t hr

theorem pure {a : α} (hCrash : crash s) (h : good a s) : Holds step crash good bad (Pure.pure a) s := ⟨hCrash, h⟩

theorem fail (hCrash : crash s) (h : bad e s) :
    Holds step crash good bad (Fallible.fail e) s := ⟨hCrash, h⟩

theorem settle {r : Except ε α} (hCrash : crash s) (h : settled good bad r s) :
    Holds step crash good bad (Fallible.settle r) s := ⟨hCrash, h⟩

theorem bind {k : α → Fallible I ε β} (h : Holds step crash good bad x s)
    (hNext : ∀ a t, crash t → good a t → Holds step crash good' bad (k a) t) :
    Holds step crash good' bad (x >>= k) s := by
  refine Safe.bind h fun r t hCrash hr => ?_
  cases r with
  | ok a => exact hNext a t hCrash hr
  | error e => exact ⟨hCrash, hr⟩

theorem outcome {good' : Except ε α → S → Prop} {bad' : δ → S → Prop}
    (h : Holds step crash (fun a => good' (.ok a)) (fun e => good' (.error e)) x s) :
    Holds step crash good' bad' (Fallible.outcome x) s := by
  refine Safe.bind h fun r t hCrash hr => ?_
  cases r with
  | ok a => exact ⟨hCrash, hr⟩
  | error e => exact ⟨hCrash, hr⟩

theorem mapError {f : ε → δ} {bad' : δ → S → Prop} (h : Holds step crash good (fun e => bad' (f e)) x s) :
    Holds step crash good bad' (Fallible.mapError f x) s := by
  refine Safe.bind h fun r t hCrash hr => ?_
  cases r with
  | ok a => exact ⟨hCrash, hr⟩
  | error e => exact ⟨hCrash, hr⟩

theorem failIf {good : Unit → S → Prop} (hCrash : crash s) (hFail : c = true → bad e s)
    (hPass : c = false → good () s) : Holds step crash good bad (Fallible.failIf c e) s := by
  unfold Fallible.failIf
  cases c with
  | true => exact ⟨hCrash, hFail rfl⟩
  | false => exact ⟨hCrash, hPass rfl⟩

theorem guard {k : Unit → Fallible I ε α} (hCrash : crash s) (hFail : c = true → bad e s)
    (hPass : c = false → Holds step crash good bad (k ()) s) :
    Holds step crash good bad (Fallible.failIf c e >>= k) s := by
  cases c with
  | true => exact ⟨hCrash, hFail rfl⟩
  | false => exact hPass rfl

theorem onlyIf {x : Fallible I ε Unit} {good : Unit → S → Prop} (hCrash : crash s)
    (hRun : c = true → Holds step crash good bad x s) (hSkip : c = false → good () s) :
    Holds step crash good bad (Fallible.onlyIf c x) s := by
  unfold Fallible.onlyIf
  cases c with
  | true => exact hRun rfl
  | false => exact ⟨hCrash, hSkip rfl⟩

end Holds

end Triples

-- Programs that move the state only along a relation, whatever they return.
section Frames

variable {I : Interface} {S α β ε δ : Type} {step : Steps I S} {R : S → S → Prop} [IsPreorder S R]

def Keeps (step : Steps I S) (R : S → S → Prop) (x : Fallible I ε α) : Prop :=
  ∀ s, Holds step (R s) (fun _ => R s) (fun _ => R s) x s

namespace Keeps

variable {x : Fallible I ε α}

theorem after (h : Keeps step R x) {s t : S} (hst : R s t) : Holds step (R s) (fun _ => R s) (fun _ => R s) x t :=
  (h t).mono (fun _ hu => trans_of R hst hu) (fun _ _ hu => trans_of R hst hu) (fun _ _ hu => trans_of R hst hu)

omit [IsPreorder S R] in
theorem seq {k : α → Fallible I ε β} {crash : S → Prop} {good : β → S → Prop} {bad : ε → S → Prop} {s : S}
    (h : Keeps step R x) (hCrash : ∀ t, R s t → crash t) (hBad : ∀ e t, R s t → bad e t)
    (hNext : ∀ a t, R s t → Holds step crash good bad (k a) t) : Holds step crash good bad (x >>= k) s :=
  Holds.bind ((h s).mono hCrash (fun _ _ ht => ht) hBad) fun a t _ ht => hNext a t ht

omit [IsPreorder S R] in
theorem weaken {R' : S → S → Prop} (h : Keeps step R x) (hRel : ∀ s t, R s t → R' s t) : Keeps step R' x :=
  fun s => (h s).mono (hRel s) (fun _ => hRel s) fun _ => hRel s

theorem of_eq (h : Keeps step Eq x) : Keeps step R x := h.weaken fun s _ hst => hst ▸ refl_of R s

theorem pure (a : α) : Keeps step R (Pure.pure a : Fallible I ε α) :=
  fun s => Holds.pure (refl_of R s) (refl_of R s)

theorem fail (e : ε) : Keeps step R (Fallible.fail e : Fallible I ε α) :=
  fun s => Holds.fail (refl_of R s) (refl_of R s)

theorem settle (r : Except ε α) : Keeps step R (Fallible.settle r : Fallible I ε α) := by
  intro s
  cases r with
  | ok a => exact ⟨refl_of R s, refl_of R s⟩
  | error e => exact ⟨refl_of R s, refl_of R s⟩

theorem bind {k : α → Fallible I ε β} (h : Keeps step R x) (hNext : ∀ a, Keeps step R (k a)) :
    Keeps step R (x >>= k) :=
  fun s => Holds.bind (h s) fun a _ _ ht => (hNext a).after ht

omit [IsPreorder S R] in
theorem outcome (h : Keeps step R x) :
    Keeps step R (Fallible.outcome x : Fallible I δ (Except ε α)) := fun s => Holds.outcome (h s)

omit [IsPreorder S R] in
theorem mapError (f : ε → δ) (h : Keeps step R x) : Keeps step R (Fallible.mapError f x) :=
  fun s => Holds.mapError (h s)

theorem failIf (c : Bool) (e : ε) : Keeps step R (Fallible.failIf c e : Fallible I ε Unit) :=
  fun s => Holds.failIf (refl_of R s) (fun _ => refl_of R s) fun _ => refl_of R s

theorem onlyIf (c : Bool) {x : Fallible I ε Unit} (h : Keeps step R x) : Keeps step R (Fallible.onlyIf c x) :=
  fun s => Holds.onlyIf (refl_of R s) (fun _ => h s) fun _ => refl_of R s

theorem forEach {f : β → Fallible I ε Unit} (h : ∀ b, Keeps step R (f b)) (l : List β) :
    Keeps step R (Fallible.forEach f l) := by
  induction l with
  | nil => exact pure ()
  | cons b _ ih => exact bind (h b) fun _ => ih

end Keeps

def Total (step : Steps I S) (R : S → S → Prop) (x : Fallible I ε α) : Prop :=
  ∀ s, Holds step (R s) (fun _ => R s) (fun _ _ => False) x s

namespace Total

omit [IsPreorder S R] in
theorem keeps {x : Fallible I ε α} (h : Total step R x) : Keeps step R x :=
  fun s => (h s).mono (fun _ ht => ht) (fun _ _ ht => ht) fun _ _ ht => ht.elim

theorem pure (a : α) : Total step R (Pure.pure a : Fallible I ε α) :=
  fun s => Holds.pure (refl_of R s) (refl_of R s)

theorem bind {x : Fallible I ε α} {k : α → Fallible I ε β} (h : Total step R x) (hNext : ∀ a, Total step R (k a)) :
    Total step R (x >>= k) :=
  fun s => Holds.bind (h s) fun a t _ ht =>
    (hNext a t).mono (fun _ hu => trans_of R ht hu) (fun _ _ hu => trans_of R ht hu) fun _ _ hu => hu

omit [IsPreorder S R] in
theorem outcome {x : Fallible I ε α} (h : Keeps step R x) :
    Total step R (Fallible.outcome x : Fallible I δ (Except ε α)) := fun s => Holds.outcome (h s)

theorem mapEach {f : β → Fallible I ε α} (h : ∀ b, Total step R (f b)) (l : List β) :
    Total step R (Fallible.mapEach f l) := by
  induction l with
  | nil => exact pure []
  | cons b _ ih => exact bind (h b) fun _ => bind ih fun _ => pure _

end Total

theorem Keeps.skip {x : Fallible I ε α} {k : α → Fallible I ε β} {crash : S → Prop} {good : β → S → Prop}
    {bad : ε → S → Prop} {s : S} (h : Keeps step Eq x) (hCrash : crash s) (hBad : ∀ e, bad e s)
    (hNext : ∀ a, Holds step crash good bad (k a) s) : Holds step crash good bad (x >>= k) s :=
  h.seq (fun _ ht => ht ▸ hCrash) (fun e _ ht => ht ▸ hBad e) fun a _ ht => ht ▸ hNext a

end Frames

-- Surroundings that answer each call in one way.
section Evaluation

variable {I : Interface} {S α : Type}

abbrev Responder (I : Interface) (S : Type) := (c : I.Call) → S → I.Reply c × S

def eval (respond : Responder I S) : Program I α → S → α × S
  | .done a, s => (a, s)
  | .call c next, s =>
    match respond c s with
    | (reply, t) => eval respond (next reply) t

def advance (respond : Responder I S) : Nat → Program I α → S → List (Event I) × Program I α × S
  | n + 1, .call c next, s =>
    match respond c s with
    | (reply, t) =>
      match advance respond n (next reply) t with
      | (trace, later) => (⟨c, reply⟩ :: trace, later)
  | _, p, s => ([], p, s)

variable {step : Steps I S} {respond : Responder I S}

theorem advance_runs (h : ∀ c s, step c s (respond c s).1 (respond c s).2) (n : Nat) (p : Program I α) (s : S) :
    Runs step p s (advance respond n p s).1 (advance respond n p s).2.1 (advance respond n p s).2.2 := by
  induction n generalizing p s with
  | zero => exact .stop p s
  | succ n ih =>
    cases p with
    | done a => exact .stop _ s
    | call => exact .next (h _ s) (ih ..)

def Program.result : Program I α → Option α
  | .done a => some a
  | .call _ _ => none

theorem eq_done {p : Program I α} {a : α} (h : p.result = some a) : p = .done a := by
  cases p with
  | done b => exact congrArg Program.done (Option.some.inj h)
  | call _ _ => cases h

theorem advance_returns (h : ∀ c s, step c s (respond c s).1 (respond c s).2) {n : Nat} {p : Program I α} {s : S}
    {a : α} (hResult : (advance respond n p s).2.1.result = some a) :
    Runs step p s (advance respond n p s).1 (.done a) (advance respond n p s).2.2 :=
  eq_done hResult ▸ advance_runs h n p s

theorem eval_runs (h : ∀ c s, step c s (respond c s).1 (respond c s).2) (p : Program I α) (s : S) :
    ∃ trace, Runs step p s trace (.done (eval respond p s).1) (eval respond p s).2 := by
  induction p generalizing s with
  | done a => exact ⟨[], .stop _ s⟩
  | call c next ih =>
    obtain ⟨trace, hRest⟩ := ih (respond c s).1 (respond c s).2
    exact ⟨_, .next (h c s) hRest⟩

theorem eval_bind {β : Type} (respond : Responder I S) (p : Program I α) (k : α → Program I β) (s : S) :
    eval respond (p.bind k) s = eval respond (k (eval respond p s).1) (eval respond p s).2 := by
  induction p generalizing s with
  | done a => rfl
  | call _ _ ih => exact ih _ _

variable {β ε δ : Type} {respond : Responder I S} {s t : S}

def Fallible.eval (respond : Responder I S) (x : Fallible I ε α) (s : S) : Except ε α × S :=
  Programs.eval respond x s

namespace Fallible

theorem eval_seq_ok {x : Fallible I ε α} {k : α → Fallible I ε β} {a : α} (h : x.eval respond s = (.ok a, t)) :
    (x >>= k).eval respond s = (k a).eval respond t := by
  have hBind := eval_bind respond x (fun | .ok a => k a | .error e => .done (.error e)) s
  rw [show Programs.eval respond x s = _ from h] at hBind
  exact hBind

theorem eval_outcome {x : Fallible I ε α} {r : Except ε α} (h : x.eval respond s = (r, t)) :
    (outcome x : Fallible I δ (Except ε α)).eval respond s = (.ok r, t) := by
  have hBind := eval_bind respond x (fun r => (.done (.ok r) : Program I (Except δ (Except ε α)))) s
  rw [show Programs.eval respond x s = _ from h] at hBind
  exact hBind

end Fallible

end Evaluation

end NeroCD.Programs
