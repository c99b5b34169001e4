import Mathlib.Logic.Basic

/-!
Fallible computations. The code's `Result` is `Except`, its early return
`if cond { return Err(e); }` is `rejectIf cond e`, and `?` is monadic bind.
The lemmas here take a successful computation apart one `?` at a time, so
that no proof about a fallible function has to unfold the monad.
-/

namespace Maskura.Lib

variable {ε α β : Type}

/-- `if cond { return Err(error); }`. -/
def rejectIf (cond : Prop) [Decidable cond] (error : ε) : Except ε Unit :=
  if cond then .error error else .ok ()

/-- `option.ok_or(error)`. -/
def okOr (option : Option α) (error : ε) : Except ε α :=
  match option with
  | some a => .ok a
  | none => .error error

@[simp] theorem rejectIf_eq_ok (cond : Prop) [Decidable cond] (error : ε) (u : Unit) :
    rejectIf cond error = .ok u ↔ ¬cond := by
  by_cases h : cond <;> simp [rejectIf, h]

@[simp] theorem rejectIf_eq_error (cond : Prop) [Decidable cond] (error e : ε) :
    rejectIf cond error = (.error e : Except ε Unit) ↔ cond ∧ error = e := by
  by_cases h : cond <;> simp [rejectIf, h]

theorem rejectIf_pos {cond : Prop} [Decidable cond] (h : cond) (error : ε) :
    rejectIf cond error = .error error := if_pos h

theorem rejectIf_neg {cond : Prop} [Decidable cond] (h : ¬ cond) (error : ε) :
    rejectIf cond error = .ok () := if_neg h

theorem ite_error_eq_ok {cond : Prop} [Decidable cond] {error : ε} {x : Except ε α} {a : α} :
    (if cond then .error error else x) = .ok a ↔ ¬cond ∧ x = .ok a := by
  by_cases h : cond <;> simp [h]

@[simp] theorem okOr_some (a : α) (error : ε) : okOr (some a) error = .ok a := rfl

@[simp] theorem okOr_none (error : ε) : okOr (none : Option α) error = .error error := rfl

@[simp] theorem okOr_eq_ok (option : Option α) (error : ε) (a : α) :
    okOr option error = .ok a ↔ option = some a := by
  cases option <;> simp [okOr]

/-- A sequence of two computations succeeds exactly when both do. -/
theorem bind_eq_ok {x : Except ε α} {f : α → Except ε β} {b : β} :
    (x >>= f) = .ok b ↔ ∃ a, x = .ok a ∧ f a = .ok b := by
  cases x with
  | error e => simp [bind, Except.bind]
  | ok a => simp [bind, Except.bind]

theorem pure_ok (a : α) : (pure a : Except ε α) = .ok a := rfl

theorem pure_eq_ok {a b : α} : (pure a : Except ε α) = .ok b ↔ a = b := by
  rw [pure_ok, Except.ok.injEq]

@[simp] theorem ok_bind (a : α) (f : α → Except ε β) : ((.ok a : Except ε α) >>= f) = f a := rfl

@[simp] theorem error_bind (e : ε) (f : α → Except ε β) :
    ((.error e : Except ε α) >>= f) = .error e := rfl

@[simp] theorem mapError_ok {δ : Type} (f : ε → δ) (a : α) :
    (.ok a : Except ε α).mapError f = .ok a := rfl

@[simp] theorem mapError_error {δ : Type} (f : ε → δ) (e : ε) :
    (.error e : Except ε α).mapError f = .error (f e) := rfl

theorem mapError_eq_ok {δ : Type} {f : ε → δ} {x : Except ε α} {a : α} :
    x.mapError f = .ok a ↔ x = .ok a := by
  cases x <;> simp

end Maskura.Lib
