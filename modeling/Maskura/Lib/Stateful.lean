import Maskura.Lib.Result

/-!
Calls on a shared state that can fail. What a call has written before it fails
stays written: the error comes with the state it left.

`Ends Q E call s` is the rule of pre- and postconditions for them. Called in `s`
it ends with a result in `Q` or with an error in `E`.
-/

namespace Maskura.Lib

variable {ε ε' σ α β : Type}

abbrev Stateful (ε σ α : Type) := ExceptT ε (StateM σ) α

namespace Stateful

/-- What the call answers, and the state it leaves. -/
def exec (call : Stateful ε σ α) (s : σ) : Except ε α × σ := (ExceptT.run call).run s

/-- A computation that only reads. -/
def check (x : Except ε α) : Stateful ε σ α := ExceptT.mk (pure x)

/-- `if cond { return Err(error); }`. -/
def reject (cond : Prop) [Decidable cond] (error : ε) : Stateful ε σ Unit :=
  check (rejectIf cond error)

/-- `option.ok_or(error)?`. -/
def require (option : Option α) (error : ε) : Stateful ε σ α := check (okOr option error)

def Ends (Q : α → σ → Prop) (E : ε → σ → Prop) (call : Stateful ε σ α) (s : σ) : Prop :=
  match call.exec s with
  | (.ok a, t) => Q a t
  | (.error e, t) => E e t

variable {Q : α → σ → Prop} {E : ε → σ → Prop} {s : σ}

@[simp] theorem ends_pure (a : α) : Ends Q E (pure a : Stateful ε σ α) s ↔ Q a s := Iff.rfl

@[simp] theorem ends_throw (e : ε) : Ends Q E (throw e : Stateful ε σ α) s ↔ E e s := Iff.rfl

@[simp] theorem ends_get {Q : σ → σ → Prop} : Ends Q E (get : Stateful ε σ σ) s ↔ Q s s := Iff.rfl

@[simp] theorem ends_modify {Q : PUnit → σ → Prop} (f : σ → σ) :
    Ends Q E (modify f : Stateful ε σ PUnit) s ↔ Q ⟨⟩ (f s) := Iff.rfl

theorem ends_check (x : Except ε α) :
    Ends Q E (check x : Stateful ε σ α) s ↔
      (∀ a, x = .ok a → Q a s) ∧ ∀ e, x = .error e → E e s := by
  cases x with
  | ok a =>
      change Q a s ↔ _
      simp
  | error e =>
      change E e s ↔ _
      simp

theorem ends_check_mapError {f : ε' → ε} (x : Except ε' α) :
    Ends Q E (check (x.mapError f) : Stateful ε σ α) s ↔
      (∀ a, x = .ok a → Q a s) ∧ ∀ e, x = .error e → E (f e) s := by
  rw [ends_check]
  cases x <;> simp

theorem ends_reject {Q : Unit → σ → Prop} (cond : Prop) [Decidable cond] (error : ε) :
    Ends Q E (reject cond error) s ↔ (cond → E error s) ∧ (¬cond → Q () s) := by
  rw [reject, ends_check]
  by_cases h : cond
  · simp [h, rejectIf]
  · simp only [rejectIf_eq_ok, h, rejectIf_eq_error, not_false_iff, forall_const, false_and,
      false_imp_iff, implies_true, and_true, true_and]
    exact ⟨fun hq => hq (), fun hq _ => hq⟩

theorem ends_require (option : Option α) (error : ε) :
    Ends Q E (require option error) s ↔
      (∀ a, option = some a → Q a s) ∧ (option = none → E error s) := by
  rw [require, ends_check]
  cases option <;> simp

theorem exec_bind (call : Stateful ε σ α) (f : α → Stateful ε σ β) (s : σ) :
    (call >>= f).exec s = match call.exec s with
      | (.ok a, t) => (f a).exec t
      | (.error e, t) => (.error e, t) := by
  simp only [exec, ExceptT.run_bind, StateT.run_bind]
  rcases (ExceptT.run call).run s with ⟨_ | _, t⟩ <;> rfl

@[simp] theorem ends_bind {call : Stateful ε σ α} {f : α → Stateful ε σ β} {Q : β → σ → Prop} :
    Ends Q E (call >>= f) s ↔ Ends (fun a t => Ends Q E (f a) t) E call s := by
  unfold Ends
  rw [exec_bind]
  rcases call.exec s with ⟨_ | _, t⟩ <;> rfl

theorem ends_ite {c : Prop} [Decidable c] {p q : Stateful ε σ α} :
    Ends Q E (if c then p else q) s ↔ (c → Ends Q E p s) ∧ (¬c → Ends Q E q s) := by
  by_cases h : c <;> simp [h]

theorem Ends.mono {Q' : α → σ → Prop} {E' : ε → σ → Prop} {call : Stateful ε σ α}
    (h : Ends Q E call s) (hQ : ∀ a t, Q a t → Q' a t) (hE : ∀ e t, E e t → E' e t) :
    Ends Q' E' call s := by
  unfold Ends at *
  cases hcall : call.exec s with
  | mk result t =>
      rw [hcall] at h
      cases result with
      | ok a => exact hQ a t h
      | error e => exact hE e t h

theorem Ends.ok {call : Stateful ε σ α} (h : Ends Q E call s) {a : α} {t : σ}
    (hexec : call.exec s = (.ok a, t)) : Q a t := by
  unfold Ends at h
  rwa [hexec] at h

theorem Ends.error {call : Stateful ε σ α} (h : Ends Q E call s) {e : ε} {t : σ}
    (hexec : call.exec s = (.error e, t)) : E e t := by
  unfold Ends at h
  rwa [hexec] at h

/-- What a call makes true however it ends is true of the state it leaves. -/
theorem Ends.after {I : σ → Prop} {call : Stateful ε σ α}
    (h : Ends (fun _ t => I t) (fun _ t => I t) call s) : I (call.exec s).2 := by
  cases hexec : call.exec s with
  | mk result t =>
      cases result with
      | ok a => exact h.ok hexec
      | error e => exact h.error hexec

end Stateful

end Maskura.Lib
