import Mathlib.Control.Basic
import Mathlib.Logic.Basic

/-!
Programs that call a system. A program is a tree: it is finished, or it makes
one request and goes on with the answer. Where the system can do one of
several things, a choice says which, so a run is given by the program, the
state and a list of choices, and can be evaluated. A run that has used up its
choices is cut at its next request: that is a crash there, or the program is
dropped there.

`Holds I Q p s` is the rule of pre- and postconditions for such programs. It
says that the program started in `s` meets `I` at each request, hence wherever
it is cut, and `Q` where it finishes.
-/

namespace Maskura.Lib

inductive Prog (ρ : Type) (ans : ρ → Type) (α : Type) : Type
  | done (a : α)
  | call (r : ρ) (next : ans r → Prog ρ ans α)

namespace Prog

variable {ρ : Type} {ans : ρ → Type} {α β ε σ χ : Type}

protected def bind : Prog ρ ans α → (α → Prog ρ ans β) → Prog ρ ans β
  | done a, f => f a
  | call r next, f => call r fun answer => (next answer).bind f

instance : Monad (Prog ρ ans) where
  pure := done
  bind := Prog.bind

instance : LawfulMonad (Prog ρ ans) :=
  LawfulMonad.mk' _
    (fun p => by
      induction p with
      | done a => rfl
      | call r next ih => exact congrArg (call r) (funext ih))
    (fun _ _ => rfl)
    (fun p f g => by
      induction p with
      | done a => rfl
      | call r next ih => exact congrArg (call r) (funext ih))

/-- The program that makes one request and returns the answer. -/
def request (r : ρ) : Prog ρ ans (ans r) := call r done

/-- How a system answers a request under a choice. -/
abbrev Handler (ρ : Type) (ans : ρ → Type) (σ χ : Type) := σ → (r : ρ) → χ → ans r × σ

/-- A run: what it returned, unless it was cut, the state it left and the
choices it did not use. -/
def run (exec : Handler ρ ans σ χ) : Prog ρ ans α → List χ → σ → Option α × σ × List χ
  | done a, choices, s => (some a, s, choices)
  | call _ _, [], s => (none, s, [])
  | call r next, choice :: choices, s =>
      let (answer, t) := exec s r choice
      (next answer).run exec choices t

/-- The state a run leaves. -/
def after (exec : Handler ρ ans σ χ) (p : Prog ρ ans α) (choices : List χ) (s : σ) : σ :=
  (p.run exec choices s).2.1

/-- The run in which the system makes the same choice at every request. -/
def always (exec : Handler ρ ans σ χ) (choice : χ) : Prog ρ ans α → σ → α × σ
  | done a, s => (a, s)
  | call r next, s =>
      let (answer, t) := exec s r choice
      (next answer).always exec choice t

/-! ### Pre- and postconditions -/

variable (exec : Handler ρ ans σ χ) (I : σ → Prop)

/-- Started in `s` the program meets `I` at each request and `Q` at its end. -/
def Holds (Q : α → σ → Prop) : Prog ρ ans α → σ → Prop
  | done a, s => Q a s
  | call r next, s =>
      I s ∧ ∀ choice, Holds Q (next (exec s r choice).1) (exec s r choice).2

variable {exec I} {Q : α → σ → Prop} {s : σ}

@[simp] theorem holds_pure (a : α) : Holds exec I Q (pure a : Prog ρ ans α) s ↔ Q a s := Iff.rfl

@[simp] theorem holds_request {r : ρ} {Q : ans r → σ → Prop} :
    Holds exec I Q (request r) s ↔ I s ∧ ∀ choice, Q (exec s r choice).1 (exec s r choice).2 :=
  Iff.rfl

/-- Sequencing: the first program establishes what the second one needs. -/
@[simp] theorem holds_bind {p : Prog ρ ans α} {f : α → Prog ρ ans β} {Q : β → σ → Prop} :
    Holds exec I Q (p >>= f) s ↔ Holds exec I (fun a t => Holds exec I Q (f a) t) p s := by
  induction p generalizing s with
  | done a => exact Iff.rfl
  | call r next ih => exact and_congr_right fun _ => forall_congr' fun choice => ih _

theorem Holds.mono {p : Prog ρ ans α} {Q' : α → σ → Prop} (h : Holds exec I Q p s)
    (hQ : ∀ a t, Q a t → Q' a t) : Holds exec I Q' p s := by
  induction p generalizing s with
  | done a => exact hQ a s h
  | call r next ih => exact ⟨h.1, fun choice => ih _ (h.2 choice)⟩

/-- A run that finishes meets the postcondition, one that is cut the condition
of every request. -/
theorem Holds.run {p : Prog ρ ans α} (h : Holds exec I Q p s) (choices : List χ) :
    match p.run exec choices s with
    | (some a, t, _) => Q a t
    | (none, t, _) => I t := by
  induction p generalizing s choices with
  | done a => exact h
  | call r next ih =>
      cases choices with
      | nil => exact h.1
      | cons choice choices => exact ih _ (h.2 choice) choices

theorem Holds.result {p : Prog ρ ans α} (h : Holds exec I Q p s) {choices : List χ} {a : α}
    (ha : (p.run exec choices s).1 = some a) : Q a (p.after exec choices s) := by
  have hrun := h.run choices
  unfold Prog.after
  match hmatch : p.run exec choices s with
  | (some b, t, rest) =>
      rw [hmatch] at hrun ha
      obtain rfl : b = a := Option.some.inj ha
      exact hrun
  | (none, t, rest) =>
      rw [hmatch] at ha
      cases ha

theorem always_bind (choice : χ) (p : Prog ρ ans α) (f : α → Prog ρ ans β) (s : σ) :
    (p >>= f).always exec choice s =
      (f (p.always exec choice s).1).always exec choice (p.always exec choice s).2 := by
  induction p generalizing s with
  | done a => rfl
  | call r next ih => exact ih _ _

variable (exec) in
/-- The run with one choice throughout is a run. -/
theorem exists_run_always (choice : χ) (p : Prog ρ ans α) (s : σ) :
    ∃ choices, p.run exec choices s =
      (some (p.always exec choice s).1, (p.always exec choice s).2, []) := by
  induction p generalizing s with
  | done a => exact ⟨[], rfl⟩
  | call r next ih =>
      obtain ⟨choices, hrun⟩ := ih (exec s r choice).1 (exec s r choice).2
      exact ⟨choice :: choices, hrun⟩

/-- A computation that makes no request. `?` and early returns are `ExceptT`. -/
def ofExcept (x : Except ε α) : ExceptT ε (Prog ρ ans) α := ExceptT.mk (pure x)

end Prog

end Maskura.Lib
