import Maskura.Lib.Prog
import Maskura.Lib.Transition
import Mathlib.Logic.Function.Basic

/-!
Programs that run side by side on one state. A step lets one task make its next
request; which task, and what the system does about the request, the
environment decides. The pool keeps a record of the requests that were made,
so that a condition on a schedule can ask which tasks have begun.

`Tolerates J Q p` is the rule for a task under interference: as long as the
others keep `J` true between its requests, it keeps `J` true itself and ends
with a result in `Q`.
-/

namespace Maskura.Lib

variable {τ ρ : Type} {ans : ρ → Type} {α β ε σ χ : Type}

structure Pool (τ ρ : Type) (ans : ρ → Type) (σ α : Type) where
  tasks : τ → Prog ρ ans α
  state : σ
  /-- Who has asked for what, oldest first. -/
  trace : List (τ × ρ) := []

namespace Pool

variable [DecidableEq τ] (exec : Prog.Handler ρ ans σ χ)

def step (pool : Pool τ ρ ans σ α) : τ × χ → Option (Pool τ ρ ans σ α)
  | (i, choice) =>
      match pool.tasks i with
      | .done _ => none
      | .call r next => some
          { tasks := Function.update pool.tasks i (next (exec pool.state r choice).1)
            state := (exec pool.state r choice).2
            trace := pool.trace ++ [(i, r)] }

/-- The runs of these tasks from this state. -/
def system (tasks : τ → Prog ρ ans α) (state : σ) : System (Pool τ ρ ans σ α) (τ × χ) :=
  System.ofStep (· = ⟨tasks, state, []⟩) (step exec)

variable {exec}

theorem step_of_call {pool : Pool τ ρ ans σ α} {i : τ} {choice : χ} {r : ρ}
    {next : ans r → Prog ρ ans α} (h : pool.tasks i = .call r next) :
    pool.step exec (i, choice) = some
      ⟨Function.update pool.tasks i (next (exec pool.state r choice).1),
        (exec pool.state r choice).2, pool.trace ++ [(i, r)]⟩ := by
  unfold step
  simp only [h]

/-- A step is a request of one task. -/
theorem step_eq_some {pool pool' : Pool τ ρ ans σ α} {i : τ} {choice : χ}
    (h : pool.step exec (i, choice) = some pool') :
    ∃ r next, pool.tasks i = .call r next ∧
      pool' = ⟨Function.update pool.tasks i (next (exec pool.state r choice).1),
        (exec pool.state r choice).2, pool.trace ++ [(i, r)]⟩ := by
  cases htask : pool.tasks i with
  | done a => simp [step, htask] at h
  | call r next =>
      rw [step_of_call htask, Option.some.injEq] at h
      exact ⟨r, next, rfl, h.symm⟩

end Pool

namespace Prog

variable (exec : Handler ρ ans σ χ) (J : σ → Prop)

/-- Whatever state with `J` each request finds, it leaves one with `J`, and the
program ends with a result in `Q`. -/
def Tolerates (Q : α → Prop) : Prog ρ ans α → Prop
  | done a => Q a
  | call r next => ∀ s, J s → ∀ choice,
      J (exec s r choice).2 ∧ Tolerates Q (next (exec s r choice).1)

variable {exec J}

theorem tolerates_bind {p : Prog ρ ans α} {f : α → Prog ρ ans β} {Q : β → Prop} :
    Tolerates exec J Q (p >>= f) ↔ Tolerates exec J (fun a => Tolerates exec J Q (f a)) p := by
  induction p with
  | done a => exact Iff.rfl
  | call r next ih =>
      exact forall_congr' fun s => forall_congr' fun _ => forall_congr' fun choice =>
        and_congr_right fun _ => ih _

/-- Sequencing of programs that can fail: an error ends the first one. -/
theorem toleratesE_bind {m : ExceptT ε (Prog ρ ans) α} {f : α → ExceptT ε (Prog ρ ans) β}
    {Q : Except ε β → Prop} :
    Tolerates exec J Q (m >>= f).run ↔ Tolerates exec J (fun result => match result with
      | .ok a => Tolerates exec J Q (f a).run
      | .error e => Q (.error e)) m.run := by
  rw [ExceptT.run_bind, tolerates_bind]
  refine iff_of_eq (congrArg (fun R => Tolerates exec J R m.run) (funext fun result => ?_))
  cases result with
  | ok a => rfl
  | error e => rfl

theorem Tolerates.mono {p : Prog ρ ans α} {Q Q' : α → Prop} (h : Tolerates exec J Q p)
    (hQ : ∀ a, Q a → Q' a) : Tolerates exec J Q' p := by
  induction p with
  | done a => exact hQ a h
  | call r next ih => exact fun s hs choice => ⟨(h s hs choice).1, ih _ (h s hs choice).2⟩

end Prog

/-- A pool in which every task tolerates the others keeps the condition and
stays one. -/
theorem Pool.step_tolerates [DecidableEq τ] {exec : Prog.Handler ρ ans σ χ} {J : σ → Prop}
    {Q : τ → α → Prop} {pool pool' : Pool τ ρ ans σ α} {label : τ × χ} (hJ : J pool.state)
    (htasks : ∀ i, Prog.Tolerates exec J (Q i) (pool.tasks i))
    (hstep : pool.step exec label = some pool') :
    J pool'.state ∧ ∀ i, Prog.Tolerates exec J (Q i) (pool'.tasks i) := by
  obtain ⟨j, choice⟩ := label
  obtain ⟨r, next, hcall, rfl⟩ := step_eq_some hstep
  have hj := htasks j
  rw [hcall] at hj
  refine ⟨(hj _ hJ choice).1, fun i => ?_⟩
  by_cases hi : i = j
  · subst hi
    change Prog.Tolerates _ _ _ (Function.update pool.tasks i _ i)
    rw [Function.update_self]
    exact (hj _ hJ choice).2
  · change Prog.Tolerates _ _ _ (Function.update pool.tasks j _ i)
    rw [Function.update_of_ne hi]
    exact htasks i

end Maskura.Lib
