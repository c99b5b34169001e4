import Mathlib.Logic.Relation

/-!
Labelled transition systems, and the two induction rules every safety
result of the development goes through.

A system is an initial condition and a labelled step relation. The label
carries whatever the environment decides about a step: which request runs,
what the clock says, where a crash falls. A *guard* is a condition on a
state and the label of the step about to be taken there; `restrict` keeps
the runs all of whose steps meet it. A law that only holds away from some
defect is then a plain safety statement about the restricted system.
-/

namespace Maskura.Lib

universe u v

/-- A labelled transition system. -/
structure System (σ : Type u) (ℓ : Type v) where
  /-- The states a run may start from. -/
  init : σ → Prop
  /-- One step, under the label the environment chose for it. -/
  step : σ → ℓ → σ → Prop

namespace System

variable {σ : Type u} {ℓ : Type v} (S : System σ ℓ)

/-- One step under some label. -/
def Next (s t : σ) : Prop := ∃ l, S.step s l t

/-- Any number of steps. -/
def Steps : σ → σ → Prop := Relation.ReflTransGen S.Next

/-- The states that some run reaches. -/
def Reachable (s : σ) : Prop := ∃ s₀, S.init s₀ ∧ S.Steps s₀ s

/-- The system that takes a step only where `guard` holds of the state it
starts in and of its label. -/
def restrict (guard : σ → ℓ → Prop) : System σ ℓ where
  init := S.init
  step s l t := guard s l ∧ S.step s l t

variable {S}

theorem Reachable.of_init {s : σ} (h : S.init s) : S.Reachable s :=
  ⟨s, h, .refl⟩

theorem Reachable.step {s t : σ} {l : ℓ} (h : S.Reachable s) (hstep : S.step s l t) :
    S.Reachable t := by
  obtain ⟨s₀, hinit, hsteps⟩ := h
  exact ⟨s₀, hinit, hsteps.tail ⟨l, hstep⟩⟩

/-- Every run of a restricted system is one of the system. -/
theorem Reachable.of_restrict {guard : σ → ℓ → Prop} {s : σ}
    (h : (S.restrict guard).Reachable s) : S.Reachable s := by
  obtain ⟨s₀, hinit, hsteps⟩ := h
  have hnext : ∀ a b, (S.restrict guard).Next a b → S.Next a b := by
    rintro a b ⟨l, -, hstep⟩
    exact ⟨l, hstep⟩
  exact ⟨s₀, hinit, Relation.ReflTransGen.mono hnext _ _ hsteps⟩

/-- What every step preserves holds along every run from a state where it
holds. -/
theorem Steps.preserves {I : σ → Prop} {s t : σ} (hsteps : S.Steps s t)
    (hstep : ∀ ⦃a : σ⦄ ⦃l : ℓ⦄ ⦃b : σ⦄, I a → S.step a l b → I b) (hs : I s) : I t := by
  induction hsteps with
  | refl => exact hs
  | tail _ hnext ih =>
      obtain ⟨l, hl⟩ := hnext
      exact hstep ih hl

/-- An invariant of the initial states that every step preserves holds in
every reachable state. -/
theorem Reachable.invariant {I : σ → Prop} {s : σ} (h : S.Reachable s)
    (hinit : ∀ ⦃a : σ⦄, S.init a → I a)
    (hstep : ∀ ⦃a : σ⦄ ⦃l : ℓ⦄ ⦃b : σ⦄, I a → S.step a l b → I b) : I s := by
  obtain ⟨s₀, hs₀, hsteps⟩ := h
  exact hsteps.preserves hstep (hinit hs₀)

/-! ### Systems with a step function

When the label determines the outcome of a step, the system is a partial
function, and a concrete run can be evaluated. -/

/-- The system whose steps are those of a partial function. -/
def ofStep (init : σ → Prop) (step : σ → ℓ → Option σ) : System σ ℓ where
  init := init
  step s l t := step s l = some t

/-- The state a sequence of steps leads to. -/
def run (step : σ → ℓ → Option σ) (s : σ) : List ℓ → Option σ
  | [] => some s
  | l :: ls => (step s l).bind fun t => run step t ls

variable {init : σ → Prop} {step : σ → ℓ → Option σ}

theorem Reachable.run {s t : σ} {ls : List ℓ} (h : (ofStep init step).Reachable s)
    (hrun : run step s ls = some t) : (ofStep init step).Reachable t := by
  induction ls generalizing s with
  | nil =>
      obtain rfl : s = t := Option.some.inj hrun
      exact h
  | cons l ls ih =>
      obtain ⟨next, hstep, hrest⟩ := Option.bind_eq_some_iff.mp hrun
      exact ih (h.step hstep) hrest

/-- The step function that refuses what the guard does not allow. -/
def guarded (guard : σ → ℓ → Prop) [∀ s l, Decidable (guard s l)] (step : σ → ℓ → Option σ)
    (s : σ) (l : ℓ) : Option σ :=
  if guard s l then step s l else none

theorem Steps.run_guarded {guard : σ → ℓ → Prop} [∀ s l, Decidable (guard s l)] {s t : σ}
    {ls : List ℓ} (hrun : System.run (guarded guard step) s ls = some t) :
    ((ofStep init step).restrict guard).Steps s t := by
  induction ls generalizing s with
  | nil =>
      obtain rfl : s = t := Option.some.inj hrun
      exact .refl
  | cons l ls ih =>
      obtain ⟨next, hstep, hrest⟩ := Option.bind_eq_some_iff.mp hrun
      by_cases hguard : guard s l
      · rw [guarded, if_pos hguard] at hstep
        exact .head ⟨l, hguard, hstep⟩ (ih hrest)
      · rw [guarded, if_neg hguard] at hstep
        cases hstep

theorem Reachable.run_guarded {guard : σ → ℓ → Prop} [∀ s l, Decidable (guard s l)] {s t : σ}
    {ls : List ℓ} (h : ((ofStep init step).restrict guard).Reachable s)
    (hrun : System.run (guarded guard step) s ls = some t) :
    ((ofStep init step).restrict guard).Reachable t :=
  h.imp fun _ => And.imp_right (·.trans (Steps.run_guarded hrun))

end System

end Maskura.Lib
