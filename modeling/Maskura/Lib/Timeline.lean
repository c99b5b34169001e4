import Mathlib.Data.List.Basic

/-!
Runs with numbered steps. A deterministic machine serves a list of inputs
from a fixed start; `At P run k` says that input `k` of the run had the
property `P` in the state that met it. What happened at an index does not
change when the run goes on, so a statement about all earlier indices is
proved by adding one input at the end.
-/

namespace Maskura.Lib.Timeline

universe u v

variable {σ : Type u} {ξ : Type v} {next : σ → ξ → σ} {start : σ}

/-- The state behind the inputs of a run. -/
def after (next : σ → ξ → σ) (start : σ) (run : List ξ) : σ := run.foldl next start

@[simp] theorem after_nil : after next start [] = start := rfl

@[simp] theorem after_concat (run : List ξ) (x : ξ) :
    after next start (run ++ [x]) = next (after next start run) x := by
  simp [after]

/-- Input `k` has the property, in the state that met it. -/
def At (next : σ → ξ → σ) (start : σ) (P : σ → ξ → Prop) (run : List ξ) (k : ℕ) : Prop :=
  ∃ x, run[k]? = some x ∧ P (after next start (run.take k)) x

variable {P : σ → ξ → Prop} {run : List ξ} {k : ℕ} {x : ξ}

theorem At.lt (h : At next start P run k) : k < run.length := by
  obtain ⟨x, hx, -⟩ := h
  exact (List.getElem?_eq_some_iff.mp hx).1

theorem at_concat :
    At next start P (run ++ [x]) k ↔
      At next start P run k ∨ k = run.length ∧ P (after next start run) x := by
  rcases Nat.lt_trichotomy k run.length with hlt | heq | hgt
  · have htake : (run ++ [x]).take k = run.take k := List.take_append_of_le_length (Nat.le_of_lt hlt)
    rw [At, At, List.getElem?_append_left hlt, htake]
    exact ⟨.inl, fun h => h.resolve_right fun hlast => absurd hlast.1 (Nat.ne_of_lt hlt)⟩
  · subst heq
    simp [At]
  · refine ⟨fun h => absurd h.lt ?_, ?_⟩
    · simp only [List.length_append, List.length_cons, List.length_nil]
      omega
    · rintro (h | ⟨rfl, -⟩)
      · exact absurd h.lt (Nat.lt_asymm hgt)
      · exact absurd hgt (Nat.lt_irrefl _)

/-- What happened stays at its index. -/
theorem At.concat (h : At next start P run k) : At next start P (run ++ [x]) k :=
  at_concat.mpr (.inl h)

theorem At.last (h : P (after next start run) x) : At next start P (run ++ [x]) run.length :=
  at_concat.mpr (.inr ⟨rfl, h⟩)

/-- An input without the property adds no index. -/
theorem at_concat_of_not (h : ¬P (after next start run) x) :
    At next start P (run ++ [x]) k ↔ At next start P run k := by
  rw [at_concat]
  exact or_iff_left fun hlast => h hlast.2

end Maskura.Lib.Timeline
