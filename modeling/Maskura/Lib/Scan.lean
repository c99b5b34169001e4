import Mathlib.Order.Nat
import Mathlib.Tactic.Common

/-!
A scan over positions that records what it recognises and goes on behind it.
What it misses is what begins inside of something it has recorded.
-/

namespace Maskura.Lib.Scan

universe u

variable {τ : Type u}

/-- `while i < len`: what is recognised at `i` is recorded and the scan goes on
at its end; otherwise it goes on at the next position. -/
def scan (stop : τ → ℕ) (hit : ℕ → Option τ) (len : ℕ) : (fuel i : ℕ) → List τ
  | 0, _ => []
  | fuel + 1, i =>
      if i < len then
        match hit i with
        | some t => t :: scan stop hit len fuel (stop t)
        | none => scan stop hit len fuel (i + 1)
      else []

variable {stop : τ → ℕ} {hit : ℕ → Option τ} {len : ℕ}

/-- Everything recorded has been recognised somewhere. -/
theorem hit_of_mem_scan {fuel i : ℕ} {t : τ} (h : t ∈ scan stop hit len fuel i) :
    ∃ j, j < len ∧ hit j = some t := by
  induction fuel generalizing i with
  | zero => simp [scan] at h
  | succ fuel ih =>
      rw [scan] at h
      split at h
      next hi =>
        split at h
        next u hu =>
          rcases List.mem_cons.mp h with rfl | h
          · exact ⟨i, hi, hu⟩
          · exact ih h
        next => exact ih h
      next => simp at h

/-- What is recognised at a position is recorded unless the position lies inside
of something recorded before. The fuel only has to reach the end. -/
theorem mem_scan_or_skipped (hprogress : ∀ i t, hit i = some t → i < stop t) {fuel i j : ℕ}
    (hfuel : len ≤ i + fuel) (hij : i ≤ j) (hj : j < len) {t : τ} (ht : hit j = some t) :
    t ∈ scan stop hit len fuel i ∨
      ∃ k u, k < j ∧ hit k = some u ∧ j < stop u ∧ u ∈ scan stop hit len fuel i := by
  induction fuel generalizing i with
  | zero => omega
  | succ fuel ih =>
      rw [scan, if_pos (by omega)]
      cases hi : hit i with
      | none =>
          have hne : i ≠ j := by rintro rfl; simp [hi] at ht
          exact ih (by omega) (by omega)
      | some u =>
          have hgo := hprogress i u hi
          rcases Nat.eq_or_lt_of_le hij with rfl | hlt
          · rw [hi, Option.some.injEq] at ht
            exact .inl (ht ▸ List.mem_cons_self)
          · rcases Nat.lt_or_ge j (stop u) with hin | hout
            · exact .inr ⟨i, u, hlt, hi, hin, List.mem_cons_self⟩
            · rcases ih (by omega) hout with h | ⟨k, v, hk, hv, hjv, hmem⟩
              · exact .inl (List.mem_cons_of_mem _ h)
              · exact .inr ⟨k, v, hk, hv, hjv, List.mem_cons_of_mem _ hmem⟩

end Maskura.Lib.Scan
