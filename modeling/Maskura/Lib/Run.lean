import Mathlib.Data.List.TakeDrop
import Mathlib.Order.Nat

/-!
Maximal runs of a sequence: walking backwards and forwards from a position while
a predicate holds, and what the two walks delimit.
-/

namespace Maskura.Lib.Run

universe u

variable {α : Type u}

/-- The element at `k` exists and satisfies `p`. -/
def holdsAt (p : α → Bool) (x : List α) (k : ℕ) : Bool := x[k]?.any p

/-- `while low < e && p(x[e - 1]) { e -= 1 }`. -/
def backWhile (p : α → Bool) (x : List α) (low : ℕ) : ℕ → ℕ
  | 0 => 0
  | e + 1 => if low ≤ e ∧ holdsAt p x e = true then backWhile p x low e else e + 1

/-- `while s < stop && p(x[s]) { s += 1 }`. -/
def onWhile (p : α → Bool) (x : List α) (stop s : ℕ) : ℕ :=
  s + (((x.take stop).drop s).takeWhile p).length

/-- The part of a sequence from `a` up to `b`. -/
def slice (x : List α) (a b : ℕ) : List α := (x.take b).drop a

/-- `[a, b)` is a nonempty run of `p` that cannot be extended on either side. -/
structure IsRun (p : α → Bool) (x : List α) (a b : ℕ) : Prop where
  lt : a < b
  holds : ∀ k, a ≤ k → k < b → holdsAt p x k = true
  left : ∀ k, k + 1 = a → holdsAt p x k = false
  right : holdsAt p x b = false

variable {p q : α → Bool} {x : List α}

theorem holdsAt_eq_true {k : ℕ} : holdsAt p x k = true ↔ ∃ c, x[k]? = some c ∧ p c = true := by
  rw [holdsAt, Option.any_eq_true]

theorem holdsAt_lt {k : ℕ} (h : holdsAt p x k = true) : k < x.length := by
  obtain ⟨c, hc, -⟩ := holdsAt_eq_true.mp h
  exact (List.getElem?_eq_some_iff.mp hc).1

theorem holdsAt_mono {k : ℕ} (hpq : ∀ c, p c = true → q c = true) (h : holdsAt p x k = true) :
    holdsAt q x k = true := by
  obtain ⟨c, hc, hp⟩ := holdsAt_eq_true.mp h
  exact holdsAt_eq_true.mpr ⟨c, hc, hpq c hp⟩

/-- Two predicates that exclude each other do not hold at one place. -/
theorem not_holdsAt_of_disjoint {k : ℕ} (hpq : ∀ c, p c = true → q c = false)
    (h : holdsAt p x k = true) : holdsAt q x k = false := by
  obtain ⟨c, hc, hp⟩ := holdsAt_eq_true.mp h
  simp [holdsAt, hc, hpq c hp]

theorem holdsAt_not {k : ℕ} (hk : k < x.length) :
    holdsAt (fun c => !p c) x k = !holdsAt p x k := by
  simp [holdsAt, List.getElem?_eq_getElem hk]

theorem length_slice {a b : ℕ} : (slice x a b).length = min b x.length - a := by
  simp [slice]

theorem getElem?_slice {a b k : ℕ} (hk : k < b - a) : (slice x a b)[k]? = x[a + k]? := by
  rw [slice, List.getElem?_drop, List.getElem?_take, if_pos (by omega)]

theorem slice_append_slice {a b c : ℕ} (hab : a ≤ b) (hbc : b ≤ c) :
    slice x a b ++ slice x b c = slice x a c := by
  have hcut : x.take b = (x.take c).take b := by rw [List.take_take, min_eq_left hbc]
  rw [slice, slice, slice, hcut]
  conv_rhs => rw [← List.take_append_drop b (x.take c), List.drop_append]
  rcases le_total b (x.take c).length with hlen | hlen
  · rw [List.length_take_of_le hlen, Nat.sub_eq_zero_of_le hab, List.drop_zero]
  · rw [List.drop_of_length_le hlen, List.drop_nil]

theorem mem_slice {a b : ℕ} {c : α} :
    c ∈ slice x a b ↔ ∃ k, a ≤ k ∧ k < b ∧ x[k]? = some c := by
  rw [List.mem_iff_getElem?]
  constructor
  · rintro ⟨i, hi⟩
    have hlt : i < b - a := by
      have := (List.getElem?_eq_some_iff.mp hi).1
      rw [length_slice] at this
      omega
    exact ⟨a + i, by omega, by omega, (getElem?_slice hlt).symm.trans hi⟩
  · rintro ⟨k, hak, hkb, hk⟩
    refine ⟨k - a, ?_⟩
    rw [getElem?_slice (by omega), show a + (k - a) = k by omega, hk]

/-! ### The backward walk -/

theorem backWhile_le (low e : ℕ) : backWhile p x low e ≤ e := by
  induction e with
  | zero => exact le_rfl
  | succ e ih =>
      rw [backWhile]
      split
      · omega
      · exact le_rfl

theorem holdsAt_of_backWhile_le {low e k : ℕ} (hk : backWhile p x low e ≤ k) (hke : k < e) :
    holdsAt p x k = true := by
  induction e with
  | zero => omega
  | succ e ih =>
      rw [backWhile] at hk
      split at hk
      next hgo =>
        by_cases hlast : k = e
        · exact hlast ▸ hgo.2
        · exact ih hk (by omega)
      · omega

theorem backWhile_stops {low e k : ℕ} (hk : k + 1 = backWhile p x low e) (hlow : low ≤ k) :
    holdsAt p x k = false := by
  induction e with
  | zero => simp [backWhile] at hk
  | succ e ih =>
      rw [backWhile] at hk
      split at hk
      · exact ih hk
      next hstop =>
        obtain rfl : k = e := by omega
        exact Bool.eq_false_iff.mpr fun hp => hstop ⟨hlow, hp⟩

/-! ### The forward walk -/

theorem le_onWhile (stop s : ℕ) : s ≤ onWhile p x stop s := by
  rw [onWhile]; omega

theorem onWhile_le {stop s : ℕ} (h : s ≤ stop) : onWhile p x stop s ≤ stop := by
  have hlen := (List.takeWhile_prefix p (l := (x.take stop).drop s)).length_le
  rw [List.length_drop, List.length_take] at hlen
  rw [onWhile]
  omega

private theorem getElem?_rest {stop s k : ℕ} (h : s + k < stop) :
    ((x.take stop).drop s)[k]? = x[s + k]? := by
  rw [List.getElem?_drop, List.getElem?_take, if_pos h]

theorem holdsAt_of_lt_onWhile {stop s k : ℕ} (hs : s ≤ k) (hk : k < onWhile p x stop s) :
    holdsAt p x k = true := by
  rw [onWhile] at hk
  have hi : k - s < (((x.take stop).drop s).takeWhile p).length := by omega
  have hp : p (((x.take stop).drop s).takeWhile p)[k - s] = true :=
    List.all_eq_true.mp (List.all_takeWhile) _ (List.getElem_mem hi)
  have hpre := List.takeWhile_prefix p (l := (x.take stop).drop s)
  have hlen := hpre.length_le
  rw [List.length_drop, List.length_take] at hlen
  rw [hpre.getElem hi] at hp
  refine holdsAt_eq_true.mpr ⟨_, ?_, hp⟩
  rw [← List.getElem?_eq_getElem, getElem?_rest (by omega), show s + (k - s) = k by omega]

theorem onWhile_stops {stop s : ℕ} (h : onWhile p x stop s < stop) :
    holdsAt p x (onWhile p x stop s) = false := by
  rw [Bool.eq_false_iff]
  intro hp
  obtain ⟨c, hc, hpc⟩ := holdsAt_eq_true.mp hp
  rw [onWhile] at h hc
  set rest := (x.take stop).drop s with hrest
  rw [← getElem?_rest h, ← hrest] at hc
  have hsplit : rest = rest.takeWhile p ++ rest.dropWhile p :=
    (List.takeWhile_append_dropWhile).symm
  rw [hsplit, List.getElem?_append_right (by simp)] at hc
  simp only [List.takeWhile_append_dropWhile, Nat.sub_self] at hc
  have hne : rest.dropWhile p ≠ [] := by
    rintro hnil
    simp [hnil] at hc
  have hhead := List.head_dropWhile_not p hne
  rw [← List.head?_eq_getElem?, List.head?_eq_some_head hne, Option.some.injEq] at hc
  rw [hc, hpc] at hhead
  exact absurd hhead (by simp)

/-- One step of the forward walk. -/
theorem onWhile_step {stop s : ℕ} (hs : s < stop) (h : holdsAt p x s = true) :
    onWhile p x stop s = onWhile p x stop (s + 1) := by
  obtain ⟨c, hc, hp⟩ := holdsAt_eq_true.mp h
  have hlt : s < (x.take stop).length := by
    have := holdsAt_lt h
    rw [List.length_take]
    omega
  have hget : (x.take stop)[s] = c := by
    rw [List.getElem_take]
    exact (List.getElem?_eq_some_iff.mp hc).2
  rw [onWhile, onWhile, List.drop_eq_getElem_cons hlt, hget, List.takeWhile_cons_of_pos hp,
    List.length_cons]
  omega

theorem onWhile_of_not {stop s : ℕ} (h : holdsAt p x s = false) : onWhile p x stop s = s := by
  refine le_antisymm (Nat.le_of_not_lt fun hlt => ?_) (le_onWhile stop s)
  rw [holdsAt_of_lt_onWhile le_rfl hlt] at h
  cases h

/-! ### Runs -/

/-- The forward walk leaves a place where `p` holds. -/
theorem lt_onWhile {k : ℕ} (h : holdsAt p x k = true) : k < onWhile p x x.length k := by
  by_contra hge
  have heq : onWhile p x x.length k = k := le_antisymm (by omega) (le_onWhile _ _)
  have hstop : holdsAt p x (onWhile p x x.length k) = false :=
    onWhile_stops (heq.symm ▸ holdsAt_lt h)
  rw [heq, h] at hstop
  exact absurd hstop (by simp)

/-- The two walks from a place where `p` holds delimit the run around it. -/
theorem isRun_at {k : ℕ} (h : holdsAt p x k = true) :
    IsRun p x (backWhile p x 0 k) (onWhile p x x.length k) := by
  have hlt := lt_onWhile h
  refine ⟨lt_of_le_of_lt (backWhile_le 0 k) hlt, fun j hj hje => ?_, fun j hj => ?_, ?_⟩
  · by_cases hjk : j < k
    · exact holdsAt_of_backWhile_le hj hjk
    · exact holdsAt_of_lt_onWhile (by omega) hje
  · exact backWhile_stops hj (Nat.zero_le _)
  · rcases lt_or_ge (onWhile p x x.length k) x.length with hin | hout
    · exact onWhile_stops hin
    · exact Bool.eq_false_iff.mpr fun hp => by have := holdsAt_lt hp; omega

namespace IsRun

variable {a b a' b' : ℕ}

theorem le_length (h : IsRun p x a b) : b ≤ x.length := by
  have := holdsAt_lt (h.holds (b - 1) (by have := h.lt; omega) (by have := h.lt; omega))
  omega

/-- Where a stretch of `p` meets a run it lies in it. -/
theorem contains (h : IsRun p x a b) {c d : ℕ}
    (hall : ∀ k, c ≤ k → k < d → holdsAt p x k = true) (hcb : c < b) (had : a < d) :
    a ≤ c ∧ d ≤ b := by
  constructor
  · by_contra hca
    have hleft := h.left (a - 1) (by omega)
    rw [hall (a - 1) (by omega) (by omega)] at hleft
    exact absurd hleft (by simp)
  · by_contra hdb
    have hright := h.right
    rw [hall b (by omega) (by omega)] at hright
    exact absurd hright (by simp)

/-- Two runs that meet are the same. -/
theorem unique (h : IsRun p x a b) (h' : IsRun p x a' b') (hab : a < b') (hba : a' < b) :
    a = a' ∧ b = b' := by
  obtain ⟨h₁, h₂⟩ := h.contains h'.holds hba hab
  obtain ⟨h₃, h₄⟩ := h'.contains h.holds hab hba
  omega

end IsRun

end Maskura.Lib.Run
