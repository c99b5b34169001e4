import Maskura.Lib.Run
import Maskura.Lib.Scan
import Mathlib.Data.List.Sort

/-!
A sequence that is cut in two at an element. Walks that stop at the element see
one part only, and a scan that recognises nothing across the element finds what
the scans of the two parts find.
-/

namespace Maskura.Lib.Cut

open Run Scan

universe u

variable {α : Type u} {p : α → Bool} {a b : List α} {c : α}

/-! ### Walks -/

theorem holdsAt_left {k : ℕ} (hk : k < a.length) (y : List α) :
    holdsAt p (a ++ y) k = holdsAt p a k := by
  rw [holdsAt, holdsAt, List.getElem?_append_left hk]

theorem holdsAt_cut : holdsAt p (a ++ c :: b) a.length = p c := by
  simp [holdsAt]

theorem holdsAt_right (k : ℕ) : holdsAt p (a ++ c :: b) (a.length + 1 + k) = holdsAt p b k := by
  rw [holdsAt, holdsAt, List.getElem?_append_right (by omega)]
  have hindex : a.length + 1 + k - a.length = k + 1 := by omega
  rw [hindex, List.getElem?_cons_succ]

theorem slice_left {s e : ℕ} (he : e ≤ a.length) (y : List α) : slice (a ++ y) s e = slice a s e := by
  rw [slice, slice, List.take_append_of_le_length he]

theorem slice_right (s e : ℕ) :
    slice (a ++ c :: b) (a.length + 1 + s) (a.length + 1 + e) = slice b s e := by
  have happ : a ++ c :: b = (a ++ [c]) ++ b := by simp
  have hlen : (a ++ [c]).length = a.length + 1 := by simp
  rw [slice, slice, happ, ← hlen, List.take_length_add_append, List.drop_length_add_append]

theorem slice_across {s : ℕ} (hs : s ≤ a.length) (e : ℕ) :
    slice (a ++ c :: b) s (a.length + 1 + e) = slice a s a.length ++ c :: slice b 0 e := by
  have hleft : slice (a ++ c :: b) s a.length = slice a s a.length := slice_left le_rfl _
  have hmiddle : slice (a ++ c :: b) a.length (a.length + 1) = [c] := by
    simp [slice, List.take_append]
  have hright : slice (a ++ c :: b) (a.length + 1) (a.length + 1 + e) = slice b 0 e := slice_right 0 e
  rw [← slice_append_slice hs (show a.length ≤ a.length + 1 + e by omega),
    ← slice_append_slice (show a.length ≤ a.length + 1 by omega) (Nat.le_add_right _ e), hleft,
    hmiddle, hright]
  rfl

theorem backWhile_left {low e : ℕ} (he : e ≤ a.length) (y : List α) :
    backWhile p (a ++ y) low e = backWhile p a low e := by
  induction e with
  | zero => rfl
  | succ e ih => rw [backWhile, backWhile, holdsAt_left he, ih (by omega)]

theorem backWhile_right (low e : ℕ) :
    backWhile p (a ++ c :: b) (a.length + 1 + low) (a.length + 1 + e) =
      a.length + 1 + backWhile p b low e := by
  induction e with
  | zero =>
      change backWhile p (a ++ c :: b) _ (a.length + 1) = a.length + 1
      rw [backWhile, if_neg (by omega)]
  | succ e ih =>
      rw [← Nat.add_assoc, backWhile, backWhile, holdsAt_right, ih]
      by_cases h : low ≤ e ∧ holdsAt p b e = true
      · rw [if_pos h, if_pos ⟨by omega, h.2⟩]
      · rw [if_neg h, if_neg fun h' => h ⟨by omega, h'.2⟩]
        omega

/-- The walk back stops behind the cut. -/
theorem backWhile_stops_at_cut (hc : p c = false) (e : ℕ) :
    backWhile p (a ++ c :: b) 0 (a.length + 1 + e) = a.length + 1 + backWhile p b 0 e := by
  induction e with
  | zero =>
      change backWhile p (a ++ c :: b) 0 (a.length + 1) = a.length + 1
      rw [backWhile, holdsAt_cut, if_neg (by simp [hc])]
  | succ e ih =>
      rw [← Nat.add_assoc, backWhile, backWhile, holdsAt_right, ih]
      by_cases h : 0 ≤ e ∧ holdsAt p b e = true
      · rw [if_pos h, if_pos ⟨by omega, h.2⟩]
      · rw [if_neg h, if_neg fun h' => h ⟨by omega, h'.2⟩]
        omega

theorem onWhile_left {stop s : ℕ} (hstop : stop ≤ a.length) (y : List α) :
    onWhile p (a ++ y) stop s = onWhile p a stop s := by
  rw [onWhile, onWhile, List.take_append_of_le_length hstop]

theorem onWhile_right (stop s : ℕ) :
    onWhile p (a ++ c :: b) (a.length + 1 + stop) (a.length + 1 + s) =
      a.length + 1 + onWhile p b stop s := by
  have hrest := slice_right (a := a) (b := b) (c := c) s stop
  rw [slice, slice] at hrest
  rw [onWhile, onWhile, hrest]
  omega

/-- The walk on stops at the cut. -/
theorem onWhile_stops_at_cut (hc : p c = false) {s : ℕ} (hs : s ≤ a.length) :
    onWhile p (a ++ c :: b) (a ++ c :: b).length s = onWhile p a a.length s := by
  rw [onWhile, onWhile, List.take_length, List.take_length, List.drop_append_of_le_length hs]
  congr 1
  rw [List.takeWhile_append]
  split
  next hall => simpa [hc] using hall.symm
  next => rfl

/-! ### Scans -/

section Scans

variable {τ : Type u} {stop : τ → ℕ} {hit hit' : ℕ → Option τ} {len m : ℕ}

/-- Fuel that reaches the end is enough. -/
theorem scan_fuel (hprogress : ∀ i t, hit i = some t → i < stop t) {fuel fuel' i : ℕ}
    (hfuel : len ≤ i + fuel) (hfuel' : len ≤ i + fuel') :
    scan stop hit len fuel i = scan stop hit len fuel' i := by
  induction fuel generalizing fuel' i with
  | zero =>
      cases fuel' with
      | zero => rfl
      | succ fuel' => rw [scan, scan, if_neg (by omega)]
  | succ fuel ih =>
      cases fuel' with
      | zero => rw [scan, scan, if_neg (by omega)]
      | succ fuel' =>
          rw [scan, scan]
          split
          · cases hi : hit i with
            | none => exact ih (by omega) (by omega)
            | some t =>
                have := hprogress i t hi
                exact congrArg (t :: ·) (ih (by omega) (by omega))
          · rfl

/-- A scan of shifted positions finds the shifted things. -/
theorem scan_shift {n : ℕ} {shift : τ → τ} (hhit : ∀ j, hit (n + j) = (hit' j).map shift)
    (hstop : ∀ t, stop (shift t) = n + stop t) (fuel j : ℕ) :
    scan stop hit (n + len) fuel (n + j) = (scan stop hit' len fuel j).map shift := by
  induction fuel generalizing j with
  | zero => rfl
  | succ fuel ih =>
      rw [scan, scan, hhit]
      by_cases hj : j < len
      · rw [if_pos hj, if_pos (by omega)]
        cases hit' j with
        | none => exact ih (j + 1)
        | some t =>
            change shift t :: scan stop hit (n + len) fuel (stop (shift t)) = _
            rw [hstop, ih]
            rfl
      · rw [if_neg hj, if_neg (by omega)]
        rfl

/-- A scan that does not pass over `m` is a scan up to `m` and one from there. -/
theorem scan_append (hprogress : ∀ i t, hit i = some t → i < stop t)
    (hsame : ∀ i, i < m → hit i = hit' i) (hwithin : ∀ i t, i < m → hit i = some t → stop t ≤ m)
    (hm : m ≤ len) {fuel fuel' fuel'' i : ℕ} (him : i ≤ m) (hfuel : len ≤ i + fuel)
    (hfuel' : m ≤ i + fuel') (hfuel'' : len ≤ m + fuel'') :
    scan stop hit len fuel i = scan stop hit' m fuel' i ++ scan stop hit len fuel'' m := by
  induction fuel' generalizing fuel i with
  | zero =>
      obtain rfl : i = m := by omega
      exact scan_fuel hprogress hfuel hfuel''
  | succ fuel' ih =>
      by_cases hi : i < m
      · cases fuel with
        | zero => omega
        | succ fuel =>
            rw [scan, scan, if_pos (by omega), if_pos hi, ← hsame i hi]
            cases hhit : hit i with
            | none => exact ih (by omega) (by omega) (by omega)
            | some t =>
                have := hprogress i t hhit
                have := hwithin i t hi hhit
                exact congrArg (t :: ·) (ih (by omega) (by omega) (by omega))
      · obtain rfl : i = m := by omega
        rw [scan, if_neg (lt_irrefl i)]
        exact scan_fuel hprogress hfuel hfuel''

end Scans

/-! ### Sorting -/

section Sorting

variable {r : α → α → Prop} [DecidableRel r]

theorem orderedInsert_append {x : α} {later : List α} (h : ∀ y ∈ later, r x y) (l : List α) :
    (l ++ later).orderedInsert r x = l.orderedInsert r x ++ later := by
  induction l with
  | nil =>
      cases later with
      | nil => rfl
      | cons y later => simp [h y List.mem_cons_self]
  | cons y l ih =>
      rw [List.cons_append, List.orderedInsert_cons, List.orderedInsert_cons]
      split
      · rfl
      · rw [ih, List.cons_append]

/-- What comes before everything else is sorted by itself. -/
theorem insertionSort_append {earlier later : List α} (h : ∀ x ∈ earlier, ∀ y ∈ later, r x y) :
    (earlier ++ later).insertionSort r = earlier.insertionSort r ++ later.insertionSort r := by
  induction earlier with
  | nil => rfl
  | cons x earlier ih =>
      obtain ⟨hx, hrest⟩ := List.forall_mem_cons.mp h
      rw [List.cons_append, List.insertionSort_cons, List.insertionSort_cons, ih hrest]
      exact orderedInsert_append (fun y hy => hx y ((List.mem_insertionSort r).mp hy)) _

end Sorting

end Maskura.Lib.Cut
