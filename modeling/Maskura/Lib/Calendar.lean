import Mathlib.Algebra.Order.Ring.Int

/-!
The Gregorian calendar as a walk from one date to the next, and functions that count
the days of that walk.
-/

namespace Maskura.Lib

@[ext]
structure Date where
  year : ℕ
  month : ℕ
  day : ℕ
  deriving DecidableEq, Repr

namespace Date

def daysInMonth (year : ℕ) : ℕ → ℕ
  | 2 => if 4 ∣ year ∧ ¬100 ∣ year ∨ 400 ∣ year then 29 else 28
  | 4 | 6 | 9 | 11 => 30
  | _ => 31

theorem daysInMonth_bounds (year month : ℕ) :
    28 ≤ daysInMonth year month ∧ daysInMonth year month ≤ 31 := by
  unfold daysInMonth
  split
  · split <;> decide
  all_goals decide

structure Valid (date : Date) : Prop where
  month : 1 ≤ date.month ∧ date.month ≤ 12
  day : 1 ≤ date.day ∧ date.day ≤ daysInMonth date.year date.month

/-- The day after. -/
def next (date : Date) : Date :=
  if date.day < daysInMonth date.year date.month then { date with day := date.day + 1 }
  else if date.month < 12 then ⟨date.year, date.month + 1, 1⟩
  else ⟨date.year + 1, 1, 1⟩

theorem next_cases (date : Date) :
    (date.day < daysInMonth date.year date.month ∧
      date.next = ⟨date.year, date.month, date.day + 1⟩) ∨
    (daysInMonth date.year date.month ≤ date.day ∧ date.month < 12 ∧
      date.next = ⟨date.year, date.month + 1, 1⟩) ∨
    (daysInMonth date.year date.month ≤ date.day ∧ 12 ≤ date.month ∧
      date.next = ⟨date.year + 1, 1, 1⟩) := by
  unfold next
  split
  · exact .inl ⟨‹_›, rfl⟩
  · split
    · exact .inr (.inl ⟨Nat.le_of_not_lt ‹_›, ‹_›, rfl⟩)
    · exact .inr (.inr ⟨Nat.le_of_not_lt ‹_›, Nat.le_of_not_lt ‹_›, rfl⟩)

theorem Valid.next {date : Date} (h : date.Valid) : date.next.Valid := by
  obtain ⟨hlt, hnext⟩ | ⟨-, hmonth, hnext⟩ | ⟨-, -, hnext⟩ := next_cases date <;> rw [hnext]
  · exact ⟨h.month, Nat.le_add_left 1 _, hlt⟩
  · exact ⟨⟨Nat.le_add_left 1 _, hmonth⟩, le_rfl, Nat.one_le_of_lt (daysInMonth_bounds _ _).1⟩
  · exact ⟨⟨le_rfl, Nat.le_add_left 1 11⟩, le_rfl, Nat.one_le_of_lt (daysInMonth_bounds _ _).1⟩

theorem Valid.iterate_next {date : Date} (h : date.Valid) (n : ℕ) : (Date.next^[n] date).Valid := by
  induction n with
  | zero => exact h
  | succ n ih =>
      rw [Function.iterate_succ_apply']
      exact ih.next

/-! ### The order of dates -/

/-- Year, month and day in one number. -/
def key (date : Date) : ℕ := (date.year * 16 + date.month) * 32 + date.day

theorem key_injective {date other : Date} (h : date.Valid) (h' : other.Valid)
    (hkey : date.key = other.key) : date = other := by
  have hday := (daysInMonth_bounds date.year date.month).2
  have hday' := (daysInMonth_bounds other.year other.month).2
  obtain ⟨hm, hd⟩ := h
  obtain ⟨hm', hd'⟩ := h'
  unfold key at hkey
  ext <;> omega

theorem key_lt_key_next {date : Date} (h : date.Valid) : date.key < date.next.key := by
  have hday := (daysInMonth_bounds date.year date.month).2
  obtain ⟨hm, hd⟩ := h
  obtain ⟨-, hnext⟩ | ⟨-, -, hnext⟩ | ⟨-, -, hnext⟩ := next_cases date <;>
    simp only [hnext, key] <;> omega

/-- No date lies between a date and the next. -/
theorem key_next_le {date other : Date} (h : date.Valid) (h' : other.Valid)
    (hlt : date.key < other.key) : date.next.key ≤ other.key := by
  have hday := (daysInMonth_bounds date.year date.month).2
  have hday' := (daysInMonth_bounds other.year other.month).2
  obtain ⟨hm, hd⟩ := h
  obtain ⟨hm', hd'⟩ := h'
  -- in the month of `date` a later day is at most the last one
  have hmonth : date.year = other.year → date.month = other.month →
      other.day ≤ daysInMonth date.year date.month := fun hy hm => hy ▸ hm ▸ hd'.2
  unfold key at hlt
  obtain ⟨-, hnext⟩ | ⟨hlast, -, hnext⟩ | ⟨hlast, hyear, hnext⟩ := next_cases date <;>
    simp only [hnext, key] <;> omega

theorem exists_iterate_next {date other : Date} (h : date.Valid) (h' : other.Valid)
    (hle : date.key ≤ other.key) : ∃ n, Date.next^[n] date = other := by
  induction hgap : other.key - date.key using Nat.strongRecOn generalizing date with
  | _ gap ih =>
      obtain heq | hlt := hle.eq_or_lt
      · exact ⟨0, key_injective h h' heq⟩
      · have hstep := key_lt_key_next h
        obtain ⟨n, hn⟩ := ih (other.key - date.next.key) (by omega) h.next
          (key_next_le h h' hlt) rfl
        exact ⟨n + 1, hn⟩

/-! ### Counting days -/

section Count

variable {count : Date → ℤ} (hcount : ∀ date : Date, date.Valid → count date.next = count date + 1)

include hcount

theorem count_iterate_next {date : Date} (h : date.Valid) (n : ℕ) :
    count (Date.next^[n] date) = count date + n := by
  induction n with
  | zero => exact (Int.add_zero _).symm
  | succ n ih =>
      rw [Function.iterate_succ_apply', hcount _ (h.iterate_next n), ih]
      omega

theorem count_le_count {date other : Date} (h : date.Valid) (h' : other.Valid)
    (hle : date.key ≤ other.key) : count date ≤ count other := by
  obtain ⟨n, rfl⟩ := exists_iterate_next h h' hle
  rw [count_iterate_next hcount h]
  omega

theorem count_lt_count_iff {date other : Date} (h : date.Valid) (h' : other.Valid) :
    count date < count other ↔ date.key < other.key := by
  constructor
  · intro hlt
    by_contra hge
    exact absurd (count_le_count hcount h' h (Nat.le_of_not_lt hge)) (not_le.mpr hlt)
  · intro hlt
    have hnext := count_le_count hcount h.next h' (key_next_le h h' hlt)
    rw [hcount date h] at hnext
    omega

/-- The days of the walk from one date to another are what the count has gained. -/
theorem iterate_next_eq_iff {date other : Date} (h : date.Valid) (h' : other.Valid) (n : ℕ) :
    Date.next^[n] date = other ↔ count other = count date + n := by
  rw [← count_iterate_next hcount h n]
  constructor
  · rintro rfl
    rfl
  · intro heq
    have hvalid := h.iterate_next n
    refine key_injective hvalid h' (Nat.le_antisymm (Nat.le_of_not_lt fun hlt => ?_)
      (Nat.le_of_not_lt fun hlt => ?_))
    · exact absurd heq ((count_lt_count_iff hcount h' hvalid).mpr hlt).ne
    · exact absurd heq ((count_lt_count_iff hcount hvalid h').mpr hlt).ne'

end Count

end Date

end Maskura.Lib
