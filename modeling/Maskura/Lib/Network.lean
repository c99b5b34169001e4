import Mathlib.Algebra.Order.Ring.Nat

/-!
Blocks of addresses: all addresses of a width that share a leading part. Two
blocks are nested or disjoint, and which of them it is can be read off the
shorter leading part alone.
-/

namespace Maskura.Lib

variable {w : ℕ}

/-- The addresses that agree with `network` in their first `length` bits. -/
structure Block (w : ℕ) where
  network : BitVec w
  length : ℕ
  length_le : length ≤ w := by decide

def Block.contains (block : Block w) (ip : BitVec w) : Bool :=
  ip >>> (w - block.length) == block.network >>> (w - block.length)

/-- Every address of `inner` is one of `block`. -/
def Block.covers (block inner : Block w) : Bool :=
  block.length ≤ inner.length && block.contains inner.network

/-- No address is in both blocks. -/
def Block.disjoint (a b : Block w) : Bool :=
  if a.length ≤ b.length then !a.contains b.network else !b.contains a.network

theorem Block.contains_iff {block : Block w} {ip : BitVec w} :
    block.contains ip = true ↔
      ip.toNat / 2 ^ (w - block.length) = block.network.toNat / 2 ^ (w - block.length) := by
  rw [Block.contains, beq_iff_eq, ← BitVec.toNat_inj, BitVec.toNat_ushiftRight,
    BitVec.toNat_ushiftRight, Nat.shiftRight_eq_div_pow, Nat.shiftRight_eq_div_pow]

/-- A shorter leading part is the same for two addresses that share a longer one. -/
theorem Block.contains_congr {a b : Block w} {ip : BitVec w} (hle : a.length ≤ b.length)
    (hb : b.contains ip = true) : a.contains ip = a.contains b.network := by
  rw [Bool.eq_iff_iff, Block.contains_iff, Block.contains_iff]
  have hsplit : 2 ^ (w - a.length) = 2 ^ (w - b.length) * 2 ^ (b.length - a.length) := by
    rw [← Nat.pow_add]
    congr 1
    have := b.length_le
    omega
  rw [hsplit, ← Nat.div_div_eq_div_mul, ← Nat.div_div_eq_div_mul, Block.contains_iff.1 hb,
    Nat.div_div_eq_div_mul]

theorem Block.contains_of_covers {block inner : Block w} {ip : BitVec w}
    (h : block.covers inner = true) (hip : inner.contains ip = true) :
    block.contains ip = true := by
  rw [Block.covers, Bool.and_eq_true, decide_eq_true_iff] at h
  rw [Block.contains_congr h.1 hip]
  exact h.2

theorem Block.not_contains_of_disjoint {a b : Block w} {ip : BitVec w}
    (h : a.disjoint b = true) (ha : a.contains ip = true) : b.contains ip = false := by
  by_contra hb
  rw [Bool.not_eq_false] at hb
  rw [Block.disjoint] at h
  split at h
  case isTrue hle => simp [← Block.contains_congr hle hb, ha] at h
  case isFalse hle => simp [← Block.contains_congr (Nat.le_of_not_le hle) ha, hb] at h

/-- The address is in one of the blocks. -/
def inRanges (ip : BitVec w) (ranges : List (Block w)) : Bool :=
  ranges.any (·.contains ip)

theorem inRanges_of_covers {block : Block w} {ranges : List (Block w)} {ip : BitVec w}
    (h : ranges.any (·.covers block) = true) (hip : block.contains ip = true) :
    inRanges ip ranges = true := by
  obtain ⟨outer, hmem, hcovers⟩ := List.any_eq_true.1 h
  exact List.any_eq_true.2 ⟨outer, hmem, Block.contains_of_covers hcovers hip⟩

theorem not_inRanges_of_disjoint {block : Block w} {ranges : List (Block w)} {ip : BitVec w}
    (h : ranges.all (block.disjoint ·) = true) (hip : block.contains ip = true) :
    inRanges ip ranges = false := by
  rw [inRanges, List.any_eq_false]
  intro other hmem
  rw [Block.not_contains_of_disjoint (List.all_eq_true.1 h other hmem) hip]
  exact Bool.false_ne_true

end Maskura.Lib
