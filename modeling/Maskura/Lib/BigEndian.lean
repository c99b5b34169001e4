import Mathlib.Tactic.Ring

/-!
Fixed-width big-endian numbers over byte lists.
-/

namespace Maskura.Lib

/-- The `width` low-order bytes of `n`, most significant first. -/
def beBytes : (width : ℕ) → (n : ℕ) → List UInt8
  | 0, _ => []
  | width + 1, n => beBytes width (n / 256) ++ [UInt8.ofNat n]

/-- The number whose big-endian bytes are `bytes`. -/
def beNat (bytes : List UInt8) : ℕ :=
  bytes.foldl (fun acc byte => acc * 256 + byte.toNat) 0

@[simp] theorem length_beBytes (width n : ℕ) : (beBytes width n).length = width := by
  induction width generalizing n with
  | zero => rfl
  | succ width ih => simp [beBytes, ih]

theorem beNat_append_singleton (bytes : List UInt8) (byte : UInt8) :
    beNat (bytes ++ [byte]) = beNat bytes * 256 + byte.toNat := by
  simp [beNat]

/-- Reading back a fixed-width number loses only what does not fit. -/
theorem beNat_beBytes (width n : ℕ) : beNat (beBytes width n) = n % 256 ^ width := by
  induction width generalizing n with
  | zero => simp [beBytes, beNat, Nat.mod_one]
  | succ width ih =>
      rw [beBytes, beNat_append_singleton, ih, pow_succ, Nat.mul_comm (256 ^ width) 256,
        Nat.mod_mul]
      have hbyte : (UInt8.ofNat n).toNat = n % 256 := by simp
      rw [hbyte]
      ring

theorem beNat_beBytes_of_lt {width n : ℕ} (h : n < 256 ^ width) :
    beNat (beBytes width n) = n := by
  rw [beNat_beBytes, Nat.mod_eq_of_lt h]

end Maskura.Lib
