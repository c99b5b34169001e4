import Mathlib.Tactic.Ring

/-!
Numbers in base 128, lowest digits first. Every byte but the last has its high bit set.
-/

namespace Maskura.Lib.Varint

def Continues (byte : UInt8) : Prop := 128 ≤ byte.toNat

instance : DecidablePred Continues := fun byte => inferInstanceAs (Decidable (128 ≤ byte.toNat))

/-- The number that the bytes spell. -/
def spelled : List UInt8 → ℕ
  | [] => 0
  | byte :: bytes => byte.toNat % 128 + 128 * spelled bytes

/-- The bytes are one number: all but the last continue. -/
inductive IsVarint : List UInt8 → Prop
  | last {byte : UInt8} (h : ¬Continues byte) : IsVarint [byte]
  | more {byte : UInt8} {bytes : List UInt8} (h : Continues byte) (hrest : IsVarint bytes) :
      IsVarint (byte :: bytes)

theorem IsVarint.length_pos {bytes : List UInt8} (h : IsVarint bytes) : 0 < bytes.length := by
  cases h <;> exact Nat.succ_pos _

theorem isVarint_cons_iff {byte : UInt8} {bytes : List UInt8} :
    IsVarint (byte :: bytes) ↔
      ¬Continues byte ∧ bytes = [] ∨ Continues byte ∧ IsVarint bytes := by
  constructor
  · rintro (hlast | ⟨hbyte, hrest⟩)
    · exact .inl ⟨hlast, rfl⟩
    · exact .inr ⟨hbyte, hrest⟩
  · rintro (⟨hlast, rfl⟩ | ⟨hbyte, hrest⟩)
    · exact .last hlast
    · exact .more hbyte hrest

theorem IsVarint.eq_append {bytes : List UInt8} (h : IsVarint bytes) :
    ∃ init last, bytes = init ++ [last] ∧ (∀ byte ∈ init, Continues byte) ∧ ¬Continues last := by
  induction h with
  | last hlast => exact ⟨[], _, rfl, fun _ h => absurd h List.not_mem_nil, hlast⟩
  | @more byte bytes hbyte _ ih =>
      obtain ⟨init, last, rfl, hinit, hlast⟩ := ih
      exact ⟨byte :: init, last, rfl, List.forall_mem_cons.mpr ⟨hbyte, hinit⟩, hlast⟩

theorem isVarint_append {init : List UInt8} {last : UInt8} (hinit : ∀ byte ∈ init, Continues byte)
    (hlast : ¬Continues last) : IsVarint (init ++ [last]) := by
  induction init with
  | nil => exact .last hlast
  | cons byte init ih =>
      rw [List.forall_mem_cons] at hinit
      exact .more hinit.1 (ih hinit.2)

theorem spelled_lt (bytes : List UInt8) : spelled bytes < 128 ^ bytes.length := by
  induction bytes with
  | nil => exact Nat.one_pos
  | cons byte bytes ih =>
      rw [spelled, List.length_cons, Nat.pow_succ]
      omega

theorem spelled_append (bytes : List UInt8) (last : UInt8) :
    spelled (bytes ++ [last]) = spelled bytes + 128 ^ bytes.length * (last.toNat % 128) := by
  induction bytes with
  | nil => simp [spelled]
  | cons byte bytes ih =>
      rw [List.cons_append, spelled, ih, spelled, List.length_cons, Nat.pow_succ]
      ring

/-- A number of ten bytes has 64 bits exactly if its last byte is a bit. -/
theorem spelled_lt_two_pow_iff {init : List UInt8} {last : UInt8} (hlength : init.length ≤ 9)
    (hlast : ¬Continues last) :
    spelled (init ++ [last]) < 2 ^ 64 ↔ (init.length = 9 → last.toNat ≤ 1) := by
  have hlt := spelled_lt init
  rw [Continues, Nat.not_le] at hlast
  rw [spelled_append, Nat.mod_eq_of_lt hlast]
  obtain hnine | hless := hlength.eq_or_lt
  · rw [hnine] at hlt ⊢
    omega
  · have hpow : 128 ^ init.length ≤ 128 ^ 8 := Nat.pow_le_pow_right (by decide) (by omega)
    have hmul : 128 ^ init.length * last.toNat ≤ 128 ^ 8 * 127 :=
      Nat.mul_le_mul hpow (by omega)
    omega

/-! ### Payloads at a shift -/

theorem and_low (byte : UInt8) : (byte &&& 0x7F).toNat = byte.toNat % 128 := by
  rw [UInt8.toNat_and]
  exact Nat.and_two_pow_sub_one_eq_mod byte.toNat 7

theorem and_high_eq_zero_iff (byte : UInt8) : byte &&& 0x80 = 0 ↔ ¬Continues byte := by
  have hand : byte.toNat &&& 128 = byte.toNat / 128 * 128 := by
    have hall : ∀ i : Fin 256, i.val &&& 128 = i.val / 128 * 128 := by decide +kernel
    exact hall ⟨byte.toNat, byte.toNat_lt⟩
  rw [← UInt8.toNat_inj, UInt8.toNat_and, Continues]
  change byte.toNat &&& 128 = 0 ↔ _
  omega

theorem or_high {n : ℕ} (h : n < 128) : (UInt8.ofNat n ||| 0x80).toNat = n + 128 := by
  have hor := Nat.two_pow_add_eq_or_of_lt (i := 7) h 1
  rw [UInt8.toNat_or, UInt8.toNat_ofNat', Nat.mod_eq_of_lt (h.trans (by decide)), Nat.or_comm]
  exact hor.symm.trans (Nat.add_comm _ _)

/-- Bits above a number are added to it; those from 64 on are lost. -/
theorem or_shiftLeft {value digits shift : ℕ} (hvalue : value < 2 ^ shift) (hshift : shift < 64) :
    value ||| (digits <<< shift) % 2 ^ 64 = (value + digits * 2 ^ shift) % 2 ^ 64 := by
  obtain ⟨width, hwidth⟩ : ∃ width, 64 = shift + width := ⟨64 - shift, by omega⟩
  have hmod : (digits <<< shift) % 2 ^ 64 = 2 ^ shift * (digits % 2 ^ width) := by
    rw [Nat.shiftLeft_eq, hwidth, Nat.pow_add, Nat.mul_comm, Nat.mul_mod_mul_left]
  rw [hmod, Nat.or_comm, ← Nat.two_pow_add_eq_or_of_lt hvalue, hwidth, Nat.pow_add,
    Nat.add_comm value, Nat.mul_comm digits, Nat.mod_mul, Nat.mul_add_mod, Nat.mod_eq_of_lt hvalue,
    Nat.mul_add_div (Nat.two_pow_pos shift), Nat.div_eq_of_lt hvalue, Nat.add_zero, Nat.add_comm]

end Maskura.Lib.Varint
