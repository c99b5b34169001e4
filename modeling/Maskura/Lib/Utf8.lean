import Mathlib.Data.List.Basic
import Mathlib.Order.Nat

/-!
Well-formed UTF-8, and where such a text may be cut: next to an ASCII byte it
always may.
-/

namespace Maskura.Lib.Utf8

/-- `std::str::from_utf8` accepts the bytes. -/
def isUtf8 (bytes : List UInt8) : Bool := (ByteArray.mk bytes.toArray).validateUTF8

/-- The byte continues a character. -/
def isContinuation (byte : UInt8) : Bool := 128 ≤ byte && byte < 192

theorem isUtf8_iff {bytes : List UInt8} :
    isUtf8 bytes = true ↔ ∃ text : List Char, bytes = text.flatMap String.utf8EncodeChar := by
  rw [isUtf8, ByteArray.validateUTF8_eq_true_iff]
  constructor
  · rintro ⟨text, htext⟩
    refine ⟨text, ?_⟩
    have := congrArg (fun b : ByteArray => b.data.toList) htext
    simpa [List.utf8Encode] using this
  · rintro ⟨text, rfl⟩
    refine ⟨text, ?_⟩
    ext1
    simp [List.utf8Encode]

theorem utf8_injective : Function.Injective (List.flatMap String.utf8EncodeChar) := by
  intro as bs h
  have hbytes : (String.ofList as).toByteArray = (String.ofList bs).toByteArray := by
    ext1
    simpa [List.utf8Encode] using h
  exact String.ofList_injective (String.toByteArray_inj.1 hbytes)

/-- A character is written as one ASCII byte, or as a byte that begins a
character and continuation bytes behind it, all of them beyond ASCII. -/
theorem utf8EncodeChar_cases (c : Char) :
    ∃ first rest, String.utf8EncodeChar c = first :: rest ∧ isContinuation first = false ∧
      (rest = [] ∨ 128 ≤ first) ∧ ∀ byte ∈ rest, 128 ≤ byte := by
  have hbyte : ∀ n : ℕ, 128 ≤ UInt8.ofNat (n % 64 + 128) := by
    intro n
    rw [UInt8.le_iff_toNat_le, UInt8.toNat_ofNat']
    simp only [UInt8.reduceToNat]
    omega
  have hfirst : ∀ n m : ℕ, n < 32 → (m = 192 ∨ (m = 224 ∧ n < 16) ∨ (m = 240 ∧ n < 8)) →
      isContinuation (UInt8.ofNat (n + m)) = false ∧ 128 ≤ UInt8.ofNat (n + m) := by
    intro n m hn hm
    rw [isContinuation, Bool.and_eq_false_iff, decide_eq_false_iff_not, decide_eq_false_iff_not,
      UInt8.le_iff_toNat_le, UInt8.lt_iff_toNat_lt, UInt8.toNat_ofNat']
    simp only [UInt8.reduceToNat]
    omega
  rw [String.utf8EncodeChar]
  split
  next h =>
    refine ⟨_, _, rfl, ?_, .inl rfl, by simp⟩
    rw [isContinuation, Bool.and_eq_false_iff, decide_eq_false_iff_not,
      UInt8.le_iff_toNat_le, UInt8.toNat_ofNat']
    simp only [UInt8.reduceToNat]
    omega
  next =>
  split
  next =>
    obtain ⟨h₁, h₂⟩ := hfirst (c.val.toNat / 64 % 32) 192 (by omega) (.inl rfl)
    exact ⟨_, _, rfl, h₁, .inr h₂, by simp only [List.forall_mem_cons, hbyte, true_and, List.not_mem_nil,
      false_imp_iff, implies_true]⟩
  next =>
  split
  next =>
    obtain ⟨h₁, h₂⟩ := hfirst (c.val.toNat / 4096 % 16) 224 (by omega) (by omega)
    exact ⟨_, _, rfl, h₁, .inr h₂, by simp only [List.forall_mem_cons, hbyte, true_and, List.not_mem_nil,
      false_imp_iff, implies_true]⟩
  next =>
    obtain ⟨h₁, h₂⟩ := hfirst (c.val.toNat / 262144 % 8) 240 (by omega) (by omega)
    exact ⟨_, _, rfl, h₁, .inr h₂, by simp only [List.forall_mem_cons, hbyte, true_and, List.not_mem_nil,
      false_imp_iff, implies_true]⟩

/-- No character begins with a continuation byte, so none stands at the start of
a text. -/
theorem head_not_continuation {bytes : List UInt8} (h : isUtf8 bytes = true) {byte : UInt8}
    (hhead : bytes.head? = some byte) : isContinuation byte = false := by
  obtain ⟨text, rfl⟩ := isUtf8_iff.mp h
  cases text with
  | nil => simp at hhead
  | cons c text =>
      obtain ⟨first, rest, hc, hfirst, -, -⟩ := utf8EncodeChar_cases c
      rw [List.flatMap_cons, hc, List.cons_append, List.head?_cons, Option.some.injEq] at hhead
      exact hhead ▸ hfirst

/-- Behind an ASCII byte a new character begins. -/
theorem not_continuation_of_ascii {bytes : List UInt8} (h : isUtf8 bytes = true) {k : ℕ}
    {byte next : UInt8} (hbyte : bytes[k]? = some byte) (hascii : byte < 128)
    (hnext : bytes[k + 1]? = some next) : isContinuation next = false := by
  obtain ⟨text, rfl⟩ := isUtf8_iff.mp h
  induction text generalizing k with
  | nil => simp at hbyte
  | cons c text ih =>
      obtain ⟨first, rest, hc, hfirst, hrest, hcont⟩ := utf8EncodeChar_cases c
      rw [List.flatMap_cons, hc] at hbyte hnext
      -- an ASCII byte is the last one of its character
      rcases Nat.lt_or_ge k (first :: rest).length with hin | hout
      · rw [List.getElem?_append_left hin] at hbyte
        have hmem : byte ∈ first :: rest := List.mem_of_getElem? hbyte
        have hrest' : rest = [] := by
          rcases List.mem_cons.mp hmem with rfl | hmem
          · exact hrest.resolve_right (by rw [UInt8.not_le]; exact hascii)
          · exact absurd (hcont byte hmem) (by rw [UInt8.not_le]; exact hascii)
        subst hrest'
        obtain rfl : k = 0 := by simpa using hin
        rw [List.getElem?_append_right (by simp)] at hnext
        refine head_not_continuation (isUtf8_iff.mpr ⟨text, rfl⟩) ?_
        rw [List.head?_eq_getElem?]
        simpa using hnext
      · rw [List.getElem?_append_right hout] at hbyte
        rw [List.getElem?_append_right (by omega)] at hnext
        refine ih (isUtf8_iff.mpr ⟨text, rfl⟩) hbyte ?_
        rwa [show k + 1 - (first :: rest).length = k - (first :: rest).length + 1 by omega] at hnext

end Maskura.Lib.Utf8
