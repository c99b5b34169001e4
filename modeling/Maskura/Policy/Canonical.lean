import Maskura.Lib.Bytes
import Maskura.Lib.Text
import Maskura.Lib.Utf8
import Maskura.Persistence.Frame
import Mathlib.Data.List.DropRight

/-!
Digests of `pipeline-config`: SHA-256 of a canonical encoding, written as 64
lowercase hexadecimal digits.
-/

namespace Maskura.Policy

open Maskura.Lib
open Maskura.Persistence (Bytes u64Bound)

inductive ConfigError
  | invalid (message : String)
  | approval (message : String)
  deriving DecidableEq, Repr

/-- The error as `Display` writes it. -/
def ConfigError.display : ConfigError → String
  | .invalid message => "pipeline config is invalid: " ++ message
  | .approval message => "policy approval verification failed: " ++ message

/-! ### Text -/

/-- `char::is_whitespace`. -/
def isWhitespace (c : Char) : Bool :=
  (0x9 ≤ c.val ∧ c.val ≤ 0xd) ∨ c.val = 0x20 ∨ c.val = 0x85 ∨ c.val = 0xa0 ∨ c.val = 0x1680 ∨
    (0x2000 ≤ c.val ∧ c.val ≤ 0x200a) ∨ c.val = 0x2028 ∨ c.val = 0x2029 ∨ c.val = 0x202f ∨
    c.val = 0x205f ∨ c.val = 0x3000

/-- `str::trim`. -/
def trim (text : List Char) : List Char :=
  (text.dropWhile isWhitespace).rdropWhile isWhitespace

/-- `text.trim().is_empty()`. -/
def isBlank (text : String) : Bool := text.toList.all isWhitespace

def hexDigit (n : ℕ) : Char := Char.ofNat (if n < 10 then 48 + n else 87 + n)

/-- `hex::encode`. -/
def hexEncode (bytes : Bytes) : String :=
  .ofList (bytes.flatMap fun byte => [hexDigit (byte.toNat / 16), hexDigit (byte.toNat % 16)])

theorem utf8Bytes_ofList (chars : List Char) :
    utf8Bytes (.ofList chars) = chars.flatMap String.utf8EncodeChar := by
  simp [utf8Bytes, List.utf8Encode]

def isHexByte (byte : UInt8) : Bool := (48 ≤ byte ∧ byte ≤ 57) ∨ (97 ≤ byte ∧ byte ≤ 102)

/-- Exactly 64 lowercase hexadecimal characters. -/
def isHex64 (value : String) : Bool :=
  (utf8Bytes value).length = 64 ∧ (utf8Bytes value).all isHexByte

theorem utf8EncodeChar_hexDigit {n : ℕ} (h : n < 16) :
    ∃ byte, String.utf8EncodeChar (hexDigit n) = [byte] ∧ isHexByte byte = true := by
  have hall : ∀ m < 16, (String.utf8EncodeChar (hexDigit m)).length = 1 ∧
      (String.utf8EncodeChar (hexDigit m)).all isHexByte = true := by decide
  obtain ⟨hlength, hhex⟩ := hall n h
  obtain ⟨byte, hbyte⟩ := List.length_eq_one_iff.mp hlength
  exact ⟨byte, hbyte, by simpa [hbyte] using hhex⟩

/-- Every byte gives two digits. -/
theorem utf8Bytes_hexEncode (bytes : Bytes) :
    (utf8Bytes (hexEncode bytes)).length = 2 * bytes.length ∧
      (utf8Bytes (hexEncode bytes)).all isHexByte = true := by
  rw [hexEncode, utf8Bytes_ofList]
  induction bytes with
  | nil => simp
  | cons byte rest ih =>
      have hbyte := byte.toNat_lt
      obtain ⟨high, hhigh, hhigh'⟩ :=
        utf8EncodeChar_hexDigit (n := byte.toNat / 16) (by omega)
      obtain ⟨low, hlow, hlow'⟩ :=
        utf8EncodeChar_hexDigit (n := byte.toNat % 16) (by omega)
      obtain ⟨hlength, hall⟩ := ih
      rw [List.flatMap_cons, List.flatMap_append, List.length_append, List.all_append, hlength,
        hall]
      simp [hhigh, hlow, hhigh', hlow']
      omega

theorem isHex64_hexEncode {bytes : Bytes} (h : bytes.length = 32) :
    isHex64 (hexEncode bytes) = true := by
  obtain ⟨hlength, hall⟩ := utf8Bytes_hexEncode bytes
  simp [isHex64, hlength, hall, h]

/-! ### Bytes of texts -/

theorem utf8Bytes_eq_flatMap (text : String) :
    utf8Bytes text = text.toList.flatMap String.utf8EncodeChar := by
  rw [← utf8Bytes_ofList, String.ofList_toList]

theorem utf8Bytes_injective : Function.Injective utf8Bytes := by
  intro a b h
  rw [utf8Bytes_eq_flatMap, utf8Bytes_eq_flatMap] at h
  exact String.toList_injective (Utf8.utf8_injective h)

theorem zero_mem_utf8EncodeChar {c : Char} : 0 ∈ String.utf8EncodeChar c ↔ c = '\x00' := by
  constructor
  · intro hmem
    obtain ⟨first, rest, hbytes, -, hfirst, hrest⟩ := Utf8.utf8EncodeChar_cases c
    rw [hbytes, List.mem_cons] at hmem
    obtain rfl : 0 = first := hmem.resolve_right fun h => absurd (hrest 0 h) (by decide)
    obtain rfl : rest = [] := hfirst.resolve_right (by decide)
    have hflat : [c].flatMap String.utf8EncodeChar = ['\x00'].flatMap String.utf8EncodeChar := by
      simpa [hbytes] using (by decide : [0] = String.utf8EncodeChar '\x00')
    exact List.singleton_inj.1 (Utf8.utf8_injective hflat)
  · rintro rfl
    decide

/-- A NUL byte is a NUL character. -/
theorem zero_mem_utf8Bytes {text : String} : 0 ∈ utf8Bytes text ↔ '\x00' ∈ text.toList := by
  rw [utf8Bytes_eq_flatMap, List.mem_flatMap]
  simp [zero_mem_utf8EncodeChar]

/-- A NUL in one of two texts is another place to cut between them. -/
theorem exists_other_cut {a b : String} (h : '\x00' ∈ a.toList ∨ '\x00' ∈ b.toList) :
    ∃ a' b', a' ≠ a ∧
      utf8Bytes a ++ 0 :: utf8Bytes b = utf8Bytes a' ++ 0 :: utf8Bytes b' := by
  have hcut : ∀ front back : List Char, utf8Bytes (.ofList (front ++ '\x00' :: back)) =
      utf8Bytes (.ofList front) ++ 0 :: utf8Bytes (.ofList back) := fun front back => by
    rw [utf8Bytes_ofList, utf8Bytes_ofList, utf8Bytes_ofList, List.flatMap_append,
      List.flatMap_cons]
    rfl
  have hlist : ∀ text : String, text = .ofList text.toList := fun _ => String.ofList_toList.symm
  rcases h with h | h
  · obtain ⟨front, back, hback⟩ := List.append_of_mem h
    rw [hlist a, hback, hcut]
    refine ⟨.ofList front, .ofList (back ++ '\x00' :: b.toList), ?_, ?_⟩
    · intro heq
      simpa using congrArg List.length (String.ofList_injective heq)
    · rw [hcut, ← hlist]
      simp
  · obtain ⟨front, back, hback⟩ := List.append_of_mem h
    refine ⟨.ofList (a.toList ++ '\x00' :: front), .ofList back, ?_, ?_⟩
    · intro heq
      simpa using congrArg (fun text => text.toList.length) heq
    · rw [hlist b, hback, hcut, hcut, ← hlist]
      simp

theorem hexDigit_injOn : ∀ n < 16, ∀ m < 16, hexDigit n = hexDigit m → n = m := by
  decide

theorem hexEncode_injective : Function.Injective hexEncode := by
  intro a b h
  refine Text.flatMap_injective (by simp) ?_ (String.ofList_injective h)
  intro a b s t h
  simp only [List.cons_append, List.nil_append, List.cons.injEq] at h
  obtain ⟨hhigh, hlow, hrest⟩ := h
  have ha := a.toNat_lt
  have hb := b.toNat_lt
  have hhigh := hexDigit_injOn _ (by omega) _ (by omega) hhigh
  have hlow := hexDigit_injOn _ (by omega) _ (by omega) hlow
  exact ⟨UInt8.toNat_inj.1 (by omega), hrest⟩

/-! ### Digests -/

/-- `Sha256::digest`, which always gives 32 bytes. -/
structure Sha256 where
  digest : Bytes → Bytes
  length_digest : ∀ bytes, (digest bytes).length = 32

/-- `digest_of`, for a value with this canonical encoding. -/
def digestOf (sha : Sha256) (encoded : Except ConfigError Bytes) : Except ConfigError String := do
  let bytes ← encoded
  return hexEncode (sha.digest bytes)

theorem digestOf_isHex64 {sha : Sha256} {encoded : Except ConfigError Bytes} {digest : String}
    (h : digestOf sha encoded = .ok digest) : isHex64 digest = true := by
  obtain ⟨bytes, -, hdigest⟩ := bind_eq_ok.mp h
  obtain rfl := Except.ok.inj hdigest
  exact isHex64_hexEncode (sha.length_digest bytes)

end Maskura.Policy
