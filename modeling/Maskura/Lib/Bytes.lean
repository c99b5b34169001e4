import Mathlib.Data.Nat.Notation

/-!
Bytes of texts, and ASCII bytes.
-/

namespace Maskura.Lib

/-- `str::as_bytes`. -/
def utf8Bytes (text : String) : List UInt8 := text.toByteArray.data.toList

/-- The value of a byte that is a hexadecimal digit, of either case. -/
def hexValue (byte : UInt8) : Option ℕ :=
  if 48 ≤ byte ∧ byte ≤ 57 then some (byte.toNat - 48)
  else if 97 ≤ byte ∧ byte ≤ 102 then some (byte.toNat - 87)
  else if 65 ≤ byte ∧ byte ≤ 70 then some (byte.toNat - 55)
  else none

def toAsciiLowercase (text : List UInt8) : List UInt8 :=
  text.map fun byte => if 65 ≤ byte ∧ byte ≤ 90 then byte + 32 else byte

end Maskura.Lib
