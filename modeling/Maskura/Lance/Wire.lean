import Maskura.Lib.Result
import Maskura.Lib.Varint

/-!
The protobuf wire format of Lance files: a reader that goes through the fields of one
message, and the writers of a field.
-/

namespace Maskura.Lance

open Lib Lib.Varint

abbrev Bytes := List UInt8

/-- An `UNSUPPORTED_FORMAT` error by its message. -/
inductive WireError
  | message (text : String)
  /-- `Lance field {name:?} is missing its type`. -/
  | missingType (name : String)
  deriving DecidableEq

/-- A parsed protobuf field value. -/
inductive WireValue
  | varint (value : UInt64)
  | bytes (bytes : Bytes)
  | fixed32 (bytes : Bytes)
  | fixed64 (bytes : Bytes)
  deriving DecidableEq

/-- A buffer, and what of it is behind the position. -/
structure WireReader where
  buf : Bytes
  rest : Bytes

/-- The largest length on a platform of 64 bits. -/
def usizeMax : ℕ := 2 ^ 64 - 1

namespace WireReader

def new (buf : Bytes) : WireReader := ⟨buf, buf⟩

def pos (reader : WireReader) : ℕ := reader.buf.length - reader.rest.length

def isEmpty (reader : WireReader) : Bool := reader.rest.isEmpty

/-- The loop of `read_varint`. -/
def readVarintFrom (buf : Bytes) (value shift : ℕ) : Bytes → Except WireError (ℕ × WireReader)
  | [] => .error (.message "protobuf varint is truncated")
  | byte :: rest =>
      if 64 ≤ shift then .error (.message "protobuf varint is too long")
      else
        let value := value ||| ((byte &&& 0x7F).toNat <<< shift) % 2 ^ 64
        if byte &&& 0x80 = 0 then .ok (value, ⟨buf, rest⟩)
        else readVarintFrom buf value (shift + 7) rest

def readVarint (reader : WireReader) : Except WireError (ℕ × WireReader) :=
  readVarintFrom reader.buf 0 0 reader.rest

/-- The next `size` bytes. -/
def take (reader : WireReader) (size : ℕ) : Bytes × WireReader :=
  (reader.rest.take size, ⟨reader.buf, reader.rest.drop size⟩)

/-- The value of a field by its wire type. -/
def readValue (reader : WireReader) (wire : ℕ) : Except WireError (WireValue × WireReader) :=
  match wire with
  | 0 => do
      let (value, reader) ← reader.readVarint
      .ok (.varint (.ofNat value), reader)
  | 2 => do
      let (len, reader) ← reader.readVarint
      rejectIf (usizeMax < len) (.message "protobuf length overflows this platform")
      rejectIf (usizeMax < reader.pos + len) (.message "protobuf length overflows the buffer")
      rejectIf (reader.buf.length < reader.pos + len) (.message "protobuf field is truncated")
      .ok (.bytes (reader.take len).1, (reader.take len).2)
  | 5 => do
      rejectIf (reader.rest.length < 4) (.message "protobuf fixed32 field is truncated")
      .ok (.fixed32 (reader.take 4).1, (reader.take 4).2)
  | 1 => do
      rejectIf (reader.rest.length < 8) (.message "protobuf fixed64 field is truncated")
      .ok (.fixed64 (reader.take 8).1, (reader.take 8).2)
  | other => .error (.message ("unsupported protobuf wire type " ++ toString other ++
      " (groups are not valid Lance wire data)"))

/-- The number and the value of the next field. -/
def next (reader : WireReader) : Except WireError (Option (ℕ × WireValue × WireReader)) :=
  if reader.isEmpty then .ok none
  else do
    let (key, reader) ← reader.readVarint
    let field := key / 8 % 2 ^ 32
    rejectIf (field = 0) (.message "protobuf field number 0 is invalid")
    let (value, reader) ← reader.readValue (key % 8)
    .ok (some (field, value, reader))

/-! ### Reading a number -/

/-- A byte adds its seven bits to the value, and those from 64 on are lost. -/
theorem readVarintFrom_cons {buf rest : Bytes} {value count : ℕ} {byte : UInt8}
    (hvalue : value < 2 ^ (7 * count)) (hcount : count ≤ 9) :
    readVarintFrom buf value (7 * count) (byte :: rest) =
      if Continues byte then
        readVarintFrom buf ((value + byte.toNat % 128 * 2 ^ (7 * count)) % 2 ^ 64)
          (7 * (count + 1)) rest
      else .ok ((value + byte.toNat % 128 * 2 ^ (7 * count)) % 2 ^ 64, ⟨buf, rest⟩) := by
  have hshift : 7 * count < 64 := by omega
  rw [readVarintFrom, if_neg (Nat.not_le.mpr hshift), and_low, or_shiftLeft hvalue hshift]
  simp only [and_high_eq_zero_iff, ite_not]
  rfl

/-- What the loop reads is a number of at most ten bytes, without its bits from 64 on. -/
theorem readVarintFrom_eq_ok {buf rest : Bytes} {value count n : ℕ} {reader : WireReader}
    (hvalue : value < 2 ^ (7 * count)) :
    readVarintFrom buf value (7 * count) rest = .ok (n, reader) ↔
      ∃ varint, rest = varint ++ reader.rest ∧ IsVarint varint ∧ count + varint.length ≤ 10 ∧
        n = (value + spelled varint * 2 ^ (7 * count)) % 2 ^ 64 ∧ reader.buf = buf := by
  induction rest generalizing value count with
  | nil =>
      constructor
      · intro h
        cases h
      · rintro ⟨varint, happend, hvarint, -⟩
        obtain rfl := (List.nil_eq_append_iff.mp happend).1
        cases hvarint
  | cons byte rest ih =>
      by_cases hcount : count ≤ 9
      · rw [readVarintFrom_cons hvalue hcount]
        by_cases hbyte : Continues byte
        · have hpow : 2 ^ (7 * (count + 1)) = 2 ^ (7 * count) * 128 := Nat.pow_add 2 (7 * count) 7
          have hnext : (value + byte.toNat % 128 * 2 ^ (7 * count)) % 2 ^ 64 <
              2 ^ (7 * (count + 1)) := by
            refine (Nat.mod_le _ _).trans_lt ?_
            have := Nat.mul_le_mul_right (2 ^ (7 * count)) (show byte.toNat % 128 ≤ 127 by omega)
            omega
          have hsum (varint : Bytes) : ((value + byte.toNat % 128 * 2 ^ (7 * count)) % 2 ^ 64 +
              spelled varint * 2 ^ (7 * (count + 1))) % 2 ^ 64 =
              (value + spelled (byte :: varint) * 2 ^ (7 * count)) % 2 ^ 64 := by
            rw [Nat.mod_add_mod, spelled, hpow]
            congr 1
            ring
          rw [if_pos hbyte, ih hnext]
          constructor
          · rintro ⟨varint, rfl, hvarint, hlength, rfl, hbuf⟩
            exact ⟨byte :: varint, rfl, .more hbyte hvarint, by rw [List.length_cons]; omega,
              hsum varint, hbuf⟩
          · rintro ⟨_ | ⟨_, varint⟩, happend, hvarint, hlength, rfl, hbuf⟩
            · cases hvarint
            · obtain ⟨rfl, rfl⟩ := List.cons_eq_cons.mp happend
              obtain ⟨hlast, -⟩ | ⟨-, hvarint⟩ := isVarint_cons_iff.mp hvarint
              · exact absurd hbyte hlast
              · exact ⟨varint, rfl, hvarint, by rw [List.length_cons] at hlength; omega,
                  (hsum varint).symm, hbuf⟩
        · rw [if_neg hbyte, Except.ok.injEq, Prod.mk.injEq]
          constructor
          · rintro ⟨rfl, rfl⟩
            exact ⟨[byte], rfl, .last hbyte, Nat.succ_le_succ hcount, rfl, rfl⟩
          · rintro ⟨_ | ⟨_, varint⟩, happend, hvarint, -, rfl, rfl⟩
            · cases hvarint
            · obtain ⟨rfl, rfl⟩ := List.cons_eq_cons.mp happend
              obtain ⟨-, rfl⟩ | ⟨hmore, -⟩ := isVarint_cons_iff.mp hvarint
              · exact ⟨rfl, rfl⟩
              · exact absurd hmore hbyte
      · rw [readVarintFrom, if_pos (by omega)]
        constructor
        · intro h
          cases h
        · rintro ⟨varint, -, hvarint, hlength, -⟩
          have := hvarint.length_pos
          omega

theorem readVarint_eq_ok {reader reader' : WireReader} {n : ℕ} :
    reader.readVarint = .ok (n, reader') ↔
      ∃ varint, reader.rest = varint ++ reader'.rest ∧ IsVarint varint ∧ varint.length ≤ 10 ∧
        n = spelled varint % 2 ^ 64 ∧ reader'.buf = reader.buf := by
  have h : readVarintFrom reader.buf 0 (7 * 0) reader.rest = .ok (n, reader') ↔ _ :=
    readVarintFrom_eq_ok Nat.one_pos
  simpa only [readVarint, Nat.mul_zero, Nat.pow_zero, Nat.mul_one, Nat.zero_add] using h

/-! ### Progress -/

theorem readVarint_length {reader reader' : WireReader} {n : ℕ}
    (h : reader.readVarint = .ok (n, reader')) : reader'.rest.length < reader.rest.length := by
  obtain ⟨varint, hrest, hvarint, -⟩ := readVarint_eq_ok.mp h
  have := hvarint.length_pos
  rw [hrest, List.length_append]
  omega

theorem readValue_length {reader reader' : WireReader} {wire : ℕ} {value : WireValue}
    (h : reader.readValue wire = .ok (value, reader')) :
    reader'.rest.length ≤ reader.rest.length := by
  have htake (reader : WireReader) (size : ℕ) :
      (reader.take size).2.rest.length ≤ reader.rest.length := by
    rw [take, List.length_drop]
    exact Nat.sub_le _ _
  unfold readValue at h
  split at h
  · obtain ⟨⟨n, middle⟩, hn, hvalue⟩ := bind_eq_ok.mp h
    cases hvalue
    exact (readVarint_length hn).le
  · obtain ⟨⟨len, middle⟩, hlen, h⟩ := bind_eq_ok.mp h
    obtain ⟨-, -, h⟩ := bind_eq_ok.mp h
    obtain ⟨-, -, h⟩ := bind_eq_ok.mp h
    obtain ⟨-, -, hvalue⟩ := bind_eq_ok.mp h
    cases hvalue
    exact (htake middle len).trans (readVarint_length hlen).le
  · obtain ⟨-, -, hvalue⟩ := bind_eq_ok.mp h
    cases hvalue
    exact htake reader 4
  · obtain ⟨-, -, hvalue⟩ := bind_eq_ok.mp h
    cases hvalue
    exact htake reader 8
  · cases h

theorem next_length {reader reader' : WireReader} {field : ℕ} {value : WireValue}
    (h : reader.next = .ok (some (field, value, reader'))) :
    reader'.rest.length < reader.rest.length := by
  unfold next at h
  split at h
  · cases h
  · obtain ⟨⟨key, middle⟩, hkey, h⟩ := bind_eq_ok.mp h
    obtain ⟨-, -, h⟩ := bind_eq_ok.mp h
    obtain ⟨⟨_, _⟩, hvalue, h⟩ := bind_eq_ok.mp h
    cases h
    exact (readValue_length hvalue).trans_lt (readVarint_length hkey)

/-- `while let Some((field, value)) = reader.next()? { state = step(state, field, value)?; }`. -/
def fold {σ : Type} (step : σ → ℕ → WireValue → Except WireError σ) (state : σ)
    (reader : WireReader) : Except WireError σ :=
  match _h : reader.next with
  | .error e => .error e
  | .ok none => .ok state
  | .ok (some (field, value, reader')) => do
      let state ← step state field value
      fold step state reader'
termination_by reader.rest.length
decreasing_by exact next_length _h

end WireReader

/-! ### Writing -/

def writeVarint (value : ℕ) : Bytes :=
  let byte := UInt8.ofNat (value &&& 0x7F)
  if value >>> 7 = 0 then [byte]
  else (byte ||| 0x80) :: writeVarint (value >>> 7)
termination_by value
decreasing_by
  rw [Nat.shiftRight_eq_div_pow] at *
  omega

def writeKey (field wire : ℕ) : Bytes := writeVarint (field <<< 3 ||| wire)

def writeVarintField (field : ℕ) (value : UInt64) : Bytes :=
  writeKey field 0 ++ writeVarint value.toNat

def writeBytesField (field : ℕ) (value : Bytes) : Bytes :=
  writeKey field 2 ++ writeVarint (value.length % 2 ^ 64) ++ value

theorem writeVarint_of_lt {value : ℕ} (h : value < 128) : writeVarint value = [UInt8.ofNat value] := by
  have hand : value &&& 0x7F = value := by
    rw [show 0x7F = 2 ^ 7 - 1 from rfl, Nat.and_two_pow_sub_one_eq_mod, Nat.mod_eq_of_lt h]
  rw [writeVarint, hand, if_pos]
  rw [Nat.shiftRight_eq_div_pow]
  exact Nat.div_eq_of_lt h

theorem writeVarint_of_ge {value : ℕ} (h : 128 ≤ value) :
    writeVarint value = (UInt8.ofNat (value % 128) ||| 0x80) :: writeVarint (value / 128) := by
  have hand : value &&& 0x7F = value % 128 := Nat.and_two_pow_sub_one_eq_mod value 7
  have hshift : value >>> 7 = value / 128 := Nat.shiftRight_eq_div_pow value 7
  rw [writeVarint, hand, hshift, if_neg]
  omega

/-- The writer spells the value, in no more bytes than it has digits. -/
theorem writeVarint_spec (value : ℕ) :
    IsVarint (writeVarint value) ∧ spelled (writeVarint value) = value ∧
      ∀ count, value < 128 ^ (count + 1) → (writeVarint value).length ≤ count + 1 := by
  induction value using Nat.strongRecOn with
  | _ value ih =>
      rcases Nat.lt_or_ge value 128 with hlt | hge
      · have hbyte : (UInt8.ofNat value).toNat = value := by
          rw [UInt8.toNat_ofNat']
          omega
        rw [writeVarint_of_lt hlt]
        refine ⟨.last (by rw [Continues, hbyte]; omega), ?_, fun count _ => Nat.le_add_left 1 count⟩
        rw [spelled, spelled, hbyte]
        omega
      · obtain ⟨hvarint, hspelled, hlength⟩ := ih (value / 128) (by omega)
        have hbyte := or_high (Nat.mod_lt value (show 0 < 128 by decide))
        rw [writeVarint_of_ge hge]
        refine ⟨.more (by rw [Continues, hbyte]; omega) hvarint, ?_, fun count hcount => ?_⟩
        · rw [spelled, hspelled, hbyte]
          omega
        · cases count with
          | zero => omega
          | succ count =>
              rw [List.length_cons]
              refine Nat.succ_le_succ (hlength count ?_)
              rw [Nat.pow_succ] at hcount
              omega

theorem readVarint_writeVarint {value : ℕ} (h : value < 2 ^ 64) (buf rest : Bytes) :
    WireReader.readVarint ⟨buf, writeVarint value ++ rest⟩ = .ok (value, ⟨buf, rest⟩) := by
  obtain ⟨hvarint, hspelled, hlength⟩ := writeVarint_spec value
  refine WireReader.readVarint_eq_ok.mpr ⟨writeVarint value, rfl, hvarint, hlength 9 (by omega), ?_, rfl⟩
  rw [hspelled, Nat.mod_eq_of_lt h]

theorem readVarint_writeKey {field wire : ℕ} (hfield : field < 2 ^ 32) (hwire : wire < 8)
    (buf rest : Bytes) :
    WireReader.readVarint ⟨buf, writeKey field wire ++ rest⟩ =
      .ok (8 * field + wire, ⟨buf, rest⟩) := by
  have hkey : field <<< 3 ||| wire = 8 * field + wire := by
    rw [← Nat.shiftLeft_add_eq_or_of_lt hwire, Nat.shiftLeft_eq]
    omega
  rw [writeKey, hkey, readVarint_writeVarint (by omega)]

/-- Behind a key stands the value of its wire type. -/
theorem next_writeKey {field wire : ℕ} {value : WireValue} {buf rest : Bytes} {reader : WireReader}
    (hfield : 0 < field ∧ field < 2 ^ 32) (hwire : wire < 8)
    (hvalue : WireReader.readValue ⟨buf, rest⟩ wire = .ok (value, reader)) :
    WireReader.next ⟨buf, writeKey field wire ++ rest⟩ = .ok (some (field, value, reader)) := by
  have hne : writeKey field wire ++ rest ≠ [] :=
    List.append_ne_nil_of_left_ne_nil
      (List.ne_nil_of_length_pos (writeVarint_spec _).1.length_pos) rest
  have hnumber : (8 * field + wire) / 8 % 2 ^ 32 = field := by omega
  have htype : (8 * field + wire) % 8 = wire := by omega
  rw [WireReader.next, WireReader.isEmpty, if_neg (by rwa [List.isEmpty_iff]),
    readVarint_writeKey hfield.2 hwire, ok_bind]
  simp only [hnumber, htype, hvalue, ok_bind, rejectIf_neg hfield.1.ne']

/-! ### A message as its fields -/

/-- A field as the writers of messages make it. -/
inductive WrittenField
  | varint (field : ℕ) (value : UInt64)
  | bytes (field : ℕ) (value : Bytes)

namespace WrittenField

def number : WrittenField → ℕ
  | varint field _ | bytes field _ => field

def value : WrittenField → WireValue
  | varint _ value => .varint value
  | bytes _ value => .bytes value

def write : WrittenField → Bytes
  | varint field value => writeVarintField field value
  | bytes field value => writeBytesField field value

theorem next_write (written : WrittenField) {buf rest : Bytes}
    (hfield : 0 < written.number ∧ written.number < 2 ^ 32) (hbuf : buf.length ≤ usizeMax)
    (hlength : (written.write ++ rest).length ≤ buf.length) :
    WireReader.next ⟨buf, written.write ++ rest⟩ =
      .ok (some (written.number, written.value, ⟨buf, rest⟩)) := by
  cases written with
  | varint field value =>
      rw [write, writeVarintField, List.append_assoc]
      refine next_writeKey hfield (by decide) ?_
      rw [WireReader.readValue, readVarint_writeVarint value.toNat_lt]
      simp [WrittenField.value]
  | bytes field value =>
      rw [write, writeBytesField, List.append_assoc, List.append_assoc] at *
      refine next_writeKey hfield (by decide) ?_
      simp only [List.length_append] at hlength
      have hlen : value.length % 2 ^ 64 = value.length :=
        Nat.mod_eq_of_lt (by unfold usizeMax at hbuf; omega)
      have hpos : WireReader.pos ⟨buf, value ++ rest⟩ + value.length ≤ buf.length := by
        change buf.length - (value ++ rest).length + value.length ≤ buf.length
        rw [List.length_append]
        omega
      rw [WireReader.readValue, hlen, readVarint_writeVarint (by unfold usizeMax at hbuf; omega),
        ok_bind]
      dsimp only
      rw [rejectIf_neg (by omega), ok_bind, rejectIf_neg (Nat.not_lt.mpr (hpos.trans hbuf)), ok_bind,
        rejectIf_neg (Nat.not_lt.mpr hpos), ok_bind, WireReader.take, List.take_left, List.drop_left]
      rfl

end WrittenField

def writeFields (fields : List WrittenField) : Bytes := fields.flatMap WrittenField.write

/-- The loop over a written message takes its fields one after the other. -/
theorem fold_writeFields {σ : Type} (step : σ → ℕ → WireValue → Except WireError σ) (state : σ)
    {fields : List WrittenField} {buf : Bytes} (hbuf : buf.length ≤ usizeMax)
    (hfields : ∀ written ∈ fields, 0 < written.number ∧ written.number < 2 ^ 32)
    (hlength : (writeFields fields).length ≤ buf.length) :
    WireReader.fold step state ⟨buf, writeFields fields⟩ =
      fields.foldlM (fun state written => step state written.number written.value) state := by
  induction fields generalizing state with
  | nil =>
      rw [WireReader.fold]
      rfl
  | cons written fields ih =>
      rw [List.forall_mem_cons] at hfields
      simp only [writeFields, List.flatMap_cons] at hlength
      have hrest : (writeFields fields).length ≤ buf.length := by
        rw [List.length_append] at hlength
        exact (Nat.le_add_left _ _).trans hlength
      have hnext := written.next_write hfields.1 hbuf hlength
      rw [writeFields, List.flatMap_cons, WireReader.fold]
      split
      · cases hnext.symm.trans ‹_›
      · cases hnext.symm.trans ‹_›
      · cases hnext.symm.trans ‹_›
        rw [List.foldlM_cons]
        exact bind_congr fun state => ih state hfields.2 hrest

theorem length_le_of_bytes_mem {fields : List WrittenField} {field : ℕ} {value : Bytes}
    (h : .bytes field value ∈ fields) : value.length ≤ (writeFields fields).length := by
  have hsub := List.sublist_flatten_of_mem (List.mem_map_of_mem (f := WrittenField.write) h)
  rw [← List.flatMap_def] at hsub
  refine Nat.le_trans ?_ hsub.length_le
  rw [WrittenField.write, writeBytesField, List.length_append]
  exact Nat.le_add_left _ _

/-! ### Packed numbers -/

def packU64 (values : List UInt64) : Bytes := values.flatMap fun value => writeVarint value.toNat

def writePackedU64Field (field : ℕ) (values : List UInt64) : Bytes :=
  writeBytesField field (packU64 values)

/-- The loop of `decode_packed_u64`. -/
def decodePackedFrom (reader : WireReader) : Except WireError (List UInt64) :=
  if reader.isEmpty then .ok []
  else
    match _h : reader.readVarint with
    | .error e => .error e
    | .ok (value, reader') => do
        let values ← decodePackedFrom reader'
        .ok (.ofNat value :: values)
termination_by reader.rest.length
decreasing_by exact WireReader.readVarint_length _h

def decodePackedU64 (raw : Bytes) : Except WireError (List UInt64) :=
  decodePackedFrom (.new raw)

theorem decodePackedFrom_packU64 (buf : Bytes) (values : List UInt64) :
    decodePackedFrom ⟨buf, packU64 values⟩ = .ok values := by
  induction values with
  | nil =>
      rw [decodePackedFrom]
      rfl
  | cons value values ih =>
      have hread := readVarint_writeVarint value.toNat_lt buf (packU64 values)
      have hne : ¬WireReader.isEmpty ⟨buf, packU64 (value :: values)⟩ := by
        rw [WireReader.isEmpty, List.isEmpty_iff, packU64, List.flatMap_cons]
        exact List.append_ne_nil_of_left_ne_nil
          (List.ne_nil_of_length_pos (writeVarint_spec _).1.length_pos) _
      rw [decodePackedFrom, if_neg hne]
      split
      · cases hread.symm.trans ‹_›
      · cases hread.symm.trans ‹_›
        rw [ih, ok_bind, UInt64.ofNat_toNat]

end Maskura.Lance
