import Maskura.Lance.Wire
import Maskura.Lib.Bytes

/-!
The messages of a Lance file and their round trips. A written message is a list of
fields, and decoding it is a fold over that list.
-/

namespace Maskura.Lance

open Lib Lib.Varint

def fromUtf8 (bytes : Bytes) : Option String := String.fromUTF8? ⟨bytes.toArray⟩

@[simp] theorem fromUtf8_utf8Bytes (text : String) : fromUtf8 (utf8Bytes text) = some text := by
  simp [fromUtf8, utf8Bytes, String.fromUTF8?, text.isValidUTF8, String.fromUTF8]

def writeStringField (field : ℕ) (value : String) : Bytes := writeBytesField field (utf8Bytes value)

/-- `value as i32`. -/
def asI32 (value : UInt64) : Int32 := value.toUInt32.toInt32

/-- `value as u64`, with the sign extended. -/
def asU64 (value : Int32) : UInt64 := value.toInt64.toUInt64

@[simp] theorem asI32_asU64 (value : Int32) : asI32 (asU64 value) = value := by
  apply Int32.toBitVec_inj.mp
  simp only [asI32, asU64, UInt32.toBitVec_toInt32, UInt64.toBitVec_toUInt32,
    Int64.toBitVec_toUInt64, Int32.toBitVec_toInt64]
  refine BitVec.eq_of_getLsbD_eq fun i hi => ?_
  simp only [BitVec.getLsbD_setWidth, BitVec.getLsbD_signExtend, hi, decide_true, Bool.true_and,
    if_true]
  simp only [show i < 64 by omega, decide_true, Bool.true_and]

/-- `u32::try_from(value)`. -/
def tryU32 (value : UInt64) : Option UInt32 :=
  if value.toNat < 2 ^ 32 then some value.toUInt32 else none

@[simp] theorem tryU32_toUInt64 (value : UInt32) : tryU32 value.toUInt64 = some value := by
  rw [tryU32, if_pos (by rw [UInt32.toNat_toUInt64]; exact value.toNat_lt), UInt32.toUInt32_toUInt64]

/-! ### Fields of the schema -/

/-- `lance.file.Field` in the subset the codec understands. -/
structure FieldMessage where
  name : String
  id : Int32
  parentId : Int32
  logicalType : String
  nullable : Bool
  encoding : Option UInt32
  deriving DecidableEq

namespace FieldMessage

def step (message : FieldMessage) : ℕ → WireValue → Except WireError FieldMessage
  | 2, .bytes bytes => do
      let name ← okOr (fromUtf8 bytes) (.message "Lance field name is not UTF-8")
      .ok { message with name }
  | 3, .varint value => .ok { message with id := asI32 value }
  | 4, .varint value => .ok { message with parentId := asI32 value }
  | 5, .bytes bytes => do
      let logicalType ← okOr (fromUtf8 bytes) (.message "Lance logical type is not UTF-8")
      .ok { message with logicalType }
  | 6, .varint value => .ok { message with nullable := value ≠ 0 }
  | 7, .varint value => do
      let encoding ← okOr (tryU32 value) (.message "Lance field encoding hint does not fit u32")
      .ok { message with encoding := some encoding }
  | _, _ => .ok message

def decode (raw : Bytes) : Except WireError FieldMessage := do
  let message ← WireReader.fold step ⟨"", 0, 0, "", false, none⟩ (.new raw)
  rejectIf (message.name = "") (.message "Lance field is missing its name")
  rejectIf (message.logicalType = "") (.missingType message.name)
  .ok message

def encode (message : FieldMessage) : Bytes :=
  writeStringField 2 message.name ++
    (if message.id ≠ 0 then writeVarintField 3 (asU64 message.id) else []) ++
    writeVarintField 4 (asU64 message.parentId) ++
    writeStringField 5 message.logicalType ++
    (if message.nullable then writeVarintField 6 1 else []) ++
    (match message.encoding with
    | some encoding => writeVarintField 7 encoding.toUInt64
    | none => [])

def written (message : FieldMessage) : List WrittenField :=
  [.bytes 2 (utf8Bytes message.name)] ++
    (if message.id ≠ 0 then [.varint 3 (asU64 message.id)] else []) ++
    [.varint 4 (asU64 message.parentId), .bytes 5 (utf8Bytes message.logicalType)] ++
    (if message.nullable then [.varint 6 1] else []) ++
    (message.encoding.map fun encoding => .varint 7 encoding.toUInt64).toList

theorem encode_eq (message : FieldMessage) : message.encode = writeFields message.written := by
  obtain ⟨name, id, parentId, logicalType, nullable, encoding⟩ := message
  simp only [encode, written]
  split <;> cases nullable <;> cases encoding <;>
    simp [writeFields, WrittenField.write, writeStringField]

theorem written_numbers (message : FieldMessage) :
    ∀ field ∈ message.written, 0 < field.number ∧ field.number < 2 ^ 32 := by
  obtain ⟨name, id, parentId, logicalType, nullable, encoding⟩ := message
  simp only [written]
  split <;> cases nullable <;> cases encoding <;> simp [WrittenField.number]

theorem decode_encode {message : FieldMessage} (hname : message.name ≠ "")
    (htype : message.logicalType ≠ "") (hfit : message.encode.length ≤ usizeMax) :
    decode message.encode = .ok message := by
  rw [encode_eq] at *
  have hfold : message.written.foldlM (fun state field => step state field.number field.value)
      ⟨"", 0, 0, "", false, none⟩ = .ok message := by
    obtain ⟨name, id, parentId, logicalType, nullable, encoding⟩ := message
    by_cases hid : id = 0 <;> cases nullable <;> cases encoding <;>
      simp [written, WrittenField.number, WrittenField.value, step, hid]
  rw [decode, WireReader.new, fold_writeFields step _ hfit message.written_numbers le_rfl, hfold,
    ok_bind, rejectIf_neg hname, ok_bind, rejectIf_neg htype, ok_bind]

end FieldMessage

/-! ### The schema -/

/-- A fold whose steps all succeed. -/
theorem foldlM_eq_ok {ε σ α : Type} {f : σ → α → Except ε σ} {g : σ → α → σ} {xs : List α}
    (h : ∀ state, ∀ x ∈ xs, f state x = .ok (g state x)) (state : σ) :
    xs.foldlM f state = .ok (xs.foldl g state) := by
  induction xs generalizing state with
  | nil => rfl
  | cons x xs ih =>
      rw [List.foldlM_cons, h state x List.mem_cons_self, ok_bind, List.foldl_cons]
      exact ih (fun state y hy => h state y (List.mem_cons_of_mem x hy)) (g state x)

/-- `lance.file.Schema`. -/
structure SchemaMessage where
  fields : List FieldMessage
  deriving DecidableEq

namespace SchemaMessage

def step (message : SchemaMessage) : ℕ → WireValue → Except WireError SchemaMessage
  | 1, .bytes bytes => do
      let field ← FieldMessage.decode bytes
      .ok ⟨message.fields ++ [field]⟩
  | _, _ => .ok message

def decode (raw : Bytes) : Except WireError SchemaMessage :=
  WireReader.fold step ⟨[]⟩ (.new raw)

def encode (message : SchemaMessage) : Bytes :=
  message.fields.flatMap fun field => writeBytesField 1 field.encode

/-- No field is without a name or a type. -/
def WellNamed (message : SchemaMessage) : Prop :=
  ∀ field ∈ message.fields, field.name ≠ "" ∧ field.logicalType ≠ ""

def written (message : SchemaMessage) : List WrittenField :=
  message.fields.map fun field => .bytes 1 field.encode

theorem encode_eq (message : SchemaMessage) : message.encode = writeFields message.written := by
  rw [encode, writeFields, written, List.flatMap_map]
  rfl

theorem decode_encode {message : SchemaMessage} (hnamed : message.WellNamed)
    (hfit : message.encode.length ≤ usizeMax) : decode message.encode = .ok message := by
  rw [encode_eq] at *
  have hnumbers : ∀ field ∈ message.written, 0 < field.number ∧ field.number < 2 ^ 32 := by
    simp [written, WrittenField.number]
  have hstep : ∀ state : SchemaMessage, ∀ field ∈ message.fields,
      step state 1 (.bytes field.encode) = .ok ⟨state.fields ++ [field]⟩ := by
    intro state field hfield
    have hmem : .bytes 1 field.encode ∈ message.written := List.mem_map.mpr ⟨field, hfield, rfl⟩
    rw [step, FieldMessage.decode_encode (hnamed field hfield).1 (hnamed field hfield).2
      ((length_le_of_bytes_mem hmem).trans hfit), ok_bind]
  have hpush (fields : List FieldMessage) (state : SchemaMessage) :
      fields.foldl (fun state field => (⟨state.fields ++ [field]⟩ : SchemaMessage)) state =
        ⟨state.fields ++ fields⟩ := by
    induction fields generalizing state with
    | nil => rw [List.append_nil]; rfl
    | cons field fields ih => rw [List.foldl_cons, ih, List.append_assoc]; rfl
  rw [decode, WireReader.new, fold_writeFields step _ hfit hnumbers le_rfl, written,
    List.foldlM_map]
  exact (foldlM_eq_ok hstep ⟨[]⟩).trans (congrArg Except.ok (hpush message.fields ⟨[]⟩))

end SchemaMessage

/-- `lance.file.FileDescriptor`: the schema global buffer. -/
structure FileDescriptor where
  schema : SchemaMessage
  length : UInt64
  deriving DecidableEq

namespace FileDescriptor

def step (state : Option SchemaMessage × UInt64) :
    ℕ → WireValue → Except WireError (Option SchemaMessage × UInt64)
  | 1, .bytes bytes => do
      rejectIf (state.1.isSome) (.message "Lance FileDescriptor has two schemas")
      let schema ← SchemaMessage.decode bytes
      .ok (some schema, state.2)
  | 2, .varint value => .ok (state.1, value)
  | _, _ => .ok state

def decode (raw : Bytes) : Except WireError FileDescriptor := do
  let (schema, length) ← WireReader.fold step (none, 0) (.new raw)
  let schema ← okOr schema (.message "Lance FileDescriptor is missing its schema")
  .ok ⟨schema, length⟩

def encode (message : FileDescriptor) : Bytes :=
  writeBytesField 1 message.schema.encode ++ writeVarintField 2 message.length

def written (message : FileDescriptor) : List WrittenField :=
  [.bytes 1 message.schema.encode, .varint 2 message.length]

theorem encode_eq (message : FileDescriptor) : message.encode = writeFields message.written := by
  simp [encode, writeFields, written, WrittenField.write]

theorem decode_encode {message : FileDescriptor} (hnamed : message.schema.WellNamed)
    (hfit : message.encode.length ≤ usizeMax) : decode message.encode = .ok message := by
  rw [encode_eq] at *
  have hnumbers : ∀ field ∈ message.written, 0 < field.number ∧ field.number < 2 ^ 32 := by
    simp [written, WrittenField.number]
  have hschema := SchemaMessage.decode_encode hnamed
    ((length_le_of_bytes_mem List.mem_cons_self).trans hfit)
  rw [decode, WireReader.new, fold_writeFields step _ hfit hnumbers le_rfl]
  simp [written, WrittenField.number, WrittenField.value, step, hschema, rejectIf]

end FileDescriptor

/-! ### Columns -/

/-- `lance.file.v2.Encoding`, by the bytes of its `DirectEncoding`. -/
structure EncodingMessage where
  direct : Option Bytes
  deriving DecidableEq

namespace EncodingMessage

def innerStep (direct : Option Bytes) : ℕ → WireValue → Except WireError (Option Bytes)
  | 1, .bytes bytes => do
      rejectIf (direct.isSome) (.message "Lance page encoding has two direct payloads")
      .ok (some bytes)
  | _, _ => .ok direct

def step (direct : Option Bytes) : ℕ → WireValue → Except WireError (Option Bytes)
  | 2, .bytes bytes => WireReader.fold innerStep direct (.new bytes)
  | 3, _ => .error (.message "Lance page has no encoding description")
  | _, _ => .ok direct

def decode (raw : Bytes) : Except WireError EncodingMessage := do
  let direct ← WireReader.fold step none (.new raw)
  .ok ⟨direct⟩

def encode (message : EncodingMessage) : Bytes :=
  match message.direct with
  | some direct => writeBytesField 2 (writeBytesField 1 direct)
  | none => []

def written (message : EncodingMessage) : List WrittenField :=
  (message.direct.map fun direct => .bytes 2 (writeBytesField 1 direct)).toList

theorem encode_eq (message : EncodingMessage) : message.encode = writeFields message.written := by
  obtain ⟨_ | direct⟩ := message <;> simp [encode, writeFields, written, WrittenField.write]

theorem decode_encode {message : EncodingMessage} (hfit : message.encode.length ≤ usizeMax) :
    decode message.encode = .ok message := by
  rw [encode_eq] at *
  have hnumbers : ∀ field ∈ message.written, 0 < field.number ∧ field.number < 2 ^ 32 := by
    simp [written, WrittenField.number]
  rw [decode, WireReader.new, fold_writeFields step _ hfit hnumbers le_rfl]
  obtain ⟨_ | direct⟩ := message
  · rfl
  · have hinner : writeBytesField 1 direct = writeFields [.bytes 1 direct] :=
      (List.append_nil _).symm
    have hlength := (length_le_of_bytes_mem List.mem_cons_self).trans hfit
    rw [hinner] at hlength
    have hfold : WireReader.fold innerStep none ⟨_, writeFields [.bytes 1 direct]⟩ = _ :=
      fold_writeFields innerStep none hlength (by simp [WrittenField.number]) le_rfl
    simp [written, WrittenField.number, WrittenField.value, step, hinner, WireReader.new, hfold,
      innerStep, rejectIf]

end EncodingMessage

/-- `lance.file.v2.ColumnMetadata.Page`. -/
structure PageMessage where
  bufferOffsets : List UInt64
  bufferSizes : List UInt64
  length : UInt64
  encoding : Option EncodingMessage
  priority : UInt64
  deriving DecidableEq

namespace PageMessage

def step (page : PageMessage) : ℕ → WireValue → Except WireError PageMessage
  | 1, .bytes bytes => do
      let bufferOffsets ← decodePackedU64 bytes
      .ok { page with bufferOffsets }
  | 2, .bytes bytes => do
      let bufferSizes ← decodePackedU64 bytes
      .ok { page with bufferSizes }
  | 3, .varint value => .ok { page with length := value }
  | 4, .bytes bytes => do
      let encoding ← EncodingMessage.decode bytes
      .ok { page with encoding := some encoding }
  | 5, .varint value => .ok { page with priority := value }
  | _, _ => .ok page

def decode (raw : Bytes) : Except WireError PageMessage := do
  let page ← WireReader.fold step ⟨[], [], 0, none, 0⟩ (.new raw)
  rejectIf (page.bufferOffsets.length ≠ page.bufferSizes.length)
    (.message "Lance page declares mismatched buffer offsets and sizes")
  .ok page

def encode (page : PageMessage) : Bytes :=
  (if page.bufferOffsets ≠ [] then
    writePackedU64Field 1 page.bufferOffsets ++ writePackedU64Field 2 page.bufferSizes
  else []) ++
    writeVarintField 3 page.length ++
    (match page.encoding with
    | some encoding => writeBytesField 4 encoding.encode
    | none => []) ++
    (if page.priority ≠ 0 then writeVarintField 5 page.priority else [])

def written (page : PageMessage) : List WrittenField :=
  (if page.bufferOffsets ≠ [] then
    [.bytes 1 (packU64 page.bufferOffsets), .bytes 2 (packU64 page.bufferSizes)]
  else []) ++
    [.varint 3 page.length] ++
    (page.encoding.map fun encoding => .bytes 4 encoding.encode).toList ++
    (if page.priority ≠ 0 then [.varint 5 page.priority] else [])

theorem encode_eq (page : PageMessage) : page.encode = writeFields page.written := by
  obtain ⟨offsets, sizes, length, encoding, priority⟩ := page
  by_cases hoffsets : offsets = [] <;> cases encoding <;> by_cases hpriority : priority = 0 <;>
    simp [encode, written, writeFields, WrittenField.write, writePackedU64Field, hoffsets, hpriority]

theorem written_numbers (page : PageMessage) :
    ∀ field ∈ page.written, 0 < field.number ∧ field.number < 2 ^ 32 := by
  obtain ⟨offsets, sizes, length, encoding, priority⟩ := page
  by_cases hoffsets : offsets = [] <;> cases encoding <;> by_cases hpriority : priority = 0 <;>
    simp [written, WrittenField.number, hoffsets, hpriority]

theorem decode_encode {page : PageMessage}
    (hpaired : page.bufferOffsets.length = page.bufferSizes.length)
    (hfit : page.encode.length ≤ usizeMax) : decode page.encode = .ok page := by
  rw [encode_eq] at *
  have hencoding : ∀ encoding ∈ page.encoding, EncodingMessage.decode encoding.encode = .ok encoding := by
    intro encoding hsome
    have hmem : .bytes 4 encoding.encode ∈ page.written := by
      simp [written, Option.mem_def.mp hsome]
    exact EncodingMessage.decode_encode ((length_le_of_bytes_mem hmem).trans hfit)
  have hfold : page.written.foldlM (fun state field => step state field.number field.value)
      ⟨[], [], 0, none, 0⟩ = .ok page := by
    obtain ⟨offsets, sizes, length, encoding, priority⟩ := page
    have hsizes : offsets = [] → sizes = [] := by
      rintro rfl
      exact List.length_eq_zero_iff.mp hpaired.symm
    have hpacked (values : List UInt64) : decodePackedU64 (packU64 values) = .ok values :=
      decodePackedFrom_packU64 _ values
    by_cases hoffsets : offsets = [] <;> cases encoding <;> by_cases hpriority : priority = 0 <;>
      simp_all [written, WrittenField.number, WrittenField.value, step]
  rw [decode, WireReader.new, fold_writeFields step _ hfit page.written_numbers le_rfl, hfold,
    ok_bind, rejectIf_neg (not_not.mpr hpaired), ok_bind]

end PageMessage

/-- `lance.file.v2.ColumnMetadata`. -/
structure ColumnMetadataMessage where
  encoding : Option EncodingMessage
  pages : List PageMessage
  deriving DecidableEq

namespace ColumnMetadataMessage

def step (message : ColumnMetadataMessage) : ℕ → WireValue → Except WireError ColumnMetadataMessage
  | 1, .bytes bytes => do
      let encoding ← EncodingMessage.decode bytes
      .ok { message with encoding := some encoding }
  | 2, .bytes bytes => do
      let page ← PageMessage.decode bytes
      .ok { message with pages := message.pages ++ [page] }
  | _, _ => .ok message

def decode (raw : Bytes) : Except WireError ColumnMetadataMessage :=
  WireReader.fold step ⟨none, []⟩ (.new raw)

def encode (message : ColumnMetadataMessage) : Bytes :=
  (match message.encoding with
  | some encoding => writeBytesField 1 encoding.encode
  | none => []) ++
    message.pages.flatMap fun page => writeBytesField 2 page.encode

/-- Every page has as many offsets as sizes. -/
def Paired (message : ColumnMetadataMessage) : Prop :=
  ∀ page ∈ message.pages, page.bufferOffsets.length = page.bufferSizes.length

def written (message : ColumnMetadataMessage) : List WrittenField :=
  (message.encoding.map fun encoding => .bytes 1 encoding.encode).toList ++
    message.pages.map fun page => .bytes 2 page.encode

theorem encode_eq (message : ColumnMetadataMessage) :
    message.encode = writeFields message.written := by
  obtain ⟨_ | encoding, pages⟩ := message <;>
    simp [encode, writeFields, written, WrittenField.write, List.flatMap_map]

theorem decode_encode {message : ColumnMetadataMessage} (hpaired : message.Paired)
    (hfit : message.encode.length ≤ usizeMax) : decode message.encode = .ok message := by
  rw [encode_eq] at *
  have hnumbers : ∀ field ∈ message.written, 0 < field.number ∧ field.number < 2 ^ 32 := by
    obtain ⟨_ | encoding, pages⟩ := message <;> simp [written, WrittenField.number]
  have hencoding : (message.encoding.map fun encoding =>
      WrittenField.bytes 1 encoding.encode).toList.foldlM
      (fun state field => step state field.number field.value) ⟨none, []⟩ =
        .ok ⟨message.encoding, []⟩ := by
    obtain ⟨_ | encoding, pages⟩ := message
    · rfl
    · have hdecode := EncodingMessage.decode_encode
        ((length_le_of_bytes_mem List.mem_cons_self).trans hfit)
      simp [WrittenField.number, WrittenField.value, step, hdecode]
  have hstep : ∀ state : ColumnMetadataMessage, ∀ page ∈ message.pages,
      step state 2 (.bytes page.encode) = .ok { state with pages := state.pages ++ [page] } := by
    intro state page hpage
    have hmem : .bytes 2 page.encode ∈ message.written :=
      List.mem_append_right _ (List.mem_map.mpr ⟨page, hpage, rfl⟩)
    rw [step, PageMessage.decode_encode (hpaired page hpage)
      ((length_le_of_bytes_mem hmem).trans hfit), ok_bind]
  have hpush (pages : List PageMessage) (state : ColumnMetadataMessage) :
      pages.foldl (fun state page => { state with pages := state.pages ++ [page] }) state =
        { state with pages := state.pages ++ pages } := by
    induction pages generalizing state with
    | nil => rw [List.append_nil]; rfl
    | cons page pages ih => rw [List.foldl_cons, ih, List.append_assoc]; rfl
  rw [decode, WireReader.new, fold_writeFields step _ hfit hnumbers le_rfl, written,
    List.foldlM_append, hencoding, ok_bind, List.foldlM_map]
  exact (foldlM_eq_ok hstep _).trans (congrArg Except.ok (hpush message.pages _))

end ColumnMetadataMessage

/-! ### The codec -/

/-- What is read as a number is the number that the bytes spell, and it has 64 bits. -/
def ReadsSpelled (reader : WireReader) : Prop :=
  ∀ value reader', reader.readVarint = .ok (value, reader') →
    ∃ varint, reader.rest = varint ++ reader'.rest ∧ IsVarint varint ∧
      spelled varint < 2 ^ 64 ∧ value = spelled varint

/-- A tenth byte that ends a number is a single bit. -/
def TenthByteFits (bytes : Bytes) : Prop :=
  ∀ byte, bytes[9]? = some byte → (∀ before ∈ bytes.take 9, Continues before) →
    ¬Continues byte → byte.toNat ≤ 1

theorem readsSpelled_iff (reader : WireReader) :
    ReadsSpelled reader ↔ TenthByteFits reader.rest := by
  constructor
  · intro hreads byte hbyte hbefore hlast
    obtain ⟨hlt, rfl⟩ := List.getElem?_eq_some_iff.mp hbyte
    have hlength : (reader.rest.take 9).length = 9 := List.length_take_of_le (by omega)
    have hsplit : reader.rest = reader.rest.take 9 ++ [reader.rest[9]] ++ reader.rest.drop 10 := by
      rw [List.append_assoc, List.singleton_append, ← List.drop_eq_getElem_cons hlt,
        List.take_append_drop]
    obtain ⟨varint, hrest, -, hspelled, -⟩ := hreads _ ⟨reader.buf, reader.rest.drop 10⟩
      (WireReader.readVarint_eq_ok.mpr ⟨_, hsplit, isVarint_append hbefore hlast,
        by rw [List.length_append, hlength]; rfl, rfl, rfl⟩)
    obtain rfl := List.append_cancel_right (hsplit.symm.trans hrest)
    exact (spelled_lt_two_pow_iff hlength.le hlast).mp hspelled hlength
  · intro hfits value reader' hread
    obtain ⟨varint, hrest, hvarint, hlength, rfl, -⟩ := WireReader.readVarint_eq_ok.mp hread
    obtain ⟨init, last, rfl, hinit, hlast⟩ := hvarint.eq_append
    rw [List.length_append, List.length_singleton] at hlength
    have hspelled : spelled (init ++ [last]) < 2 ^ 64 := by
      refine (spelled_lt_two_pow_iff (by omega) hlast).mpr fun hnine => ?_
      refine hfits last ?_ ?_ hlast <;> rw [hrest, List.append_assoc]
      · rw [List.getElem?_append_right hnine.le, hnine]
        rfl
      · rw [List.take_left' hnine]
        exact hinit
    exact ⟨_, hrest, isVarint_append hinit hlast, hspelled, Nat.mod_eq_of_lt hspelled⟩

/-- Every number and every message is read back as it was written, if a buffer can hold
it. A number that was not written here is read as what it spells, unless it has ten
bytes and the last one has more than its lowest bit. -/
theorem codec_faithful_iff (reader : WireReader) (value : UInt64) (buf rest : Bytes)
    (descriptor : FileDescriptor) (column : ColumnMetadataMessage)
    (hnamed : descriptor.schema.WellNamed) (hpaired : column.Paired)
    (hdescriptor : descriptor.encode.length ≤ usizeMax) (hcolumn : column.encode.length ≤ usizeMax) :
    WireReader.readVarint ⟨buf, writeVarint value.toNat ++ rest⟩ =
        .ok (value.toNat, ⟨buf, rest⟩) ∧
      FileDescriptor.decode descriptor.encode = .ok descriptor ∧
      ColumnMetadataMessage.decode column.encode = .ok column ∧
      (ReadsSpelled reader ↔ TenthByteFits reader.rest) :=
  ⟨readVarint_writeVarint value.toNat_lt buf rest, FileDescriptor.decode_encode hnamed hdescriptor,
    ColumnMetadataMessage.decode_encode hpaired hcolumn, readsSpelled_iff reader⟩

def sampleDescriptor : FileDescriptor :=
  ⟨⟨[⟨"a", 1, -1, "int64", true, some 1⟩]⟩, 3⟩

def sampleColumn : ColumnMetadataMessage :=
  ⟨some ⟨none⟩, [⟨[64], [24], 3, some ⟨some [10, 1, 97]⟩, 0⟩]⟩

theorem samples_round_trip :
    FileDescriptor.decode sampleDescriptor.encode = .ok sampleDescriptor ∧
      ColumnMetadataMessage.decode sampleColumn.encode = .ok sampleColumn := by
  have hname : (utf8Bytes "a").length = 1 := by decide
  have htype : (utf8Bytes "int64").length = 5 := by decide
  have hparent : (asU64 (-1)).toNat = 18446744073709551615 := by decide
  have hid : (asU64 1).toNat = 1 := by decide
  have hdescriptor : sampleDescriptor.encode.length ≤ usizeMax := by
    simp [sampleDescriptor, FileDescriptor.encode, SchemaMessage.encode, FieldMessage.encode,
      writeStringField, writeBytesField, writeVarintField, writeKey, writeVarint_of_lt,
      writeVarint_of_ge, hname, htype, hparent, hid, usizeMax]
  have hcolumn : sampleColumn.encode.length ≤ usizeMax := by
    simp [sampleColumn, ColumnMetadataMessage.encode, EncodingMessage.encode, PageMessage.encode,
      writePackedU64Field, packU64, writeBytesField, writeVarintField, writeKey, writeVarint_of_lt,
      usizeMax]
  have h := codec_faithful_iff (.new []) 0 [] [] sampleDescriptor sampleColumn
    (by unfold SchemaMessage.WellNamed; decide) (by unfold ColumnMetadataMessage.Paired; decide)
    hdescriptor hcolumn
  exact ⟨h.2.1, h.2.2.1⟩

/-- Nine bytes that continue and a two spell the first number that has no 64 bits. It
is read as zero. -/
theorem tenth_byte_lost :
    WireReader.readVarint (.new [128, 128, 128, 128, 128, 128, 128, 128, 128, 2]) =
        .ok (0, ⟨[128, 128, 128, 128, 128, 128, 128, 128, 128, 2], []⟩) ∧
      spelled [128, 128, 128, 128, 128, 128, 128, 128, 128, 2] = 2 ^ 64 :=
  ⟨by rfl, by decide⟩

end Maskura.Lance
