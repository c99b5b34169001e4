import Maskura.Lib.Result
import Maskura.Lib.Run
import Maskura.Lib.Utf8

/-!
The record decoder: a stream that arrives in frames is cut into records, each
with its payload and the separator behind it. Lines, CSV records, one JSON
document and unstructured bytes share one buffer.

The JSON and CSV parsers are parameters. A failed call leaves no decoder: the
callers give up at the first error.
-/

namespace Maskura.Records

open Lib Lib.Run Lib.Utf8

abbrev Bytes := List UInt8

inductive Format
  | text
  | jsonl
  | tsv
  | csv
  | json
  | binary
  deriving DecidableEq, Repr

structure Record where
  payload : Bytes
  separator : Bytes
  deriving DecidableEq, Repr

structure DecoderLimits where
  maxSourceFrameBytes : ℕ
  maxRecordBytes : ℕ
  maxJsonDocumentBytes : ℕ
  maxCsvFields : ℕ
  deriving DecidableEq

/-- `DecoderLimits::default`. -/
def DecoderLimits.default : DecoderLimits where
  maxSourceFrameBytes := 1024 * 1024
  maxRecordBytes := 8 * 1024 * 1024
  maxJsonDocumentBytes := 8 * 1024 * 1024
  maxCsvFields := 16384

inductive CsvState
  | fieldStart
  | unquoted
  | quoted
  | quoteClosed
  deriving DecidableEq, Repr

inductive Code
  | configInvalid
  | internal
  | limitInputBytes
  | recordTooLarge
  | decodeEncoding
  | decodeCsv
  | decodeJson
  | decodeJsonl
  | decodeInvalidOutput
  | limitFinishBytes
  | limitIntermediateBytes
  | limitOutputBytes
  | limitExpansion
  | limitPluginCount
  | wasmTrap
  | wasmReject
  | wasmFuel
  | wasmDeadline
  | wasmCancelled
  deriving DecidableEq, Repr

structure MaskuraError where
  code : Code
  message : String
  deriving DecidableEq, Repr

/-- What `serde_json::from_slice` says about a document. -/
inductive JsonRead
  | value
  | eof (message : String)
  | error (message : String)
  deriving DecidableEq

/-- What `csv_core`'s `read_record` returns: whether a record was read, how much
input was used and how many fields there are. -/
structure CsvRead where
  record : Bool
  consumed : ℕ
  fields : ℕ
  deriving DecidableEq

/-- The parsers the decoder calls. -/
structure Parsers where
  json : Bytes → JsonRead
  /-- The input, the room for output bytes and the room for field ends. -/
  csv : Bytes → ℕ → ℕ → CsvRead
  utf8Message : Bytes → String

structure Decoder where
  format : Format
  limits : DecoderLimits
  pending : Bytes
  ready : Option Record
  scanOffset : ℕ
  csvState : CsvState
  csvFields : ℕ
  finished : Bool
  complete : Bool
  inputSeen : Bool
  recordsEmitted : ℕ
  deriving DecidableEq

def limitError (code : Code) (kind : String) (actual limit : ℕ) : MaskuraError :=
  ⟨code, s!"{kind} size {actual} exceeds limit {limit}"⟩

def lf : UInt8 := '\n'.toUInt8
def cr : UInt8 := '\r'.toUInt8
def comma : UInt8 := ','.toUInt8
def quote : UInt8 := '\x22'.toUInt8

variable (P : Parsers)

def validateUtf8 (input : Bytes) (code : Code) : Except MaskuraError Unit :=
  if isUtf8 input then .ok () else .error ⟨code, P.utf8Message input⟩

namespace Decoder

def new (format : Format) (limits : DecoderLimits) : Except MaskuraError Decoder := do
  rejectIf (limits.maxSourceFrameBytes = 0 ∨ limits.maxRecordBytes = 0 ∨
    limits.maxJsonDocumentBytes = 0 ∨ limits.maxCsvFields = 0)
    ⟨.configInvalid, "decoder limits must be greater than zero"⟩
  return {
    format, limits
    pending := []
    ready := none
    scanOffset := 0
    csvState := .fieldStart
    csvFields := 1
    finished := false
    complete := false
    inputSeen := false
    recordsEmitted := 0 }

def ensurePendingLimit (d : Decoder) (max : ℕ) (kind : String) : Except MaskuraError Unit :=
  rejectIf (max < d.pending.length) (limitError .recordTooLarge kind d.pending.length max)

/-- `emit`: the record at the front of the buffer is ready. -/
def emit (d : Decoder) (payloadEnd separatorStart consumed : ℕ) (utf8Code : Code) :
    Except MaskuraError Decoder := do
  rejectIf (d.limits.maxRecordBytes < payloadEnd)
    (limitError .recordTooLarge "record" payloadEnd d.limits.maxRecordBytes)
  validateUtf8 P (d.pending.take payloadEnd) utf8Code
  return { d with
    pending := d.pending.drop consumed
    ready := some ⟨d.pending.take payloadEnd, slice d.pending separatorStart consumed⟩
    scanOffset := 0 }

/-- `emit_final`: all that is buffered is the last record. -/
def emitFinal (d : Decoder) : Decoder :=
  { d with
    pending := []
    ready := some ⟨d.pending, []⟩
    inputSeen := true
    complete := true
    scanOffset := 0 }

def prepareBinary (d : Decoder) (atEof : Bool) : Except MaskuraError Decoder :=
  if d.pending.isEmpty then .ok (if atEof then { d with complete := true } else d)
  else do
    rejectIf (d.limits.maxRecordBytes < d.pending.length)
      (limitError .recordTooLarge "record" d.pending.length d.limits.maxRecordBytes)
    return { d with pending := [], ready := some ⟨d.pending, []⟩, inputSeen := true, scanOffset := 0 }

def prepareLine (d : Decoder) (atEof : Bool) : Except MaskuraError Decoder :=
  match (d.pending.drop d.scanOffset).findIdx? (· == lf) with
  | some relativeEnd =>
      let stop := d.scanOffset + relativeEnd
      -- a CR in front of the LF belongs to the separator
      let payloadEnd := if 0 < stop ∧ d.pending[stop - 1]? = some cr then stop - 1 else stop
      d.emit P payloadEnd payloadEnd (stop + 1) .decodeEncoding
  | none => do
      let d := { d with scanOffset := d.pending.length }
      d.ensurePendingLimit d.limits.maxRecordBytes "record"
      if atEof ∧ (d.pending ≠ [] ∨ d.inputSeen = false) then
        validateUtf8 P d.pending .decodeEncoding
        return d.emitFinal
      else if atEof then return { d with complete := true }
      else return d

def prepareJson (d : Decoder) (atEof : Bool) : Except MaskuraError Decoder := do
  d.ensurePendingLimit d.limits.maxJsonDocumentBytes "JSON document"
  if !atEof then return d
  else if d.pending.isEmpty then return { d with complete := true }
  else
    validateUtf8 P d.pending .decodeEncoding
    match P.json d.pending with
    | .value => return d.emitFinal
    | .eof message => .error ⟨.decodeJson, message⟩
    | .error message => .error ⟨.decodeJson, message⟩

/-- The end of the payload and of the separator for a terminator at `pos`, unless
it is a CR whose LF may still come. -/
def csvBoundary (d : Decoder) (pos : ℕ) (atEof : Bool) : Option (ℕ × ℕ) :=
  if d.pending[pos]? = some lf then some (pos, pos + 1)
  else if pos + 1 < d.pending.length then
    if d.pending[pos + 1]? = some lf then some (pos, pos + 2) else some (pos, pos + 1)
  else if atEof then some (pos, pos + 1)
  else none

def resetCsvState (d : Decoder) : Decoder :=
  { d with csvState := .fieldStart, csvFields := 1, scanOffset := 0 }

def consumeCsvEmpty (d : Decoder) (consumed : ℕ) : Decoder :=
  ({ d with pending := d.pending.drop consumed } : Decoder).resetCsvState

def incrementCsvFields (d : Decoder) : Except MaskuraError Decoder := do
  rejectIf (d.limits.maxCsvFields < d.csvFields + 1)
    (limitError .recordTooLarge "CSV field count" (d.csvFields + 1) d.limits.maxCsvFields)
  return { d with csvFields := d.csvFields + 1 }

def validateCsv (d : Decoder) (payloadEnd : ℕ) : Except MaskuraError Unit := do
  let input := d.pending.take payloadEnd ++ [lf]
  let read := P.csv input (payloadEnd + 1) d.limits.maxCsvFields
  rejectIf (read.record = false ∨ read.consumed ≠ input.length)
    ⟨.decodeCsv, "CSV parser did not produce one complete record"⟩
  rejectIf (d.limits.maxCsvFields < read.fields)
    (limitError .recordTooLarge "CSV field count" read.fields d.limits.maxCsvFields)

def emitCsv (d : Decoder) (payloadEnd separatorEnd : ℕ) : Except MaskuraError Decoder := do
  d.validateCsv P payloadEnd
  validateUtf8 P (d.pending.take payloadEnd) .decodeEncoding
  let d ← d.emit P payloadEnd payloadEnd separatorEnd .decodeCsv
  return d.resetCsvState

/-- The scan goes on at the next byte, in the given state. -/
def advance (d : Decoder) (state : CsvState) : Decoder :=
  { d with csvState := state, scanOffset := d.scanOffset + 1 }

/-- The loop of `prepare_csv`; `true` when it returned with a record. Every round
leaves less to scan, so the length of the buffer bounds it. -/
def csvLoop (atEof : Bool) : ℕ → Decoder → Except MaskuraError (Bool × Decoder)
  | 0, d => .ok (false, d)
  | fuel + 1, d =>
      match d.pending[d.scanOffset]? with
      | none => .ok (false, d)
      | some byte =>
          let terminator := byte = lf ∨ byte = cr
          match d.csvState with
          | .fieldStart =>
              if byte = quote then csvLoop atEof fuel (d.advance .quoted)
              else if byte = comma then do
                let d ← d.incrementCsvFields
                csvLoop atEof fuel (d.advance .fieldStart)
              else if terminator then
                match d.csvBoundary d.scanOffset atEof with
                | some (payloadEnd, separatorEnd) =>
                    -- an empty record is passed over
                    if payloadEnd = 0 then csvLoop atEof fuel (d.consumeCsvEmpty separatorEnd)
                    else do
                      let d ← d.emitCsv P payloadEnd separatorEnd
                      return (true, d)
                | none => .ok (false, d)
              else csvLoop atEof fuel (d.advance .unquoted)
          | .unquoted =>
              if byte = comma then do
                let d ← d.incrementCsvFields
                csvLoop atEof fuel (d.advance .fieldStart)
              else if byte = quote then
                .error ⟨.decodeCsv, "quote inside an unquoted CSV field"⟩
              else if terminator then
                match d.csvBoundary d.scanOffset atEof with
                | some (payloadEnd, separatorEnd) => do
                    let d ← d.emitCsv P payloadEnd separatorEnd
                    return (true, d)
                | none => .ok (false, d)
              else csvLoop atEof fuel (d.advance .unquoted)
          | .quoted =>
              csvLoop atEof fuel (d.advance (if byte = quote then .quoteClosed else .quoted))
          | .quoteClosed =>
              if byte = quote then csvLoop atEof fuel (d.advance .quoted)
              else if byte = comma then do
                let d ← d.incrementCsvFields
                csvLoop atEof fuel (d.advance .fieldStart)
              else if terminator then
                match d.csvBoundary d.scanOffset atEof with
                | some (payloadEnd, separatorEnd) => do
                    let d ← d.emitCsv P payloadEnd separatorEnd
                    return (true, d)
                | none => .ok (false, d)
              else .error ⟨.decodeCsv, "unexpected byte after closing CSV quote"⟩

def prepareCsv (d : Decoder) (atEof : Bool) : Except MaskuraError Decoder := do
  let (returned, d) ← csvLoop P atEof d.pending.length d
  if returned then return d
  d.ensurePendingLimit d.limits.maxRecordBytes "CSV record"
  if atEof then
    rejectIf (d.csvState = .quoted) ⟨.decodeCsv, "unterminated quoted CSV field"⟩
    if d.pending ≠ [] then
      d.validateCsv P d.pending.length
      validateUtf8 P d.pending .decodeEncoding
      return d.emitFinal.resetCsvState
    else return { d with complete := true }
  else return d

def prepareNext (d : Decoder) (atEof : Bool) : Except MaskuraError Decoder :=
  if d.ready.isSome || d.complete then .ok d
  else
    match d.format with
    | .text | .jsonl | .tsv => d.prepareLine P atEof
    | .csv => d.prepareCsv P atEof
    | .json => d.prepareJson P atEof
    | .binary => d.prepareBinary atEof

def push (d : Decoder) (chunk : Bytes) : Except MaskuraError Decoder := do
  rejectIf (d.finished = true) ⟨.internal, "cannot push after decoder finish"⟩
  rejectIf (d.ready.isSome = true)
    ⟨.internal, "drain the ready record before pushing another source frame"⟩
  rejectIf (d.limits.maxSourceFrameBytes < chunk.length)
    (limitError .limitInputBytes "source frame" chunk.length d.limits.maxSourceFrameBytes)
  ({ d with
    inputSeen := d.inputSeen || !chunk.isEmpty
    pending := d.pending ++ chunk } : Decoder).prepareNext P false

def nextRecord (d : Decoder) : Except MaskuraError (Option Record × Decoder) := do
  let d ← if d.ready.isNone then d.prepareNext P d.finished else .ok d
  return (d.ready, { d with
    ready := none
    recordsEmitted := if d.ready.isSome then d.recordsEmitted + 1 else d.recordsEmitted })

def finish (d : Decoder) : Except MaskuraError Decoder :=
  if d.finished then .ok d
  else do
    rejectIf (d.ready.isSome = true)
      ⟨.internal, "drain the ready record before finishing the decoder"⟩
    let d ← ({ d with finished := true } : Decoder).prepareNext P true
    rejectIf (d.format = .csv ∧ d.ready.isNone = true ∧ d.recordsEmitted = 0)
      ⟨.decodeCsv, "no CSV records found"⟩
    return d

/-- `next_record` until it returns none, at most `fuel` times. -/
def drain : ℕ → Decoder → Except MaskuraError (List Record × Decoder)
  | 0, d => .ok ([], d)
  | fuel + 1, d => do
      let (record, d) ← d.nextRecord P
      match record with
      | none => return ([], d)
      | some record =>
          let (records, d) ← drain fuel d
          return (record :: records, d)

/-- Every record takes at least a byte from the buffer, but for the one that is
ready and the one at the end. -/
def drainAll (d : Decoder) : Except MaskuraError (List Record × Decoder) :=
  drain P (d.pending.length + 2) d

end Decoder

/-- One frame pushed, and the decoder drained. -/
def pushFrame (state : List Record × Decoder) (frame : Bytes) :
    Except MaskuraError (List Record × Decoder) := do
  let d ← state.2.push P frame
  let (more, d) ← d.drainAll P
  return (state.1 ++ more, d)

/-- A whole stream: its frames, and then the end. -/
def decode (format : Format) (limits : DecoderLimits) (frames : List Bytes) :
    Except MaskuraError (List Record) := do
  let d ← Decoder.new format limits
  let (records, d) ← frames.foldlM (pushFrame P) ([], d)
  let d ← d.finish P
  let (more, _) ← d.drainAll P
  return records ++ more

end Maskura.Records
