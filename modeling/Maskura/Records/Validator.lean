import Maskura.Records.Decoder

/-!
The validator of what a pipeline puts out. It decodes the bytes of all records
as one stream, in chunks no longer than a source frame, and for JSON lines also
parses every line.
-/

namespace Maskura.Records

open Lib

structure OutputValidator where
  format : Format
  decoder : Decoder
  maxFrameBytes : ℕ
  inputSeen : Bool
  finished : Bool
  deriving DecidableEq

/-- The chunks of at most `fuel` bytes. -/
def chunksLoop (size : ℕ) : ℕ → Bytes → List Bytes
  | 0, _ => []
  | fuel + 1, bytes =>
      if bytes.isEmpty then [] else bytes.take size :: chunksLoop size fuel (bytes.drop size)

/-- `bytes.chunks(size)`; every chunk takes a byte. -/
def chunks (size : ℕ) (bytes : Bytes) : List Bytes := chunksLoop size bytes.length bytes

variable (P : Parsers)

/-- A line of JSON lines is one JSON value. -/
def validateLine (format : Format) (record : Record) : Except MaskuraError Unit :=
  if format = .jsonl then do
    validateUtf8 P record.payload .decodeEncoding
    match P.json record.payload with
    | .value => .ok ()
    | .eof message => .error ⟨.decodeJsonl, message⟩
    | .error message => .error ⟨.decodeJsonl, message⟩
  else .ok ()

namespace OutputValidator

def new (format : Format) (limits : DecoderLimits) : Except MaskuraError OutputValidator := do
  let decoder ← Decoder.new format limits
  return ⟨format, decoder, limits.maxSourceFrameBytes, false, false⟩

/-- The loop of `drain_records`; every record but the ready one and the last
takes a byte from the buffer. -/
def drainLoop : ℕ → OutputValidator → Except MaskuraError OutputValidator
  | 0, v => .ok v
  | fuel + 1, v => do
      let (record, decoder) ← v.decoder.nextRecord P
      let v := { v with decoder }
      match record with
      | none => return v
      | some record =>
          validateLine P v.format record
          drainLoop fuel v

def drainRecords (v : OutputValidator) : Except MaskuraError OutputValidator :=
  drainLoop P (v.decoder.pending.length + 2) v

def pushChunk (v : OutputValidator) (chunk : Bytes) : Except MaskuraError OutputValidator := do
  let decoder ← v.decoder.push P chunk
  drainRecords P { v with decoder }

def pushBytes (v : OutputValidator) (bytes : Bytes) : Except MaskuraError OutputValidator :=
  (chunks v.maxFrameBytes bytes).foldlM (pushChunk P)
    { v with inputSeen := v.inputSeen || !bytes.isEmpty }

def pushRecord (v : OutputValidator) (record : Record) : Except MaskuraError OutputValidator := do
  rejectIf (v.finished = true) ⟨.internal, "cannot validate output after finish"⟩
  let v ← v.pushBytes P record.payload
  v.pushBytes P record.separator

/-- An empty output is fine for every format. -/
def finish (v : OutputValidator) : Except MaskuraError OutputValidator :=
  if v.finished then .ok v
  else if !v.inputSeen then .ok { v with finished := true }
  else do
    let decoder ← v.decoder.finish P
    drainRecords P { v with finished := true, decoder }

end OutputValidator

end Maskura.Records
