import Maskura.Lib.Batch
import Maskura.Policy.Canonical

/-!
The incremental decoder of `aws-chunked` bodies. A body is a sequence of chunks,
each behind a line with its size and, in the signed modes, its signature; every
signature covers the one before it. The last chunk is empty and is followed by
an empty line or by trailers.

A `str` is the list of its UTF-8 bytes. The digest that the decoder feeds piece
by piece is the list of the bytes fed.
-/

namespace Maskura.Integrity

open Maskura.Lib
open Maskura.Persistence (Bytes)
open Maskura.Policy (hexEncode isWhitespace trim)

/-- SHA-256 and HMAC-SHA-256. -/
structure Crypto where
  sha256 : Bytes → Bytes
  hmac : Bytes → Bytes → Bytes

inductive IntegrityError
  | conflictingChecksum
  | decodedLengthMismatch
  | duplicateTrailer (name : Bytes)
  | framing (message : String)
  | invalidPayloadHash
  | missingChecksum
  | oversizedFraming
  | signatureMismatch
  | trailingData
  | truncated
  deriving DecidableEq

structure StreamingSigning where
  signingKey : Bytes
  timestamp : Bytes
  scope : Bytes
  seedSignature : Bytes

inductive StreamingMode
  | signed
  | signedTrailer
  | unsignedTrailer
  deriving DecidableEq

inductive DecodeState
  | header
  | data
  | dataCrlf (matched : ℕ)
  | finalCrlf (matched : ℕ)
  | trailers
  | done
  deriving DecidableEq

structure AwsChunkedDecoder where
  mode : StreamingMode
  signing : StreamingSigning
  previousSignature : Bytes
  state : DecodeState
  line : Bytes
  chunkRemaining : ℕ
  chunkHasher : Bytes
  expectedChunkSignature : Option Bytes
  expectedDecodedLength : ℕ
  decodedLength : ℕ
  chunks : ℕ
  trailerBytes : ℕ
  trailerCount : ℕ
  declaredTrailer : Option Bytes
  checksumTrailer : Option (Bytes × Bytes)
  trailerSignature : Option Bytes

def emptySha256 : Bytes :=
  utf8Bytes "e3b0c44298fc1c149afbf4c8996fb92427ae41e4649b934ca495991b7852b855"

def maxChunkHeaderBytes : ℕ := 8 * 1024
def maxTrailerLineBytes : ℕ := 8 * 1024
def maxTrailerBytes : ℕ := 16 * 1024
def maxTrailers : ℕ := 16
def maxChunks : ℕ := 100000
def maxChunkBytes : ℕ := 16 * 1024 * 1024

def cr : UInt8 := 13
def lf : UInt8 := 10
def crlf : Bytes := [cr, lf]

/-! ### Hexadecimal -/

def isHexDigit (byte : UInt8) : Bool := (hexValue byte).isSome

/-- `hex::encode`. -/
def hexBytes (bytes : Bytes) : Bytes := utf8Bytes (hexEncode bytes)

/-- `hex::decode`. -/
def hexDecode : Bytes → Option Bytes
  | [] => some []
  | [_] => none
  | high :: low :: rest =>
      match hexValue high, hexValue low, hexDecode rest with
      | some h, some l, some bytes => some (UInt8.ofNat (16 * h + l) :: bytes)
      | _, _, _ => none

/-- `u64::from_str_radix` on at most sixteen digits. -/
def parseHex (digits : Bytes) : ℕ := digits.foldl (fun n byte => 16 * n + (hexValue byte).getD 0) 0

def parseSha256 (value : Bytes) : Except IntegrityError Unit :=
  rejectIf (value.length ≠ 64 ∨ value.all isHexDigit = false) .invalidPayloadHash

def constantTimeEq (left right : Bytes) : Bool :=
  left.length == right.length &&
    (left.zip right).foldl (fun difference pair => difference ||| (pair.1 ^^^ pair.2)) 0 == 0

def constantTimeHexEq (left right : Bytes) : Bool :=
  match hexDecode left, hexDecode right with
  | some left, some right => constantTimeEq left right
  | _, _ => false

/-! ### Lines -/

/-- `take_line`: the line, if it is complete, what is buffered and what is left
of the input. -/
def takeLine (limit : ℕ) : (buffer input : Bytes) → Except IntegrityError (Option Bytes × Bytes × Bytes)
  | buffer, [] => .ok (none, buffer, [])
  | buffer, byte :: rest =>
      if crlf <:+ buffer ++ [byte] then
        .ok (some ((buffer ++ [byte]).take ((buffer ++ [byte]).length - 2)), [], rest)
      -- one byte over the limit is allowed to the CR of a line that is just as long
      else if limit < (buffer ++ [byte]).length ∧
          ((buffer ++ [byte]).length ≠ limit + 1 ∨ byte ≠ cr) then
        .error .oversizedFraming
      else takeLine limit (buffer ++ [byte]) rest

/-- The CRLF behind a chunk, of which `matched` bytes have been seen. -/
def matchCrlf (message : String) : (matched : ℕ) → (input : Bytes) →
    Except IntegrityError (ℕ × Bytes)
  | matched, [] => .ok (matched, [])
  | matched, byte :: rest =>
      if matched < 2 then
        if byte ≠ (if matched = 0 then cr else lf) then .error (.framing message)
        else matchCrlf message (matched + 1) rest
      else .ok (matched, byte :: rest)

/-- The text is well formed. -/
def fromUtf8 (message : String) (line : Bytes) : Except IntegrityError Unit :=
  rejectIf (Utf8.isUtf8 line = false) (.framing message)

/-- `value.trim() == value`. -/
def isTrimmed (value : Bytes) : Bool :=
  match (ByteArray.mk value.toArray).utf8Decode? with
  | some text => trim text.toList = text.toList
  | none => false

def isTrailerNameByte (byte : UInt8) : Bool :=
  (97 ≤ byte ∧ byte ≤ 122) ∨ (48 ≤ byte ∧ byte ≤ 57) ∨ byte = 45

def semicolon : UInt8 := 59
def colon : UInt8 := 58

/-- `hexsize;extension`. -/
def splitHeader (line : Bytes) : Bytes × Option Bytes :=
  match Text.splitOnce semicolon line with
  | some (size, extension) => (size, some extension)
  | none => (line, none)

namespace AwsChunkedDecoder

def new (mode : StreamingMode) (expectedDecodedLength : ℕ) (declaredTrailer : Option Bytes)
    (signing : StreamingSigning) : AwsChunkedDecoder where
  mode := mode
  signing := signing
  previousSignature := signing.seedSignature
  state := .header
  line := []
  chunkRemaining := 0
  chunkHasher := []
  expectedChunkSignature := none
  expectedDecodedLength := expectedDecodedLength
  decodedLength := 0
  chunks := 0
  trailerBytes := 0
  trailerCount := 0
  declaredTrailer := declaredTrailer
  checksumTrailer := none
  trailerSignature := none

variable (crypto : Crypto) (d : AwsChunkedDecoder)

def chunkStringToSign (signing : StreamingSigning) (previousSignature chunkHash : Bytes) : Bytes :=
  utf8Bytes "AWS4-HMAC-SHA256-PAYLOAD\n" ++ signing.timestamp ++ [lf] ++ signing.scope ++ [lf] ++
    previousSignature ++ [lf] ++ emptySha256 ++ [lf] ++ chunkHash

def trailerStringToSign (signing : StreamingSigning) (previousSignature trailerHash : Bytes) :
    Bytes :=
  utf8Bytes "AWS4-HMAC-SHA256-TRAILER\n" ++ signing.timestamp ++ [lf] ++ signing.scope ++ [lf] ++
    previousSignature ++ [lf] ++ trailerHash

def verifyChunkSignature : Except IntegrityError AwsChunkedDecoder :=
  match d.expectedChunkSignature with
  | none => .ok d
  | some expected => do
      let actual := hexBytes (crypto.hmac d.signing.signingKey
        (chunkStringToSign d.signing d.previousSignature (hexBytes (crypto.sha256 d.chunkHasher))))
      rejectIf (constantTimeHexEq actual expected = false) .signatureMismatch
      return { d with expectedChunkSignature := none, previousSignature := expected }

/-- What the header says of the signature. -/
def chunkSignature (mode : StreamingMode) (expected extension : Option Bytes) :
    Except IntegrityError (Option Bytes) :=
  match mode with
  | .signed | .signedTrailer => do
      let signature ← okOr
        (extension.bind fun value => value.dropPrefix? (utf8Bytes "chunk-signature="))
        (.framing "missing chunk signature")
      parseSha256 signature
      return some (toAsciiLowercase signature)
  | .unsignedTrailer => do
      rejectIf extension.isSome (.framing "unexpected chunk extension")
      return expected

/-- What begins behind the header of a chunk. -/
def enterChunk (size : ℕ) : Except IntegrityError AwsChunkedDecoder :=
  if size = 0 then do
    let d ← d.verifyChunkSignature crypto
    return { d with
      state := match d.mode with
        | .signed => .finalCrlf 0
        | .signedTrailer | .unsignedTrailer => .trailers }
  else do
    rejectIf (2 ^ 64 ≤ d.decodedLength + size) .decodedLengthMismatch
    rejectIf (d.expectedDecodedLength < d.decodedLength + size) .decodedLengthMismatch
    return { d with decodedLength := d.decodedLength + size, state := .data }

def startChunk (line : Bytes) : Except IntegrityError AwsChunkedDecoder := do
  fromUtf8 "non-ASCII header" line
  let (size, extension) := splitHeader line
  rejectIf (size = [] ∨ 16 < size.length ∨ size.all isHexDigit = false)
    (.framing "invalid chunk size")
  rejectIf (maxChunkBytes < parseHex size) .oversizedFraming
  rejectIf (maxChunks < d.chunks + 1) .oversizedFraming
  let signature ← chunkSignature d.mode d.expectedChunkSignature extension
  enterChunk crypto
    { d with
      chunks := d.chunks + 1, expectedChunkSignature := signature,
      chunkRemaining := parseHex size, chunkHasher := [] } (parseHex size)

def parseTrailer (line : Bytes) : Except IntegrityError AwsChunkedDecoder := do
  rejectIf (maxTrailers < d.trailerCount + 1) .oversizedFraming
  fromUtf8 "non-ASCII trailer" line
  let (name, value) ← okOr (Text.splitOnce colon line) (.framing "malformed trailer")
  rejectIf (name = [] ∨ name.all isTrailerNameByte = false ∨ isTrimmed value = false)
    (.framing "non-canonical trailer")
  if name = utf8Bytes "x-amz-trailer-signature" then do
    rejectIf (d.trailerSignature.isSome ∨ d.checksumTrailer.isNone) (.duplicateTrailer name)
    parseSha256 value
    return { d with
      trailerCount := d.trailerCount + 1, trailerSignature := some (toAsciiLowercase value) }
  else do
    rejectIf d.checksumTrailer.isSome (.duplicateTrailer name)
    rejectIf (d.declaredTrailer ≠ some name) .conflictingChecksum
    return { d with trailerCount := d.trailerCount + 1, checksumTrailer := some (name, value) }

def verifyTrailers : Except IntegrityError Unit := do
  let (name, value) ← okOr d.checksumTrailer .missingChecksum
  if d.mode = .signedTrailer then do
    let expected ← okOr d.trailerSignature (.framing "missing trailer signature")
    let canonical := name ++ [colon] ++ value ++ [lf]
    let actual := hexBytes (crypto.hmac d.signing.signingKey
      (trailerStringToSign d.signing d.previousSignature (hexBytes (crypto.sha256 canonical))))
    rejectIf (constantTimeHexEq actual expected = false) .signatureMismatch
  else rejectIf d.trailerSignature.isSome (.framing "unexpected trailer signature")

/-- A complete line among the trailers. -/
def trailerLine (line : Bytes) : Except IntegrityError AwsChunkedDecoder := do
  rejectIf (2 ^ 64 ≤ d.trailerBytes + (line.length + 2)) .oversizedFraming
  rejectIf (maxTrailerBytes < d.trailerBytes + (line.length + 2)) .oversizedFraming
  let d := { d with trailerBytes := d.trailerBytes + (line.length + 2) }
  if line = [] then do
    d.verifyTrailers crypto
    return { d with state := .done }
  else d.parseTrailer line

/-- Bytes of the chunk, and at its end the check of its signature. -/
def takeData (bytes : Bytes) : Except IntegrityError AwsChunkedDecoder :=
  let d := { d with
    chunkHasher := d.chunkHasher ++ bytes, chunkRemaining := d.chunkRemaining - bytes.length }
  if d.chunkRemaining = 0 then do
    let d ← d.verifyChunkSignature crypto
    return { d with state := .dataCrlf 0 }
  else .ok d

/-- Nothing may follow the end of the body. -/
def endOfBody (input : Bytes) : Except IntegrityError (AwsChunkedDecoder × Bytes × List Bytes) := do
  rejectIf (d.state = .done ∧ input ≠ []) .trailingData
  return (d, input, [])

/-- One round of the loop in `push`: the decoder, what is left of the input and
the pieces put out. -/
def advance (input : Bytes) : Except IntegrityError (AwsChunkedDecoder × Bytes × List Bytes) :=
  match d.state with
  | .header => do
      match ← takeLine maxChunkHeaderBytes d.line input with
      | (none, line, rest) => return ({ d with line := line }, rest, [])
      | (some line, buffer, rest) => do
          let d ← startChunk crypto { d with line := buffer } line
          return (d, rest, [])
  | .data => do
      let take := min d.chunkRemaining input.length
      let d ← d.takeData crypto (input.take take)
      return (d, input.drop take, if input.take take = [] then [] else [input.take take])
  | .dataCrlf matched => do
      let (matched, rest) ← matchCrlf "chunk data lacks CRLF" matched input
      return ({ d with state := if matched = 2 then .header else .dataCrlf matched }, rest, [])
  | .finalCrlf matched => do
      let (matched, rest) ← matchCrlf "final chunk lacks CRLF" matched input
      endOfBody { d with state := if matched = 2 then .done else .finalCrlf matched } rest
  | .trailers => do
      match ← takeLine maxTrailerLineBytes d.line input with
      | (none, line, rest) => return ({ d with line := line }, rest, [])
      | (some line, buffer, rest) => do
          let d ← trailerLine crypto { d with line := buffer } line
          d.endOfBody rest
  | .done => .error .trailingData

/-- A frame of the body. There is no result if the loop does not come to its end
in as many rounds as the frame has bytes. -/
def push (input : Bytes) : Option (Except IntegrityError (AwsChunkedDecoder × List Bytes)) :=
  if d.state = .done ∧ input ≠ [] then some (.error .trailingData)
  else Batch.loop (advance crypto) input.length d input

def finish : Except IntegrityError Unit := do
  rejectIf (d.state ≠ .done) .truncated
  rejectIf (d.decodedLength ≠ d.expectedDecodedLength) .decodedLengthMismatch

/-- The frames of a body, then its end: the bytes of the object and the checksum
trailer. -/
def decode (mode : StreamingMode) (expectedDecodedLength : ℕ) (declaredTrailer : Option Bytes)
    (signing : StreamingSigning) (frames : List Bytes) :
    Option (Except IntegrityError (Bytes × Option (Bytes × Bytes))) :=
  (Batch.pushAll (push crypto) (new mode expectedDecodedLength declaredTrailer signing) frames).map
    fun result => do
      let (d, pieces) ← result
      d.finish
      return (pieces.flatten, d.checksumTrailer)

end AwsChunkedDecoder

end Maskura.Integrity
