import Mathlib.Data.List.Basic
import Maskura.Lib.BigEndian
import Maskura.Lib.Result

/-!
The event-log format of `filesystem_persistence.rs`: a log file is a
sequence of frames, each a fixed header, a JSON payload and a checksum, and
`parse_frames` reads it back after a restart.

Two readings of a log live side by side. `parseFrames` works on bytes, as
the code does. `scanFrames` works on the list of events the frames carry;
it is what everything above this module reasons with. They agree on every
file the writer can leave behind, a torn last frame included.

SHA-256 and the JSON text of a payload come from other crates. They enter
as `Digest` and `PayloadCodec`, which carry the one law each is used for.
-/

namespace Maskura.Persistence

open Maskura.Lib

/-- Raw file contents. -/
abbrev Bytes := List UInt8

/-! ### Limits and errors -/

def frameMagic : Bytes := [0x4d, 0x53, 0x45, 0x4c]

def frameVersion : ℕ := 1

def frameHeaderBytes : ℕ := 17

def checksumBytes : ℕ := 32

def maxSnapshotBytes : ℕ := 32 * 1024 * 1024

def maxLogBytes : ℕ := 32 * 1024 * 1024

def maxEventPayloadBytes : ℕ := 1024 * 1024

def compactAfterEvents : ℕ := 256

def compactAfterBytes : ℕ := 4 * 1024 * 1024

/-- The values of a `u64` are the numbers below this bound. -/
def u64Bound : ℕ := 2 ^ 64

/-- `u64::saturating_add`. -/
def saturatingAdd (a b : ℕ) : ℕ := min (a + b) (u64Bound - 1)

/-- `u64` addition in a release build. -/
def wrappingAdd (a b : ℕ) : ℕ := (a + b) % u64Bound

inductive PersistenceError
  | io (operation : String)
  | mutationUnknown (operation : String)
  | corrupt (message : String)
  | unsupportedVersion (version : ℕ)
  | limitExceeded (message : String)
  | reloadRequired
  deriving DecidableEq, Repr

def PersistenceError.isMutationUnknown : PersistenceError → Bool
  | .mutationUnknown _ => true
  | _ => false

/-! ### Events and frames -/

structure LoggedEvent (τ : Type) where
  sequence : ℕ
  payload : τ
  deriving DecidableEq, Repr

structure ParsedFrames (τ : Type) where
  events : List (LoggedEvent τ) := []
  validBytes : ℕ := 0
  frameCount : ℕ := 0
  lastSequence : Option ℕ := none
  deriving DecidableEq, Repr

/-- A frame may open a log only at sequence one or right after the
snapshot, and elsewhere only right after the frame before it. -/
def checkSequence (snapshotSequence sequence : ℕ) :
    (previousSequence : Option ℕ) → Except PersistenceError Unit
  | some previous =>
      rejectIf (sequence ≠ wrappingAdd previous 1)
        (.corrupt s!"event sequence {sequence} does not follow {previous}")
  | none =>
      rejectIf (sequence ≠ 1 ∧ sequence ≠ saturatingAdd snapshotSequence 1)
        (.corrupt s!"event log starts at unexpected sequence {sequence}")

/-- A frame of `payloadLen` payload bytes on disk. -/
def frameLen (payloadLen : ℕ) : ℕ := frameHeaderBytes + payloadLen + checksumBytes

/-- What the scan knows after one more frame. An event the snapshot covers
already is counted but not returned. -/
def ParsedFrames.push {τ : Type} (parsed : ParsedFrames τ) (snapshotSequence payloadLen : ℕ)
    (event : LoggedEvent τ) : ParsedFrames τ where
  events :=
    if event.sequence > snapshotSequence then parsed.events ++ [event] else parsed.events
  validBytes := parsed.validBytes + frameLen payloadLen
  frameCount := parsed.frameCount + 1
  lastSequence := some event.sequence

/-! ### The byte format -/

/-- A hash function with 32-byte digests. -/
structure Digest where
  hash : Bytes → Bytes
  length_hash : ∀ bytes, (hash bytes).length = checksumBytes

/-- The JSON form of a payload type: what is written is read back. -/
structure PayloadCodec (τ : Type) where
  toVec : τ → Option Bytes
  fromSlice : Bytes → Option τ
  fromSlice_toVec : ∀ {payload bytes}, toVec payload = some bytes → fromSlice bytes = some payload

def frameHeader (sequence payloadLen : ℕ) : Bytes :=
  frameMagic ++ [UInt8.ofNat frameVersion] ++ beBytes 8 sequence ++ beBytes 4 payloadLen

/-- The part of a frame that its checksum covers. -/
def frameBody (sequence : ℕ) (payload : Bytes) : Bytes :=
  frameHeader sequence payload.length ++ payload

def encodeFrame (sha256 : Digest) (sequence : ℕ) (payload : Bytes) : Bytes :=
  frameBody sequence payload ++ sha256.hash (frameBody sequence payload)

structure FrameHeader where
  sequence : ℕ
  payloadLen : ℕ
  deriving DecidableEq, Repr

/-- Reads the header at the start of `remaining`; `none` is the torn tail
that ends the loop of `parse_frames`. -/
def readHeader (offset : ℕ) (remaining : Bytes) :
    Except PersistenceError (Option FrameHeader) :=
  if remaining.length < frameHeaderBytes then
    .ok none
  else do
    rejectIf (remaining.take 4 ≠ frameMagic)
      (.corrupt s!"invalid event frame magic at offset {offset}")
    let version := ((remaining.drop 4).headD 0).toNat
    rejectIf (version ≠ frameVersion) (.unsupportedVersion version)
    let sequence := beNat ((remaining.drop 5).take 8)
    let payloadLen := beNat ((remaining.drop 13).take 4)
    rejectIf (payloadLen > maxEventPayloadBytes) (.limitExceeded "event payload exceeds 1 MiB")
    return some ⟨sequence, payloadLen⟩

section ByteLog

variable {τ : Type} (sha256 : Digest) (codec : PayloadCodec τ)

/-- Checks one complete frame against its predecessor and its checksum and
decodes the payload if the snapshot does not cover it. -/
def acceptFrame (snapshotSequence : ℕ) (header : FrameHeader) (remaining : Bytes)
    (parsed : ParsedFrames τ) : Except PersistenceError (ParsedFrames τ) := do
  let sequence := header.sequence
  checkSequence snapshotSequence sequence parsed.lastSequence
  let payloadEnd := frameHeaderBytes + header.payloadLen
  rejectIf ((remaining.drop payloadEnd).take checksumBytes ≠
      sha256.hash (remaining.take payloadEnd))
    (.corrupt s!"event checksum mismatch at sequence {sequence}")
  if sequence > snapshotSequence then
    let payload ← okOr (codec.fromSlice ((remaining.drop frameHeaderBytes).take header.payloadLen))
      (.corrupt s!"invalid event payload at sequence {sequence}")
    return parsed.push snapshotSequence header.payloadLen ⟨sequence, payload⟩
  else
    return { parsed with
      validBytes := parsed.validBytes + frameLen header.payloadLen
      frameCount := parsed.frameCount + 1
      lastSequence := some sequence }

/-- The loop of `parse_frames`, from the frame at the start of `remaining`. -/
def parseFramesFrom (snapshotSequence : ℕ) (remaining : Bytes) (parsed : ParsedFrames τ) :
    Except PersistenceError (ParsedFrames τ) :=
  match readHeader parsed.validBytes remaining with
  | .error error => .error error
  | .ok none => .ok parsed
  | .ok (some header) =>
      if remaining.length < frameLen header.payloadLen then
        .ok parsed
      else
        match acceptFrame sha256 codec snapshotSequence header remaining parsed with
        | .error error => .error error
        | .ok parsed' =>
            parseFramesFrom snapshotSequence (remaining.drop (frameLen header.payloadLen)) parsed'
termination_by remaining.length
decreasing_by
  simp only [frameLen, frameHeaderBytes, checksumBytes, List.length_drop] at *
  omega

def parseFrames (bytes : Bytes) (snapshotSequence : ℕ) :
    Except PersistenceError (ParsedFrames τ) :=
  parseFramesFrom sha256 codec snapshotSequence bytes {}

end ByteLog

/-! ### The same scan over decoded frames -/

section FrameLog

variable {τ : Type} (toVec : τ → Option Bytes)

/-- Payload bytes of an event in its frame. -/
def payloadLen (payload : τ) : ℕ := ((toVec payload).getD []).length

/-- `parseFramesFrom`, read on the events of the frames. -/
def scanFramesFrom (snapshotSequence : ℕ) :
    List (LoggedEvent τ) → ParsedFrames τ → Except PersistenceError (ParsedFrames τ)
  | [], parsed => .ok parsed
  | event :: rest, parsed => do
      checkSequence snapshotSequence event.sequence parsed.lastSequence
      scanFramesFrom snapshotSequence rest
        (parsed.push snapshotSequence (payloadLen toVec event.payload) event)

def scanFrames (events : List (LoggedEvent τ)) (snapshotSequence : ℕ) :
    Except PersistenceError (ParsedFrames τ) :=
  scanFramesFrom toVec snapshotSequence events {}

end FrameLog

/-! ### The two readings agree -/

@[simp] theorem length_frameHeader (sequence payloadLen : ℕ) :
    (frameHeader sequence payloadLen).length = frameHeaderBytes := by
  simp [frameHeader, frameMagic, frameHeaderBytes]

@[simp] theorem length_frameBody (sequence : ℕ) (payload : Bytes) :
    (frameBody sequence payload).length = frameHeaderBytes + payload.length := by
  simp [frameBody]

@[simp] theorem length_encodeFrame (sha256 : Digest) (sequence : ℕ) (payload : Bytes) :
    (encodeFrame sha256 sequence payload).length = frameLen payload.length := by
  simp [encodeFrame, frameLen, sha256.length_hash]

/-- A header that was written is read back whatever follows it. -/
theorem readHeader_frameHeader {sequence payloadLen : ℕ} (offset : ℕ) (rest : Bytes)
    (hsequence : sequence < u64Bound) (hpayload : payloadLen ≤ maxEventPayloadBytes) :
    readHeader offset (frameHeader sequence payloadLen ++ rest) =
      .ok (some ⟨sequence, payloadLen⟩) := by
  have hlen : ¬(frameHeader sequence payloadLen ++ rest).length < frameHeaderBytes := by simp
  have hmagic : (frameHeader sequence payloadLen ++ rest).take 4 = frameMagic := by
    simp [frameHeader, frameMagic]
  have hversion : ((frameHeader sequence payloadLen ++ rest).drop 4).headD 0 =
      UInt8.ofNat frameVersion := by
    simp [frameHeader, frameMagic]
  have hsequenceBytes : ((frameHeader sequence payloadLen ++ rest).drop 5).take 8 =
      beBytes 8 sequence := by
    simp [frameHeader, frameMagic]
  have hpayloadBytes : ((frameHeader sequence payloadLen ++ rest).drop 13).take 4 =
      beBytes 4 payloadLen := by
    simp [frameHeader, frameMagic]
  have hsequenceValue : beNat (beBytes 8 sequence) = sequence :=
    beNat_beBytes_of_lt (by simpa [u64Bound] using hsequence)
  have hpayloadValue : beNat (beBytes 4 payloadLen) = payloadLen :=
    beNat_beBytes_of_lt (by simp only [maxEventPayloadBytes] at hpayload; omega)
  simp only [readHeader, if_neg hlen, hmagic, hversion, hsequenceBytes, hpayloadBytes,
    hsequenceValue, hpayloadValue]
  simp [rejectIf, frameVersion, Nat.not_lt.mpr hpayload]

section Agreement

variable {τ : Type} (sha256 : Digest) (codec : PayloadCodec τ)

/-- An event that `append` does not turn away. -/
structure FrameFits (event : LoggedEvent τ) : Prop where
  /-- The sequence number is a `u64`. -/
  sequence_lt : event.sequence < u64Bound
  /-- The payload has a JSON form. -/
  encodes : ∃ bytes, codec.toVec event.payload = some bytes
  /-- The payload is within the event limit. -/
  payload_le : payloadLen codec.toVec event.payload ≤ maxEventPayloadBytes

/-- The frame of an event on disk. -/
def encodeEvent (event : LoggedEvent τ) : Bytes :=
  encodeFrame sha256 event.sequence ((codec.toVec event.payload).getD [])

/-- What a write that was cut short leaves of its frame: nothing, or an
initial part. -/
def TornTail (bytes : Bytes) : Prop :=
  bytes = [] ∨ ∃ event : LoggedEvent τ, FrameFits codec event ∧
    bytes <+: encodeEvent sha256 codec event ∧
      bytes.length < (encodeEvent sha256 codec event).length

theorem length_encodeEvent (event : LoggedEvent τ) :
    (encodeEvent sha256 codec event).length = frameLen (payloadLen codec.toVec event.payload) := by
  simp [encodeEvent, payloadLen]

/-- A whole frame is accepted when its sequence number is. -/
theorem acceptFrame_encodeEvent {event : LoggedEvent τ} (hfits : FrameFits codec event)
    (snapshotSequence : ℕ) (rest : Bytes) (parsed : ParsedFrames τ) :
    acceptFrame sha256 codec snapshotSequence
        ⟨event.sequence, payloadLen codec.toVec event.payload⟩
        (encodeEvent sha256 codec event ++ rest) parsed =
      (checkSequence snapshotSequence event.sequence parsed.lastSequence >>= fun _ =>
        .ok (parsed.push snapshotSequence (payloadLen codec.toVec event.payload) event)) := by
  obtain ⟨bytes, hbytes⟩ := hfits.encodes
  have hpayload : payloadLen codec.toVec event.payload = bytes.length := by
    simp [payloadLen, hbytes]
  have hframe : encodeEvent sha256 codec event =
      frameBody event.sequence bytes ++ sha256.hash (frameBody event.sequence bytes) := by
    simp [encodeEvent, encodeFrame, hbytes]
  have hbody : (encodeEvent sha256 codec event ++ rest).take (frameHeaderBytes + bytes.length) =
      frameBody event.sequence bytes := by
    rw [hframe, List.append_assoc, List.take_left' (length_frameBody _ _)]
  have hchecksum : ((encodeEvent sha256 codec event ++ rest).drop
      (frameHeaderBytes + bytes.length)).take checksumBytes =
        sha256.hash (frameBody event.sequence bytes) := by
    rw [hframe, List.append_assoc, List.drop_left' (length_frameBody _ _),
      List.take_left' (sha256.length_hash _)]
  have hslice : ((encodeEvent sha256 codec event ++ rest).drop frameHeaderBytes).take
      bytes.length = bytes := by
    rw [hframe, frameBody, List.append_assoc, List.append_assoc,
      List.drop_left' (length_frameHeader _ _), List.take_left' rfl]
  have hdecode : codec.fromSlice bytes = some event.payload := codec.fromSlice_toVec hbytes
  simp only [acceptFrame, hpayload, hbody, hchecksum, hslice, hdecode, okOr_some]
  congr 1
  funext _
  by_cases hcovered : event.sequence > snapshotSequence
  · simp [rejectIf, hcovered, pure_ok]
  · simp [rejectIf, hcovered, ParsedFrames.push, pure_ok]

/-- A torn frame ends the scan: what is left of its header, or of its
payload, is too short. -/
theorem parseFramesFrom_torn {torn : Bytes} (htorn : TornTail sha256 codec torn)
    (snapshotSequence : ℕ) (parsed : ParsedFrames τ) :
    parseFramesFrom sha256 codec snapshotSequence torn parsed = .ok parsed := by
  rw [parseFramesFrom]
  by_cases hheader : torn.length < frameHeaderBytes
  · simp [readHeader, hheader]
  · obtain rfl | ⟨event, hfits, hpart, hshort⟩ := htorn
    · simp [frameHeaderBytes] at hheader
    have hwhole : frameHeader event.sequence (payloadLen codec.toVec event.payload) <+:
        encodeEvent sha256 codec event := by
      simp only [encodeEvent, encodeFrame, frameBody, payloadLen, List.append_assoc]
      exact List.prefix_append _ _
    have hstart : frameHeader event.sequence (payloadLen codec.toVec event.payload) <+: torn :=
      List.prefix_of_prefix_length_le hwhole hpart (by simpa using hheader)
    obtain ⟨rest, hrest⟩ := hstart
    have hread := readHeader_frameHeader parsed.validBytes rest hfits.sequence_lt hfits.payload_le
    rw [hrest] at hread
    rw [length_encodeEvent] at hshort
    simp only [hread, if_pos hshort]

/-- On the bytes of whole frames and at most one torn frame after them,
`parse_frames` does what the scan over the events does. -/
theorem parseFramesFrom_encodeEvents {torn : Bytes} (htorn : TornTail sha256 codec torn)
    (snapshotSequence : ℕ) (events : List (LoggedEvent τ))
    (hfits : ∀ event ∈ events, FrameFits codec event) (parsed : ParsedFrames τ) :
    parseFramesFrom sha256 codec snapshotSequence
        (events.flatMap (encodeEvent sha256 codec) ++ torn) parsed =
      scanFramesFrom codec.toVec snapshotSequence events parsed := by
  induction events generalizing parsed with
  | nil => simpa [scanFramesFrom] using parseFramesFrom_torn sha256 codec htorn _ _
  | cons event events ih =>
      have hevent : FrameFits codec event := hfits event (by simp)
      rw [List.flatMap_cons, List.append_assoc]
      set rest := events.flatMap (encodeEvent sha256 codec) ++ torn
      have hread : readHeader parsed.validBytes (encodeEvent sha256 codec event ++ rest) =
          .ok (some ⟨event.sequence, payloadLen codec.toVec event.payload⟩) := by
        have h := readHeader_frameHeader parsed.validBytes
          ((codec.toVec event.payload).getD [] ++
            (sha256.hash (frameBody event.sequence ((codec.toVec event.payload).getD [])) ++ rest))
          hevent.sequence_lt hevent.payload_le
        simpa [encodeEvent, encodeFrame, frameBody, payloadLen, List.append_assoc] using h
      have hlong : ¬(encodeEvent sha256 codec event ++ rest).length <
          frameLen (payloadLen codec.toVec event.payload) := by
        rw [List.length_append, length_encodeEvent]
        omega
      rw [parseFramesFrom]
      simp only [hread, if_neg hlong, acceptFrame_encodeEvent sha256 codec hevent,
        List.drop_left' (length_encodeEvent sha256 codec event), scanFramesFrom]
      cases checkSequence snapshotSequence event.sequence parsed.lastSequence with
      | error error => rfl
      | ok _ => exact ih (fun e he => hfits e (by simp [he])) _

end Agreement

end Maskura.Persistence
