import Maskura.Lib.Fold
import Maskura.Reads.DirectBody
import Maskura.Transaction.Types

/-!
The encrypted spool of a transformed read. What is written is cut into frames of
64 KiB through a buffer, and every frame goes to a file on its own: its length, a
nonce and the ciphertext, with the number of the frame as associated data. The file
is read back frame by frame when the response is sent.
-/

namespace Maskura.Reads

open Maskura.Lib
open Maskura.Transaction (TransactionError)

def nonceBytes : ℕ := 12

def plaintextFrameBytes : ℕ := 64 * 1024

def frameOverheadBytes : ℕ := 4 + nonceBytes + 16

/-- AES-256-GCM under the key of the spool. -/
structure SpoolCipher where
  encrypt : (nonce aad message : Bytes) → Option Bytes
  decrypt : (nonce aad ciphertext : Bytes) → Option Bytes
  decrypt_encrypt : ∀ {nonce aad message ciphertext : Bytes},
    encrypt nonce aad message = some ciphertext → decrypt nonce aad ciphertext = some message
  /-- The tag has 16 bytes. -/
  length_encrypt : ∀ {nonce aad message ciphertext : Bytes},
    encrypt nonce aad message = some ciphertext → ciphertext.length = message.length + 16
  /-- Under a nonce and the number of a chunk only messages of more than 64 GiB are
  refused. -/
  encrypts : ∀ nonce aad message : Bytes, nonce.length = nonceBytes → aad.length = 8 →
    message.length ≤ 2 ^ 36 → (encrypt nonce aad message).isSome

/-- What the random generator gives for the nonces, one after the other. -/
structure NonceSource where
  draw : ℕ → Bytes
  length_draw : ∀ n, (draw n).length = nonceBytes

/-! ### Writing -/

structure EncryptedReadSpool where
  /-- What has been written to the file. -/
  file : Bytes
  reservedBytes : ℕ
  maxObjectBytes : ℕ
  bytes : ℕ
  chunkNumber : ℕ
  pending : Bytes
  /-- How many nonces have been drawn. -/
  draws : ℕ

/-- `u64::checked_add` and the like. -/
def checkedU64 (n : ℕ) : Except TransactionError ℕ :=
  if n < 2 ^ 64 then .ok n else .error .capacityExceeded

def diskReservation (maxObjectBytes : ℕ) : Except TransactionError ℕ := do
  let padded ← checkedU64 (maxObjectBytes + (plaintextFrameBytes - 1))
  let overhead ← checkedU64 (padded / plaintextFrameBytes * frameOverheadBytes)
  checkedU64 (maxObjectBytes + overhead)

def EncryptedReadSpool.begin (maxObjectBytes : ℕ) : Except TransactionError EncryptedReadSpool := do
  rejectIf (maxObjectBytes = 0)
    (.spool "transformed-read spool object limit must be greater than zero")
  let reservedBytes ← diskReservation maxObjectBytes
  return ⟨[], reservedBytes, maxObjectBytes, 0, 0, [], 0⟩

/-- `chunk_number` behind so many frames: it stops at the largest `u64`. -/
def chunkAfter (frames : ℕ) : ℕ := min frames (2 ^ 64 - 1)

variable (cipher : SpoolCipher) (nonces : NonceSource)

def EncryptedReadSpool.writeFrame (spool : EncryptedReadSpool) (plaintext : Bytes) :
    Except TransactionError EncryptedReadSpool := do
  let nonce := nonces.draw spool.draws
  let ciphertext ← okOr (cipher.encrypt nonce (beBytes 8 spool.chunkNumber) plaintext)
    (.spool "transformed-read spool encryption failed")
  return { spool with
    file := spool.file ++ (beBytes 4 plaintext.length ++ (nonce ++ ciphertext))
    chunkNumber := min (spool.chunkNumber + 1) (2 ^ 64 - 1)
    draws := spool.draws + 1 }

def EncryptedReadSpool.flushPending (spool : EncryptedReadSpool) :
    Except TransactionError EncryptedReadSpool :=
  if spool.pending = [] then .ok spool
  else EncryptedReadSpool.writeFrame cipher nonces { spool with pending := [] } spool.pending

def EncryptedReadSpool.flushIfFull (spool : EncryptedReadSpool) :
    Except TransactionError EncryptedReadSpool :=
  if spool.pending.length = plaintextFrameBytes then spool.flushPending cipher nonces else .ok spool

/-- The first bytes of a write fill up what is pending. -/
def EncryptedReadSpool.fillPending (spool : EncryptedReadSpool) (plaintext : Bytes) :
    Except TransactionError (EncryptedReadSpool × Bytes) :=
  if spool.pending = [] then .ok (spool, plaintext)
  else do
    let take := min (plaintextFrameBytes - spool.pending.length) plaintext.length
    let spool ← EncryptedReadSpool.flushIfFull cipher nonces
      { spool with pending := spool.pending ++ plaintext.take take }
    return (spool, plaintext.drop take)

/-- Whole frames go to the file directly. -/
def EncryptedReadSpool.writeFrames (spool : EncryptedReadSpool) (remaining : Bytes) :
    Except TransactionError (EncryptedReadSpool × Bytes) :=
  if plaintextFrameBytes ≤ remaining.length then do
    let spool ← spool.writeFrame cipher nonces (remaining.take plaintextFrameBytes)
    spool.writeFrames (remaining.drop plaintextFrameBytes)
  else .ok (spool, remaining)
termination_by remaining.length
decreasing_by
  have : 0 < plaintextFrameBytes := by decide
  rw [List.length_drop]
  omega

def EncryptedReadSpool.write (spool : EncryptedReadSpool) (plaintext : Bytes) :
    Except TransactionError EncryptedReadSpool := do
  let next ← checkedU64 (spool.bytes + plaintext.length)
  rejectIf (spool.maxObjectBytes < next) .capacityExceeded
  let (spool, remaining) ← { spool with bytes := next }.fillPending cipher nonces plaintext
  let (spool, remaining) ← spool.writeFrames cipher nonces remaining
  return { spool with pending := spool.pending ++ remaining }

/-! ### Reading back -/

/-- `AsyncReadExt::read_exact`. -/
def readExact (size : ℕ) (input : Bytes) : Except String (Bytes × Bytes) :=
  if input.length < size then .error "early eof"
  else .ok (input.take size, input.drop size)

/-- The frame at the start of the file, and what is behind it. -/
def readFrame (chunkNumber : ℕ) (file : Bytes) : Except String (Bytes × Bytes) := do
  let (length, file) ← readExact 4 file
  let plaintextLen := beNat length
  rejectIf (plaintextFrameBytes < plaintextLen)
    "transformed-read spool frame exceeds the encrypted staging bound"
  let (nonce, file) ← readExact nonceBytes file
  let (ciphertext, file) ← readExact (plaintextLen + 16) file
  let plaintext ← okOr (cipher.decrypt nonce (beBytes 8 chunkNumber) ciphertext)
    "transformed-read spool authentication failed"
  return (plaintext, file)

theorem readExact_eq_ok {size : ℕ} {input front back : Bytes} :
    readExact size input = .ok (front, back) ↔ front.length = size ∧ input = front ++ back := by
  unfold readExact
  constructor
  · intro h
    split at h
    · cases h
    · next hle =>
        obtain ⟨rfl, rfl⟩ := Prod.mk.inj (Except.ok.inj h)
        refine ⟨?_, (List.take_append_drop _ _).symm⟩
        rw [List.length_take]
        omega
  · rintro ⟨rfl, rfl⟩
    rw [if_neg (by simp), List.take_left, List.drop_left]

/-- Reading a frame moves on. -/
theorem length_of_readFrame {chunkNumber : ℕ} {file plaintext rest : Bytes}
    (h : readFrame cipher chunkNumber file = .ok (plaintext, rest)) : rest.length < file.length := by
  simp only [readFrame, bind_eq_ok, Prod.exists, readExact_eq_ok, pure_eq_ok, Prod.mk.injEq] at h
  obtain ⟨length, _, ⟨hlength, rfl⟩, -, -, nonce, _, ⟨-, rfl⟩, ciphertext, _, ⟨-, rfl⟩, _, -, -, rfl⟩ := h
  simp only [List.length_append]
  omega

/-- What a stream sent, and the error it returned with, if any. -/
structure StreamRun where
  delivered : List Bytes
  error : Option String
  deriving DecidableEq

/-- The request is seen as cancelled from some round of the loop on, or never. -/
def isCancelled (moment : Option ℕ) (round : ℕ) : Bool :=
  match moment with
  | some first => first ≤ round
  | none => false

def streamDecryptedFile (moment : Option ℕ) (round : ℕ) (file : Bytes) : StreamRun :=
  if isCancelled moment round then ⟨[], none⟩
  else if file = [] then ⟨[], none⟩
  else
    match h : readFrame cipher (chunkAfter round) file with
    | .error error => ⟨[], some error⟩
    | .ok (plaintext, rest) =>
        let more := streamDecryptedFile moment (round + 1) rest
        ⟨plaintext :: more.delivered, more.error⟩
termination_by file.length
decreasing_by exact length_of_readFrame cipher h

/-! ### Frames on disk -/

/-- The file holds these frames from the frame with number `first` on. -/
inductive OnDisk : (first : ℕ) → List Bytes → Bytes → Prop
  | nil {first : ℕ} : OnDisk first [] []
  | cons {first : ℕ} {frame nonce ciphertext file : Bytes} {frames : List Bytes} :
      nonce.length = nonceBytes →
      cipher.encrypt nonce (beBytes 8 (chunkAfter first)) frame = some ciphertext →
      OnDisk (first + 1) frames file →
      OnDisk first (frame :: frames) (beBytes 4 frame.length ++ (nonce ++ ciphertext) ++ file)

section OnDisk

variable {cipher} {first : ℕ} {frames : List Bytes} {file : Bytes}

theorem OnDisk.append {frame nonce ciphertext : Bytes} (h : OnDisk cipher first frames file)
    (hnonce : nonce.length = nonceBytes)
    (hencrypt : cipher.encrypt nonce (beBytes 8 (chunkAfter (first + frames.length))) frame =
      some ciphertext) :
    OnDisk cipher first (frames ++ [frame])
      (file ++ (beBytes 4 frame.length ++ (nonce ++ ciphertext))) := by
  induction h with
  | nil =>
      have := OnDisk.cons hnonce hencrypt (@OnDisk.nil cipher _)
      rwa [List.append_nil] at this
  | @cons first frame' nonce' ciphertext' file frames hnonce' hencrypt' hrest ih =>
      rw [List.append_assoc]
      refine .cons hnonce' hencrypt' (ih ?_)
      rwa [Nat.add_right_comm, Nat.add_assoc, ← List.length_cons (a := frame')]

/-- The bytes of a frame in the file. -/
theorem length_frame {frame nonce ciphertext : Bytes} {aad : Bytes}
    (hnonce : nonce.length = nonceBytes) (hencrypt : cipher.encrypt nonce aad frame = some ciphertext) :
    (beBytes 4 frame.length ++ (nonce ++ ciphertext)).length = frame.length + frameOverheadBytes := by
  rw [List.length_append, List.length_append, length_beBytes, hnonce, cipher.length_encrypt hencrypt]
  unfold frameOverheadBytes
  omega

theorem OnDisk.length (h : OnDisk cipher first frames file) :
    file.length = frames.flatten.length + frames.length * frameOverheadBytes := by
  induction h with
  | nil => rfl
  | cons hnonce hencrypt hrest ih =>
      rw [List.length_append, length_frame hnonce hencrypt, ih, List.flatten_cons, List.length_append,
        List.length_cons]
      ring

/-! ### Reading one frame -/

section Frame

variable {frame nonce ciphertext rest : Bytes} {chunkNumber : ℕ}

theorem readExact_append {size : ℕ} {front : Bytes} (h : front.length = size) (back : Bytes) :
    readExact size (front ++ back) = .ok (front, back) :=
  readExact_eq_ok.mpr ⟨h, rfl⟩

theorem readExact_short {size : ℕ} {input : Bytes} (h : input.length < size) :
    readExact size input = .error "early eof" := if_pos h

theorem beNat_frameLength (hframe : frame.length ≤ plaintextFrameBytes) :
    beNat (beBytes 4 frame.length) = frame.length :=
  beNat_beBytes_of_lt (hframe.trans_lt (by decide))

/-- Behind the length of a frame, its nonce and its ciphertext are read. -/
theorem readFrame_of_length (hframe : frame.length ≤ plaintextFrameBytes) (input : Bytes) :
    readFrame cipher chunkNumber (beBytes 4 frame.length ++ input) = (do
      let (nonce, file) ← readExact nonceBytes input
      let (ciphertext, file) ← readExact (frame.length + 16) file
      let plaintext ← okOr (cipher.decrypt nonce (beBytes 8 chunkNumber) ciphertext)
        "transformed-read spool authentication failed"
      return (plaintext, file)) := by
  rw [readFrame, readExact_append (length_beBytes 4 frame.length)]
  simp only [ok_bind, beNat_frameLength hframe, rejectIf_neg (Nat.not_lt.mpr hframe)]

theorem readFrame_frame (hframe : frame.length ≤ plaintextFrameBytes)
    (hnonce : nonce.length = nonceBytes)
    (hencrypt : cipher.encrypt nonce (beBytes 8 chunkNumber) frame = some ciphertext) :
    readFrame cipher chunkNumber (beBytes 4 frame.length ++ (nonce ++ ciphertext) ++ rest) =
      .ok (frame, rest) := by
  rw [List.append_assoc, List.append_assoc, readFrame_of_length hframe, readExact_append hnonce]
  simp only [ok_bind, readExact_append (cipher.length_encrypt hencrypt),
    cipher.decrypt_encrypt hencrypt, okOr]
  rfl

/-- A frame that is cut is refused, wherever the cut is. -/
theorem readFrame_cut (hframe : frame.length ≤ plaintextFrameBytes)
    (hnonce : nonce.length = nonceBytes)
    (hencrypt : cipher.encrypt nonce (beBytes 8 chunkNumber) frame = some ciphertext) {n : ℕ}
    (hn : n < frame.length + frameOverheadBytes) :
    ∃ error, readFrame cipher chunkNumber
      ((beBytes 4 frame.length ++ (nonce ++ ciphertext) ++ rest).take n) = .error error := by
  have hciphertext := cipher.length_encrypt hencrypt
  unfold frameOverheadBytes at hn
  refine ⟨"early eof", ?_⟩
  rw [List.append_assoc, List.append_assoc]
  by_cases h4 : n < 4
  · rw [readFrame, readExact_short (by rw [List.length_take]; omega)]
    rfl
  have hlength : (beBytes 4 frame.length ++ (nonce ++ (ciphertext ++ rest))).take n =
      beBytes 4 frame.length ++ (nonce ++ (ciphertext ++ rest)).take (n - 4) := by
    rw [List.take_append, length_beBytes, List.take_of_length_le (by rw [length_beBytes]; omega)]
  rw [hlength, readFrame_of_length hframe]
  by_cases h16 : n - 4 < nonceBytes
  · rw [readExact_short (by rw [List.length_take]; omega)]
    rfl
  have hrest : (nonce ++ (ciphertext ++ rest)).take (n - 4) =
      nonce ++ (ciphertext ++ rest).take (n - 4 - nonceBytes) := by
    rw [List.take_append, hnonce, List.take_of_length_le (by omega)]
  rw [hrest, readExact_append hnonce]
  simp only [ok_bind]
  rw [readExact_short (by rw [List.length_take]; omega)]
  rfl

end Frame

/-! ### Reading the file -/

section Stream

variable {moment : Option ℕ} {round : ℕ}

theorem stream_cancelled (h : isCancelled moment round = true) :
    streamDecryptedFile cipher moment round file = ⟨[], none⟩ := by
  rw [streamDecryptedFile, if_pos h]

theorem stream_nil : streamDecryptedFile cipher moment round [] = ⟨[], none⟩ := by
  rw [streamDecryptedFile]
  split <;> rfl

theorem stream_error {error : String} (h : isCancelled moment round = false) (hfile : file ≠ [])
    (hread : readFrame cipher (chunkAfter round) file = .error error) :
    streamDecryptedFile cipher moment round file = ⟨[], some error⟩ := by
  rw [streamDecryptedFile, if_neg (by rw [h]; exact Bool.false_ne_true), if_neg hfile]
  split
  · next error' hread' => rw [Except.error.inj (hread.symm.trans hread')]
  · next hread' => cases hread.symm.trans hread'

theorem stream_frame {plaintext rest : Bytes} (h : isCancelled moment round = false)
    (hread : readFrame cipher (chunkAfter round) file = .ok (plaintext, rest)) :
    streamDecryptedFile cipher moment round file =
      ⟨plaintext :: (streamDecryptedFile cipher moment (round + 1) rest).delivered,
        (streamDecryptedFile cipher moment (round + 1) rest).error⟩ := by
  have hfile : file ≠ [] := by
    rintro rfl
    exact absurd (length_of_readFrame cipher hread) (Nat.not_lt_zero _)
  rw [streamDecryptedFile, if_neg (by rw [h]; exact Bool.false_ne_true), if_neg hfile]
  split
  · next hread' => cases hread.symm.trans hread'
  · next plaintext' rest' hread' =>
      obtain ⟨rfl, rfl⟩ := Prod.mk.inj (Except.ok.inj (hread.symm.trans hread'))
      rfl

end Stream

/-- Without a cancellation the frames come back. -/
theorem OnDisk.stream (h : OnDisk cipher first frames file)
    (hframes : ∀ frame ∈ frames, frame.length ≤ plaintextFrameBytes) :
    streamDecryptedFile cipher none first file = ⟨frames, none⟩ := by
  induction h with
  | nil => exact stream_nil
  | cons hnonce hencrypt hrest ih =>
      obtain ⟨hframe, hframes⟩ := List.forall_mem_cons.mp hframes
      rw [stream_frame rfl (readFrame_frame hframe hnonce hencrypt), ih hframes]

end OnDisk

/-! ### The spool while it is written -/

/-- The spool has these whole frames in its file, and with what is pending they are
what has been written. The accounts are left alone by the frames. -/
structure Spooled (spool : EncryptedReadSpool) (frames : List Bytes) (written : Bytes)
    (accounts : ℕ × ℕ × ℕ) : Prop where
  onDisk : OnDisk cipher 0 frames spool.file
  full : ∀ frame ∈ frames, frame.length = plaintextFrameBytes
  written_eq : frames.flatten ++ spool.pending = written
  chunkNumber_eq : spool.chunkNumber = chunkAfter frames.length
  accounts_eq : (spool.reservedBytes, spool.maxObjectBytes, spool.bytes) = accounts

section Writing

variable {cipher nonces} {spool next : EncryptedReadSpool} {frames : List Bytes} {written : Bytes}
  {accounts : ℕ × ℕ × ℕ}

theorem writeFrame_eq_ok {plaintext : Bytes} :
    spool.writeFrame cipher nonces plaintext = .ok next ↔
      ∃ ciphertext, cipher.encrypt (nonces.draw spool.draws) (beBytes 8 spool.chunkNumber) plaintext =
          some ciphertext ∧
        { spool with
          file := spool.file ++ (beBytes 4 plaintext.length ++
            (nonces.draw spool.draws ++ ciphertext))
          chunkNumber := min (spool.chunkNumber + 1) (2 ^ 64 - 1)
          draws := spool.draws + 1 } = next := by
  simp [EncryptedReadSpool.writeFrame, bind_eq_ok, okOr_eq_ok, pure_ok]

theorem chunkAfter_succ (n : ℕ) : min (chunkAfter n + 1) (2 ^ 64 - 1) = chunkAfter (n + 1) := by
  unfold chunkAfter
  omega

/-- A frame goes behind the frames that are there. -/
theorem Spooled.onDisk_writeFrame {frame : Bytes} (h : Spooled cipher spool frames written accounts)
    (hwrite : spool.writeFrame cipher nonces frame = .ok next) :
    OnDisk cipher 0 (frames ++ [frame]) next.file ∧ next.pending = spool.pending ∧
      next.chunkNumber = chunkAfter (frames ++ [frame]).length ∧
      (next.reservedBytes, next.maxObjectBytes, next.bytes) = accounts := by
  obtain ⟨ciphertext, hencrypt, rfl⟩ := writeFrame_eq_ok.mp hwrite
  rw [h.chunkNumber_eq, ← Nat.zero_add frames.length] at hencrypt
  refine ⟨h.onDisk.append (nonces.length_draw _) hencrypt, rfl, ?_, h.accounts_eq⟩
  change min (spool.chunkNumber + 1) (2 ^ 64 - 1) = _
  rw [h.chunkNumber_eq, chunkAfter_succ, List.length_append, List.length_singleton]

/-- A whole frame, with nothing pending. -/
theorem Spooled.writeFrame {frame : Bytes} (h : Spooled cipher spool frames written accounts)
    (hpending : spool.pending = []) (hframe : frame.length = plaintextFrameBytes)
    (hwrite : spool.writeFrame cipher nonces frame = .ok next) :
    Spooled cipher next (frames ++ [frame]) (written ++ frame) accounts ∧ next.pending = [] := by
  obtain ⟨hdisk, hnext, hchunk, haccounts⟩ := h.onDisk_writeFrame hwrite
  rw [hpending] at hnext
  refine ⟨⟨hdisk, ?_, ?_, hchunk, haccounts⟩, hnext⟩
  · intro other hother
    rcases List.mem_append.mp hother with hold | hnew
    · exact h.full other hold
    · rw [List.mem_singleton.mp hnew, hframe]
  · rw [hnext, List.append_nil, List.flatten_append, List.flatten_singleton, ← h.written_eq, hpending,
      List.append_nil]

/-- What is pending becomes a frame once it is as long as one. -/
theorem Spooled.flushFull (h : Spooled cipher spool frames written accounts)
    (hfull : spool.pending.length = plaintextFrameBytes)
    (hflush : spool.flushPending cipher nonces = .ok next) :
    Spooled cipher next (frames ++ [spool.pending]) written accounts ∧ next.pending = [] := by
  have hne : spool.pending ≠ [] := by
    intro hnil
    rw [hnil] at hfull
    cases hfull
  rw [EncryptedReadSpool.flushPending, if_neg hne] at hflush
  have hempty : Spooled cipher { spool with pending := [] } frames frames.flatten accounts :=
    ⟨h.onDisk, h.full, List.append_nil _, h.chunkNumber_eq, h.accounts_eq⟩
  have hnext := hempty.writeFrame rfl hfull hflush
  rwa [h.written_eq] at hnext

/-- Either the buffer was emptied, or it has taken everything. -/
theorem Spooled.fillPending {plaintext remaining : Bytes}
    (h : Spooled cipher spool frames written accounts)
    (hlt : spool.pending.length < plaintextFrameBytes)
    (hfill : spool.fillPending cipher nonces plaintext = .ok (next, remaining)) :
    ∃ frames consumed, plaintext = consumed ++ remaining ∧
      Spooled cipher next frames (written ++ consumed) accounts ∧
      (next.pending = [] ∨ remaining = [] ∧ next.pending.length < plaintextFrameBytes) := by
  unfold EncryptedReadSpool.fillPending at hfill
  split at hfill
  · next hpending =>
      obtain ⟨rfl, rfl⟩ := Prod.mk.inj (Except.ok.inj hfill)
      exact ⟨frames, [], rfl, (List.append_nil written).symm ▸ h, .inl hpending⟩
  · simp only [bind_eq_ok, pure_eq_ok, Prod.mk.injEq] at hfill
    obtain ⟨spool', hspool, rfl, rfl⟩ := hfill
    set size := min (plaintextFrameBytes - spool.pending.length) plaintext.length with hsize
    have hfilled : Spooled cipher { spool with pending := spool.pending ++ plaintext.take size } frames
        (written ++ plaintext.take size) accounts :=
      ⟨h.onDisk, h.full, by rw [← List.append_assoc, h.written_eq], h.chunkNumber_eq, h.accounts_eq⟩
    have hlength : (spool.pending ++ plaintext.take size).length = spool.pending.length + size := by
      rw [List.length_append, List.length_take]
      omega
    unfold EncryptedReadSpool.flushIfFull at hspool
    split at hspool
    · next hfull =>
        obtain ⟨hnext, hempty⟩ := hfilled.flushFull hfull hspool
        exact ⟨_, _, (List.take_append_drop size plaintext).symm, hnext, .inl hempty⟩
    · next hfull =>
        obtain rfl := Except.ok.inj hspool
        change ¬(spool.pending ++ plaintext.take size).length = plaintextFrameBytes at hfull
        rw [hlength] at hfull
        refine ⟨_, _, (List.take_append_drop size plaintext).symm, hfilled, .inr ⟨?_, ?_⟩⟩
        · exact List.drop_eq_nil_of_le (by omega)
        · change (spool.pending ++ plaintext.take size).length < _
          omega

/-- The loop over whole frames leaves less than one. -/
theorem Spooled.writeFrames {remaining rest : Bytes}
    (h : Spooled cipher spool frames written accounts)
    (hpending : spool.pending = [] ∨ remaining = [])
    (hwrite : spool.writeFrames cipher nonces remaining = .ok (next, rest)) :
    ∃ frames consumed, remaining = consumed ++ rest ∧
      Spooled cipher next frames (written ++ consumed) accounts ∧
      rest.length < plaintextFrameBytes ∧ next.pending = spool.pending := by
  induction hn : remaining.length using Nat.strong_induction_on
    generalizing spool frames written remaining with
  | _ n ih =>
      rw [EncryptedReadSpool.writeFrames] at hwrite
      split at hwrite
      · next hle =>
          obtain ⟨spool', hframe, hrest⟩ := bind_eq_ok.mp hwrite
          have hpos : 0 < plaintextFrameBytes := by decide
          have hnil : spool.pending = [] := by
            refine hpending.resolve_right fun hremaining => ?_
            rw [hremaining] at hle
            exact absurd hle (Nat.not_le.mpr hpos)
          obtain ⟨hspool', hempty⟩ := h.writeFrame hnil (List.length_take_of_le hle) hframe
          obtain ⟨frames', consumed, hsplit, hnext, hshort, hsame⟩ :=
            ih _ (by rw [List.length_drop]; omega) hspool' (.inl hempty) hrest rfl
          refine ⟨frames', remaining.take plaintextFrameBytes ++ consumed, ?_, ?_, hshort, ?_⟩
          · rw [List.append_assoc, ← hsplit, List.take_append_drop]
          · rwa [← List.append_assoc]
          · rw [hsame, hempty, hnil]
      · next hshort =>
          obtain ⟨rfl, rfl⟩ := Prod.mk.inj (Except.ok.inj hwrite)
          exact ⟨frames, [], rfl, (List.append_nil written).symm ▸ h, Nat.lt_of_not_le hshort, rfl⟩

theorem checkedU64_eq_ok {n m : ℕ} : checkedU64 n = .ok m ↔ n < 2 ^ 64 ∧ n = m := by
  unfold checkedU64
  split <;> simp_all

/-- A write, and the bounds it was admitted under. -/
theorem Spooled.write {reserved maximum bytes : ℕ} {plaintext : Bytes}
    (h : Spooled cipher spool frames written (reserved, maximum, bytes))
    (hlt : spool.pending.length < plaintextFrameBytes)
    (hwrite : spool.write cipher nonces plaintext = .ok next) :
    ∃ frames, Spooled cipher next frames (written ++ plaintext)
        (reserved, maximum, bytes + plaintext.length) ∧
      next.pending.length < plaintextFrameBytes ∧ bytes + plaintext.length ≤ maximum := by
  obtain ⟨rfl, hrest⟩ := Prod.mk.inj h.accounts_eq
  obtain ⟨rfl, rfl⟩ := Prod.mk.inj hrest
  simp only [EncryptedReadSpool.write, bind_eq_ok, Prod.exists, rejectIf_eq_ok,
    pure_eq_ok] at hwrite
  obtain ⟨total, htotal, -, hbound, spool', remaining, hfill, spool'', rest, hframes, rfl⟩ := hwrite
  obtain ⟨-, rfl⟩ := checkedU64_eq_ok.mp htotal
  have hcounted : Spooled cipher { spool with bytes := spool.bytes + plaintext.length } frames written
      (spool.reservedBytes, spool.maxObjectBytes, spool.bytes + plaintext.length) :=
    ⟨h.onDisk, h.full, h.written_eq, h.chunkNumber_eq, rfl⟩
  obtain ⟨frames₁, consumed₁, rfl, hfilled, hbuffer⟩ := hcounted.fillPending hlt hfill
  obtain ⟨frames₂, consumed₂, rfl, hdone, hshort, hsame⟩ :=
    hfilled.writeFrames (hbuffer.imp_right And.left) hframes
  refine ⟨frames₂, ⟨hdone.onDisk, hdone.full, ?_, hdone.chunkNumber_eq, hdone.accounts_eq⟩, ?_,
    Nat.le_of_not_lt hbound⟩
  · change frames₂.flatten ++ (spool''.pending ++ rest) = _
    rw [← List.append_assoc, hdone.written_eq, List.append_assoc, List.append_assoc]
  · -- the buffer was empty, or nothing was left for it
    change (spool''.pending ++ rest).length < plaintextFrameBytes
    rcases hbuffer with hempty | ⟨hnone, hpending⟩
    · rwa [hsame, hempty, List.nil_append]
    · obtain ⟨-, rfl⟩ := List.append_eq_nil_iff.mp hnone
      rwa [List.append_nil, hsame]

/-! ### All writes -/

theorem begin_eq_ok {maximum : ℕ} {start : EncryptedReadSpool}
    (h : EncryptedReadSpool.begin maximum = .ok start) :
    diskReservation maximum = .ok start.reservedBytes ∧
      Spooled cipher start [] [] (start.reservedBytes, maximum, 0) ∧ start.pending = [] := by
  simp only [EncryptedReadSpool.begin, bind_eq_ok, pure_eq_ok] at h
  obtain ⟨-, -, reserved, hreserved, rfl⟩ := h
  exact ⟨hreserved, ⟨.nil, fun frame h => absurd h List.not_mem_nil, rfl, rfl, rfl⟩, rfl⟩

theorem Spooled.writes {reserved maximum : ℕ} {writes : List Bytes}
    (h : Spooled cipher spool frames written (reserved, maximum, written.length))
    (hlt : spool.pending.length < plaintextFrameBytes) (hle : written.length ≤ maximum)
    (hwrites : writes.foldlM (fun spool plaintext => spool.write cipher nonces plaintext) spool =
      .ok next) :
    ∃ frames, Spooled cipher next frames (written ++ writes.flatten)
        (reserved, maximum, (written ++ writes.flatten).length) ∧
      next.pending.length < plaintextFrameBytes ∧ (written ++ writes.flatten).length ≤ maximum := by
  induction writes generalizing spool frames written with
  | nil =>
      obtain rfl := Except.ok.inj hwrites
      rw [List.flatten_nil, List.append_nil]
      exact ⟨frames, h, hlt, hle⟩
  | cons plaintext writes ih =>
      obtain ⟨spool', hwrite, hrest⟩ := foldlM_cons_eq_ok.mp hwrites
      obtain ⟨frames', hspool', hlt', hle'⟩ := h.write hlt hwrite
      rw [← List.length_append] at hspool' hle'
      rw [List.flatten_cons, ← List.append_assoc]
      exact ih hspool' hlt' hle' hrest

/-! ### The finished file -/

/-- Frames of a finished file: all are whole but the last, and none is empty. -/
structure Framed (frames : List Bytes) : Prop where
  full : ∀ frame ∈ frames.dropLast, frame.length = plaintextFrameBytes
  sizes : ∀ frame ∈ frames, 0 < frame.length ∧ frame.length ≤ plaintextFrameBytes

theorem framed_of_full {frames : List Bytes}
    (h : ∀ frame ∈ frames, frame.length = plaintextFrameBytes) : Framed frames :=
  ⟨fun frame hframe => h frame (List.dropLast_subset _ hframe),
    fun frame hframe => ⟨(h frame hframe).symm ▸ (by decide), (h frame hframe).le⟩⟩

theorem framed_append {frames : List Bytes} {last : Bytes}
    (h : ∀ frame ∈ frames, frame.length = plaintextFrameBytes) (hpos : 0 < last.length)
    (hle : last.length ≤ plaintextFrameBytes) : Framed (frames ++ [last]) := by
  refine ⟨?_, fun frame hframe => ?_⟩
  · rwa [List.dropLast_concat]
  · rcases List.mem_append.mp hframe with hold | hnew
    · exact (framed_of_full h).sizes frame hold
    · rw [List.mem_singleton.mp hnew]
      exact ⟨hpos, hle⟩

theorem length_flatten_full {frames : List Bytes}
    (h : ∀ frame ∈ frames, frame.length = plaintextFrameBytes) :
    frames.flatten.length = frames.length * plaintextFrameBytes := by
  rw [List.length_flatten, List.sum_eq_card_nsmul _ plaintextFrameBytes, List.length_map,
    smul_eq_mul]
  simpa using h

/-- The number of frames is the ceiling of the bytes over the size of a frame. -/
theorem Framed.length_eq (h : Framed frames) :
    frames.length = (frames.flatten.length + (plaintextFrameBytes - 1)) / plaintextFrameBytes := by
  rcases List.eq_nil_or_concat' frames with rfl | ⟨front, last, rfl⟩
  · rfl
  · have hfull := length_flatten_full (fun frame hframe =>
      h.full frame (by rwa [List.dropLast_concat]))
    obtain ⟨hpos, hle⟩ := h.sizes last (List.mem_append_right front (List.mem_singleton_self last))
    rw [List.flatten_append, List.flatten_singleton, List.length_append, List.length_append, hfull,
      List.length_singleton]
    unfold plaintextFrameBytes at hle ⊢
    omega

/-- The last flush succeeds and leaves the frames of everything that was written. -/
theorem Spooled.finish (h : Spooled cipher spool frames written accounts)
    (hlt : spool.pending.length < plaintextFrameBytes) :
    ∃ finished frames, spool.flushPending cipher nonces = .ok finished ∧ Framed frames ∧
      OnDisk cipher 0 frames finished.file ∧ frames.flatten = written ∧
      (finished.reservedBytes, finished.maxObjectBytes, finished.bytes) = accounts := by
  unfold EncryptedReadSpool.flushPending
  by_cases hpending : spool.pending = []
  · rw [if_pos hpending]
    refine ⟨spool, frames, rfl, framed_of_full h.full, h.onDisk, ?_, h.accounts_eq⟩
    rw [← h.written_eq, hpending, List.append_nil]
  · rw [if_neg hpending]
    have hsize : spool.pending.length ≤ 2 ^ 36 := hlt.le.trans (by decide)
    obtain ⟨ciphertext, hencrypt⟩ := Option.isSome_iff_exists.mp
      (cipher.encrypts (nonces.draw spool.draws) (beBytes 8 spool.chunkNumber) spool.pending
        (nonces.length_draw _) (length_beBytes 8 _) hsize)
    have hempty : Spooled cipher { spool with pending := [] } frames frames.flatten accounts :=
      ⟨h.onDisk, h.full, List.append_nil _, h.chunkNumber_eq, h.accounts_eq⟩
    have hwrite := writeFrame_eq_ok.mpr
      ⟨ciphertext, show cipher.encrypt (nonces.draw { spool with pending := [] }.draws) _ _ = _ from
        hencrypt, rfl⟩
    obtain ⟨hdisk, -, -, haccounts⟩ := hempty.onDisk_writeFrame hwrite
    refine ⟨_, frames ++ [spool.pending], hwrite,
      framed_append h.full (List.length_pos_iff.mpr hpending) hlt.le, hdisk, ?_, haccounts⟩
    rw [List.flatten_append, List.flatten_singleton, h.written_eq]

theorem diskReservation_eq_ok {maximum reserved : ℕ}
    (h : diskReservation maximum = .ok reserved) :
    reserved = maximum +
      (maximum + (plaintextFrameBytes - 1)) / plaintextFrameBytes * frameOverheadBytes := by
  simp only [diskReservation, bind_eq_ok, checkedU64_eq_ok] at h
  obtain ⟨_, ⟨-, rfl⟩, _, ⟨-, rfl⟩, -, rfl⟩ := h
  rfl

/-- Frames that hold no more than the largest object fit in the reservation. -/
theorem Framed.length_le {file : Bytes} {maximum reserved : ℕ} (h : Framed frames)
    (hdisk : OnDisk cipher 0 frames file) (hle : frames.flatten.length ≤ maximum)
    (hreserved : diskReservation maximum = .ok reserved) : file.length ≤ reserved := by
  rw [hdisk.length, h.length_eq, diskReservation_eq_ok hreserved]
  exact Nat.add_le_add hle (Nat.mul_le_mul_right _
    (Nat.div_le_div_right (Nat.add_le_add_right hle _)))

end Writing

/-- The buffer stays below a frame, the file within the reservation and in whole frames
but for the last, and what was written comes back. -/
theorem spool_replays_within_reservation (cipher : SpoolCipher) (nonces : NonceSource)
    (maxObjectBytes : ℕ) (start spool : EncryptedReadSpool) (writes : List Bytes)
    (hbegin : EncryptedReadSpool.begin maxObjectBytes = .ok start)
    (hwrites : writes.foldlM (fun spool plaintext => spool.write cipher nonces plaintext) start =
      .ok spool) :
    diskReservation maxObjectBytes = .ok start.reservedBytes ∧
    spool.pending.length < plaintextFrameBytes ∧
    (∃ frames, OnDisk cipher 0 frames spool.file ∧
      ∀ frame ∈ frames, frame.length = plaintextFrameBytes) ∧
    spool.file.length ≤ start.reservedBytes ∧
    ∃ finished frames, spool.flushPending cipher nonces = .ok finished ∧
      OnDisk cipher 0 frames finished.file ∧
      (∀ frame ∈ frames.dropLast, frame.length = plaintextFrameBytes) ∧
      finished.file.length ≤ start.reservedBytes ∧
      streamDecryptedFile cipher none 0 finished.file = ⟨frames, none⟩ ∧
      frames.flatten = writes.flatten := by
  obtain ⟨hreserved, hstart, hempty⟩ := begin_eq_ok hbegin
  obtain ⟨frames, hspooled, hpending, hle⟩ := hstart.writes (hempty ▸ by decide) (Nat.zero_le _) hwrites
  rw [List.nil_append] at hspooled hle
  obtain ⟨finished, all, hflush, hframed, hdisk, hall, -⟩ := hspooled.finish hpending
  have hwhole : frames.flatten.length ≤ maxObjectBytes := by
    refine le_trans ?_ hle
    rw [← hspooled.written_eq, List.length_append]
    exact Nat.le_add_right _ _
  exact ⟨hreserved, hpending, ⟨frames, hspooled.onDisk, hspooled.full⟩,
    (framed_of_full hspooled.full).length_le hspooled.onDisk hwhole hreserved,
    finished, all, hflush, hdisk, hframed.full, hframed.length_le hdisk (hall ▸ hle) hreserved,
    hdisk.stream fun frame hframe => (hframed.sizes frame hframe).2, hall⟩

/-! ### A spool of two bytes -/

/-- A cipher that marks its messages, with what AES-256-GCM makes of one message in its
place: the bytes 4 and 2 in the first frame, under a key and a nonce of zeros. -/
def sampleScramble (nonce aad : Bytes) : Bytes ≃ Bytes :=
  if nonce = List.replicate 12 0 ∧ aad = List.replicate 8 0 then
    Equiv.swap (List.replicate 16 0 ++ [4, 2])
      [202, 165, 99, 28, 222, 243, 75, 12, 34, 223, 90, 114, 111, 223, 183, 139, 66, 112]
  else Equiv.refl Bytes

theorem length_sampleScramble (nonce aad message : Bytes) :
    (sampleScramble nonce aad message).length = message.length := by
  unfold sampleScramble
  split
  · rw [Equiv.swap_apply_def]
    split
    · next h => rw [h]; rfl
    · split
      · next h => rw [h]; rfl
      · rfl
  · rfl

def sampleCipher : SpoolCipher where
  encrypt nonce aad message :=
    if message.length ≤ 2 ^ 36 then some (sampleScramble nonce aad (List.replicate 16 0 ++ message))
    else none
  decrypt nonce aad ciphertext := some (((sampleScramble nonce aad).symm ciphertext).drop 16)
  decrypt_encrypt := by
    intro nonce aad message ciphertext h
    split at h
    · obtain rfl := Option.some.inj h
      rw [Equiv.symm_apply_apply, List.drop_left' List.length_replicate]
    · cases h
  length_encrypt := by
    intro nonce aad message ciphertext h
    split at h
    · obtain rfl := Option.some.inj h
      rw [length_sampleScramble, List.length_append, List.length_replicate, Nat.add_comm]
    · cases h
  encrypts nonce aad message _ _ h := by
    rw [if_pos h]
    rfl

def zeroNonces : NonceSource := ⟨fun _ => List.replicate 12 0, fun _ => rfl⟩

/-- What does not fill a frame stays in the buffer. -/
theorem write_short {cipher : SpoolCipher} {nonces : NonceSource} {spool : EncryptedReadSpool}
    {plaintext : Bytes} (hshort : spool.pending.length + plaintext.length < plaintextFrameBytes)
    (hmax : spool.bytes + plaintext.length ≤ spool.maxObjectBytes)
    (hbound : spool.maxObjectBytes < 2 ^ 64) :
    spool.write cipher nonces plaintext = .ok
      { spool with bytes := spool.bytes + plaintext.length, pending := spool.pending ++ plaintext } := by
  have hframes (spool : EncryptedReadSpool) (rest : Bytes) (hrest : rest.length < plaintextFrameBytes) :
      spool.writeFrames cipher nonces rest = .ok (spool, rest) := by
    rw [EncryptedReadSpool.writeFrames, if_neg (Nat.not_le.mpr hrest)]
  simp only [EncryptedReadSpool.write, checkedU64_eq_ok.mpr ⟨hmax.trans_lt hbound, rfl⟩, ok_bind,
    rejectIf_neg (Nat.not_lt.mpr hmax), EncryptedReadSpool.fillPending]
  by_cases hpending : spool.pending = []
  · rw [if_pos hpending, ok_bind, hframes _ plaintext (by omega), hpending]
    rfl
  · have hfull : ¬ (spool.pending ++ plaintext).length = plaintextFrameBytes := by
      rw [List.length_append]
      omega
    rw [if_neg hpending, Nat.min_eq_right (by omega), List.take_length, List.drop_length,
      EncryptedReadSpool.flushIfFull, if_neg hfull, ok_bind, pure_bind, hframes _ [] (by decide)]
    simp only [ok_bind, List.append_nil]
    rfl

def sampleStart : EncryptedReadSpool := ⟨[], 34, 2, 0, 0, [], 0⟩

def sampleWritten : EncryptedReadSpool := ⟨[], 34, 2, 2, 0, [4, 2], 0⟩

theorem sampleStart_begun : EncryptedReadSpool.begin 2 = .ok sampleStart := rfl

theorem sampleWritten_written :
    [[4], [], [2]].foldlM (fun spool plaintext => spool.write sampleCipher zeroNonces plaintext)
      sampleStart = .ok sampleWritten := by
  iterate 3
    refine foldlM_cons_eq_ok.mpr ⟨_, write_short (by decide) (by decide) (by decide), ?_⟩
  rfl

theorem sampleWritten_replays :
    ∃ finished frames, sampleWritten.flushPending sampleCipher zeroNonces = .ok finished ∧
      finished.file.length ≤ 34 ∧
      streamDecryptedFile sampleCipher none 0 finished.file = ⟨frames, none⟩ ∧
      frames.flatten = [4, 2] := by
  obtain ⟨-, -, -, -, finished, frames, hflush, -, -, hlength, hstream, hall⟩ :=
    spool_replays_within_reservation sampleCipher zeroNonces 2 sampleStart sampleWritten
      [[4], [], [2]] sampleStart_begun sampleWritten_written
  exact ⟨finished, frames, hflush, hlength, hstream, hall⟩

end Maskura.Reads
