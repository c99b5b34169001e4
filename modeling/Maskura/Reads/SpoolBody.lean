import Maskura.Reads.Spool

/-!
The body that is sent from a finished spool. A worker reads the file and sends its
frames through a channel; when it fails it sends the error too, and the body ends with
the channel. The worker stops without an error at the end of the file, and when it
finds the request cancelled: so a file that ends between two frames, or a cancellation
before the last frame, makes a body that is short and looks complete.
-/

namespace Maskura.Reads

open Maskura.Lib
open Maskura.Transaction (TransactionError)

/-! ### The body -/

/-- What the worker of `into_body` puts into the channel before it drops the sender. -/
def workerMessages (run : StreamRun) : List (Except String Bytes) :=
  run.delivered.map .ok ++ run.error.toList.map .error

/-- The body of the finished spool, as the messages of its channel, and its length. The
file has been cut behind `cut` bytes, and the request is cancelled at `moment`. -/
def EncryptedReadSpool.intoBody (cipher : SpoolCipher) (nonces : NonceSource)
    (spool : EncryptedReadSpool) (cut : ℕ) (moment : Option ℕ) :
    Except TransactionError (List (Except String Bytes) × ℕ) := do
  let spool ← spool.flushPending cipher nonces
  return (workerMessages (streamDecryptedFile cipher moment 0 (spool.file.take cut)), spool.bytes)

/-- Polling a `ChannelBody` until it ends: the bytes it gave, and its error if it ended
with one. -/
def ChannelBody.drain : List (Except String Bytes) → Bytes × Option String
  | [] => ([], none)
  | .ok bytes :: messages =>
      let (rest, error) := ChannelBody.drain messages
      (bytes ++ rest, error)
  | .error error :: _ => ([], some error)

theorem drain_workerMessages (run : StreamRun) :
    ChannelBody.drain (workerMessages run) = (run.delivered.flatten, run.error) := by
  obtain ⟨delivered, error⟩ := run
  induction delivered with
  | nil => cases error <;> rfl
  | cons bytes delivered ih =>
      have hmessages : workerMessages ⟨bytes :: delivered, error⟩ =
          .ok bytes :: workerMessages ⟨delivered, error⟩ := rfl
      rw [hmessages, ChannelBody.drain, ih, List.flatten_cons]

/-- The body ended with an error, or has given everything that was written. -/
def NotQuietlyShort (written : Bytes) (body : Bytes × Option String) : Prop :=
  body.2 = none → body.1 = written

/-! ### Cut files -/

/-- Where the frame with this number starts in the file. -/
def frameStart (frames : List Bytes) (number : ℕ) : ℕ :=
  ((frames.take number).map fun frame => frame.length + frameOverheadBytes).sum

section Cut

variable {cipher : SpoolCipher} {first cut : ℕ} {frames : List Bytes} {file : Bytes}
  {moment : Option ℕ}

theorem frameStart_succ (frame : Bytes) (number : ℕ) :
    frameStart (frame :: frames) (number + 1) =
      frame.length + frameOverheadBytes + frameStart frames number := by
  simp [frameStart]

/-- A stream ends well if no frame starts where the file was cut, and none that was to
be read after the cancellation starts before. -/
def EndsWell (frames : List Bytes) (first cut : ℕ) (moment : Option ℕ) : Prop :=
  ∀ number < frames.length, cut ≠ frameStart frames number ∧
    (isCancelled moment (first + number) → cut < frameStart frames number)

theorem endsWell_cons {frame : Bytes} :
    EndsWell (frame :: frames) first cut moment ↔
      cut ≠ 0 ∧ isCancelled moment first = false ∧
        (frame.length + frameOverheadBytes ≤ cut →
          EndsWell frames (first + 1) (cut - (frame.length + frameOverheadBytes)) moment) := by
  constructor
  · intro h
    obtain ⟨hne, hcancelled⟩ := h 0 (Nat.succ_pos _)
    refine ⟨hne, Bool.eq_false_iff.mpr fun htrue => Nat.not_lt_zero _ (hcancelled htrue), ?_⟩
    intro hle number hnumber
    obtain ⟨hne', hbefore⟩ := h (number + 1) (Nat.succ_lt_succ hnumber)
    rw [frameStart_succ] at hne' hbefore
    rw [Nat.add_assoc, Nat.add_comm 1]
    refine ⟨by omega, fun hcancelled => ?_⟩
    have := hbefore hcancelled
    omega
  · rintro ⟨hne, hcancelled, hrest⟩ number hnumber
    cases number with
    | zero =>
        refine ⟨hne, fun htrue => ?_⟩
        rw [Nat.add_zero, hcancelled] at htrue
        cases htrue
    | succ number =>
        rw [frameStart_succ]
        by_cases hle : frame.length + frameOverheadBytes ≤ cut
        · obtain ⟨hne', hbefore⟩ := hrest hle number (Nat.lt_of_succ_lt_succ hnumber)
          rw [Nat.add_assoc, Nat.add_comm 1] at hbefore
          refine ⟨by omega, fun htrue => ?_⟩
          have := hbefore htrue
          omega
        · exact ⟨by omega, fun _ => by omega⟩

/-- What the stream of a cut file comes to. A stream that stops early without an error
has sent less, since no frame is empty. -/
theorem OnDisk.stream_cut (h : OnDisk cipher first frames file)
    (hsizes : ∀ frame ∈ frames, 0 < frame.length ∧ frame.length ≤ plaintextFrameBytes) :
    ((streamDecryptedFile cipher moment first (file.take cut)).error = none →
      (streamDecryptedFile cipher moment first (file.take cut)).delivered.flatten = frames.flatten) ↔
    EndsWell frames first cut moment := by
  induction h generalizing cut with
  | nil =>
      rw [List.take_nil, stream_nil]
      exact ⟨fun _ number hnumber => absurd hnumber (Nat.not_lt_zero _), fun _ _ => rfl⟩
  | @cons first frame nonce ciphertext file frames hnonce hencrypt hrest ih =>
      obtain ⟨⟨hpos, hle⟩, hsizes⟩ := List.forall_mem_cons.mp hsizes
      have hshort : ([] : Bytes) ≠ (frame :: frames).flatten := by
        intro hnil
        have := congrArg List.length hnil
        rw [List.flatten_cons, List.length_append, List.length_nil] at this
        omega
      have hlength := length_frame hnonce hencrypt
      rw [endsWell_cons]
      by_cases hcancelled : isCancelled moment first = true
      · rw [stream_cancelled hcancelled]
        refine ⟨fun hsame => absurd (hsame rfl) hshort, ?_⟩
        rintro ⟨-, hfalse, -⟩
        cases hcancelled.symm.trans hfalse
      rw [Bool.not_eq_true] at hcancelled
      by_cases hzero : cut = 0
      · rw [hzero, List.take_zero, stream_nil]
        exact ⟨fun hsame => absurd (hsame rfl) hshort, fun hends => absurd rfl hends.1⟩
      by_cases hcut : cut < frame.length + frameOverheadBytes
      · -- inside of the frame: the worker fails
        obtain ⟨error, hread⟩ : ∃ error, readFrame cipher (chunkAfter first)
            ((beBytes 4 frame.length ++ (nonce ++ ciphertext) ++ file).take cut) = .error error :=
          readFrame_cut hle hnonce hencrypt hcut
        have hne : (beBytes 4 frame.length ++ (nonce ++ ciphertext) ++ file).take cut ≠ [] := by
          rw [← List.length_pos_iff, List.length_take, List.length_append, hlength]
          omega
        rw [stream_error hcancelled hne hread]
        refine ⟨fun _ => ⟨hzero, hcancelled, fun hge => ?_⟩, fun _ hnone => ?_⟩
        · omega
        · cases hnone
      · -- behind it: the frame comes out, and the rest of the file is cut
        rw [Nat.not_lt] at hcut
        have htake : (beBytes 4 frame.length ++ (nonce ++ ciphertext) ++ file).take cut =
            beBytes 4 frame.length ++ (nonce ++ ciphertext) ++
              file.take (cut - (frame.length + frameOverheadBytes)) := by
          rw [List.take_append, hlength, List.take_of_length_le (by omega)]
        rw [htake, stream_frame hcancelled (readFrame_frame hle hnonce hencrypt)]
        simp only [List.flatten_cons, List.append_cancel_left_eq]
        rw [ih hsizes]
        exact ⟨fun hends => ⟨hzero, hcancelled, fun _ => hends⟩, fun hends => hends.2.2 hcut⟩

end Cut

/-! ### Spools -/

theorem frameStart_eq {frames : List Bytes} (h : Framed frames) {number : ℕ}
    (hnumber : number < frames.length) :
    frameStart frames number = number * (plaintextFrameBytes + frameOverheadBytes) := by
  have hfull : ∀ frame ∈ frames.take number,
      frame.length + frameOverheadBytes = plaintextFrameBytes + frameOverheadBytes := by
    intro frame hframe
    rw [h.full frame]
    rw [List.dropLast_eq_take]
    exact List.take_subset_take_left _ (by omega) hframe
  rw [frameStart, List.sum_eq_card_nsmul _ (plaintextFrameBytes + frameOverheadBytes)
    (List.forall_mem_map.mpr hfull), List.length_map, List.length_take, Nat.min_eq_left hnumber.le,
    smul_eq_mul]

/-- The body of a spool whose file was cut and whose request was cancelled ends with an
error or has given all bytes exactly when the file was not cut at the start of a frame,
and the cancellation was not seen at the start of a frame that lies behind the cut. -/
theorem body_not_short_iff (cipher : SpoolCipher) (nonces : NonceSource) (maxObjectBytes : ℕ)
    (start spool : EncryptedReadSpool) (writes : List Bytes)
    (hbegin : EncryptedReadSpool.begin maxObjectBytes = .ok start)
    (hwrites : writes.foldlM (fun spool plaintext => spool.write cipher nonces plaintext) start =
      .ok spool) (cut : ℕ) (moment : Option ℕ) :
    ∃ messages, spool.intoBody cipher nonces cut moment = .ok (messages, writes.flatten.length) ∧
      (NotQuietlyShort writes.flatten (ChannelBody.drain messages) ↔
        ∀ number < (writes.flatten.length + (plaintextFrameBytes - 1)) / plaintextFrameBytes,
          cut ≠ number * (plaintextFrameBytes + frameOverheadBytes) ∧
          (isCancelled moment number →
            cut < number * (plaintextFrameBytes + frameOverheadBytes))) := by
  obtain ⟨-, hstart, hempty⟩ := begin_eq_ok hbegin
  obtain ⟨frames, hspooled, hpending, -⟩ := hstart.writes (hempty ▸ by decide) (Nat.zero_le _) hwrites
  rw [List.nil_append] at hspooled
  obtain ⟨finished, all, hflush, hframed, hdisk, hall, haccounts⟩ := hspooled.finish hpending
  obtain ⟨-, hrest⟩ := Prod.mk.inj haccounts
  obtain ⟨-, hbytes⟩ := Prod.mk.inj hrest
  refine ⟨workerMessages (streamDecryptedFile cipher moment 0 (finished.file.take cut)), ?_, ?_⟩
  · rw [EncryptedReadSpool.intoBody, hflush, ok_bind, hbytes]
    rfl
  · rw [NotQuietlyShort, drain_workerMessages, ← hall, hdisk.stream_cut hframed.sizes,
      ← hframed.length_eq]
    refine forall₂_congr fun number hnumber => ?_
    rw [frameStart_eq hframed hnumber, Nat.zero_add]

/-- A file that was cut inside of its frame gives an error. -/
theorem sampleBody_cut_inside :
    ∃ messages, sampleWritten.intoBody sampleCipher zeroNonces 20 none = .ok (messages, 2) ∧
      NotQuietlyShort [4, 2] (ChannelBody.drain messages) := by
  obtain ⟨messages, hmessages, hiff⟩ := body_not_short_iff sampleCipher zeroNonces 2 sampleStart
    sampleWritten [[4], [], [2]] sampleStart_begun sampleWritten_written 20 none
  exact ⟨messages, hmessages, hiff.mpr (by decide)⟩

/-- The bytes are lost without an error when the file is cut before their frame, and when the
request is cancelled before the frame is read. -/
theorem sampleBody_quietly_short :
    (∃ messages, sampleWritten.intoBody sampleCipher zeroNonces 0 none = .ok (messages, 2) ∧
      ChannelBody.drain messages = ([], none)) ∧
    ∃ messages, sampleWritten.intoBody sampleCipher zeroNonces 34 (some 0) = .ok (messages, 2) ∧
      ChannelBody.drain messages = ([], none) := by
  obtain ⟨finished, hflush, hbytes⟩ : ∃ finished,
      sampleWritten.flushPending sampleCipher zeroNonces = .ok finished ∧ finished.bytes = 2 :=
    ⟨_, rfl, rfl⟩
  refine ⟨⟨[], ?_, rfl⟩, [], ?_, rfl⟩
  · rw [EncryptedReadSpool.intoBody, hflush, ok_bind, List.take_zero, stream_nil, hbytes]
    rfl
  · rw [EncryptedReadSpool.intoBody, hflush, ok_bind, stream_cancelled rfl, hbytes]
    rfl

end Maskura.Reads
