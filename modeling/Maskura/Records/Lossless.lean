import Maskura.Records.Split

/-!
Nothing is lost: the payloads and separators of the records, one behind the
other, are the bytes of the stream. Only CSV leaves bytes out, the line
terminators of empty records.
-/

namespace Maskura.Records

open Lib Lib.Chunks

variable {P : Parsers} {format : Format} {limits : DecoderLimits}
  {records : List Record} {frames : List Bytes}

def Record.bytes (r : Record) : Bytes := r.payload ++ r.separator

/-- The bytes of the records, one behind the other. -/
def joined (records : List Record) : Bytes := records.flatMap Record.bytes

@[simp] theorem joined_nil : joined [] = [] := rfl

@[simp] theorem joined_concat {r : Record} :
    joined (records ++ [r]) = joined records ++ (r.payload ++ r.separator) := by
  simp [joined, Record.bytes]

/-- The longest payload a format allows. -/
def Format.maxPayload (limits : DecoderLimits) : Format → ℕ
  | .json => limits.maxJsonDocumentBytes
  | _ => limits.maxRecordBytes

def IsTerminator (separator : Bytes) : Prop :=
  separator = [lf] ∨ separator = [cr] ∨ separator = [cr, lf]

/-- The records of a stream of CSV are those of `all` that are not empty. All
but the last end in a line terminator, and so do the empty ones. -/
structure OmitsEmpty (all records : List Record) : Prop where
  kept : records = all.filter (·.payload ≠ [])
  terminated : ∀ r ∈ all.dropLast, IsTerminator r.separator
  empty : ∀ r ∈ all, r.payload = [] → IsTerminator r.separator

/-- Reading in frames, taken apart. -/
theorem Reader.read_ok {R : Reader} (h : R.read frames = .ok records) :
    ∃ s, frames.flatten.foldlM R.feed R.start = .ok s ∧
      R.last (!frames.flatten.isEmpty) s = .ok records := by
  obtain ⟨s, hs, hlast⟩ := bind_eq_ok.mp h
  exact ⟨s, (feedChunks_eq_ok.mp hs).1, hlast⟩

/-! ### Lines -/

/-- The lines read and the open one are the bytes fed. -/
structure LinesHold (limits : DecoderLimits) (bytes : Bytes) (s : LineState) : Prop where
  bytes : joined s.records ++ s.line = bytes
  small : ∀ r ∈ s.records, r.payload.length ≤ limits.maxRecordBytes

theorem LinesHold.feed {bytes : Bytes} {s t : LineState} {byte : UInt8}
    (h : LinesHold limits bytes s) (hfeed : lineFeed P limits s byte = .ok t) :
    LinesHold limits (bytes ++ [byte]) t := by
  rcases lineFeed_cases hfeed with ⟨rfl, record, hclose, rfl⟩ | ⟨-, rfl⟩
  · obtain ⟨hmax, hline⟩ := closeLine_eq_ok hclose
    refine ⟨?_, fun r hr => ?_⟩
    · rw [joined_concat, ← h.bytes]
      rcases hline with ⟨hline, hsep⟩ | ⟨hline, hsep⟩
      · simp [hline, hsep]
      · simp [hline, hsep]
    · rcases List.mem_append.mp hr with hr | hr
      · exact h.small r hr
      · exact List.mem_singleton.mp hr ▸ hmax
  · exact ⟨by rw [← List.append_assoc, h.bytes], h.small⟩

theorem LinesHold.last {bytes : Bytes} {s : LineState} {seen : Bool} (h : LinesHold limits bytes s)
    (hlast : lineLast P limits seen s = .ok records) :
    joined records = bytes ∧ ∀ r ∈ records, r.payload.length ≤ limits.maxRecordBytes := by
  obtain ⟨_, hcheck, hlast⟩ := bind_eq_ok.mp hlast
  split at hlast
  · obtain ⟨_, -, hlast⟩ := bind_eq_ok.mp hlast
    obtain rfl := Except.ok.inj hlast
    refine ⟨by simpa using h.bytes, fun r hr => ?_⟩
    rcases List.mem_append.mp hr with hr | hr
    · exact h.small r hr
    · exact List.mem_singleton.mp hr ▸ lineCheck_eq_ok.mp hcheck
  next hopen =>
    obtain rfl := Except.ok.inj hlast
    simp only [not_or, not_not] at hopen
    exact ⟨by simpa [hopen.1] using h.bytes, h.small⟩

theorem lineReader_lossless (h : (lineReader P limits).read frames = .ok records) :
    joined records = frames.flatten ∧ ∀ r ∈ records, r.payload.length ≤ limits.maxRecordBytes := by
  obtain ⟨s, hs, hlast⟩ := Reader.read_ok h
  have hstart : LinesHold limits [] ⟨[], []⟩ := ⟨rfl, by simp⟩
  exact (foldlM_history hs (fun _ _ _ _ hold hfeed => hold.feed hfeed) hstart).last hlast

/-! ### CSV -/

/-- The records of CSV, those left out among them, and the open one are the
bytes fed. -/
structure CsvHolds (limits : DecoderLimits) (bytes : Bytes) (all : List Record) (s : CsvReading) :
    Prop where
  bytes : joined all ++ s.buffered = bytes
  kept : s.records = all.filter (·.payload ≠ [])
  terminated : ∀ r ∈ all, IsTerminator r.separator
  small : ∀ r ∈ s.records, r.payload.length ≤ limits.maxRecordBytes
  fieldStart : s.payload = [] → s.state = .fieldStart

theorem CsvHolds.omits {bytes : Bytes} {all : List Record} {s : CsvReading}
    (h : CsvHolds limits bytes all s) : OmitsEmpty all s.records where
  kept := h.kept
  terminated r hr := h.terminated r ((List.dropLast_sublist _).subset hr)
  empty r hr _ := h.terminated r hr

/-- A record that is closed is kept, or left out if it is empty. -/
theorem CsvHolds.close {bytes separator : Bytes} {all : List Record} {s t : CsvReading}
    (h : CsvHolds limits bytes all s) (hsep : IsTerminator separator)
    (hclose : csvClose P limits s separator = .ok t) :
    CsvHolds limits (joined all ++ (s.payload ++ separator)) (all ++ [⟨s.payload, separator⟩]) t := by
  have hterminated : ∀ r ∈ all ++ [⟨s.payload, separator⟩], IsTerminator r.separator := by
    intro r hr
    rcases List.mem_append.mp hr with hr | hr
    · exact h.terminated r hr
    · exact List.mem_singleton.mp hr ▸ hsep
  by_cases hempty : s.payload = []
  · rw [csvClose, if_pos ⟨h.fieldStart hempty, hempty⟩] at hclose
    obtain rfl := Except.ok.inj hclose
    refine ⟨by simp [CsvReading.buffered, CsvReading.tail, CsvReading.fresh], ?_, hterminated, h.small,
      fun _ => rfl⟩
    simpa [hempty, CsvReading.fresh] using h.kept
  · have hmax := csvClose_le hclose
    obtain rfl := csvClose_record (fun h => hempty h.2) hclose
    refine ⟨by simp [CsvReading.buffered, CsvReading.tail, CsvReading.fresh], ?_, hterminated,
      fun r hr => ?_, fun _ => rfl⟩
    · simpa [hempty, CsvReading.fresh] using h.kept
    · rcases List.mem_append.mp hr with hr | hr
      · exact h.small r hr
      · exact List.mem_singleton.mp hr ▸ hmax

theorem CsvHolds.byte {bytes : Bytes} {all : List Record} {s t : CsvReading} {byte : UInt8}
    (h : CsvHolds limits bytes all s) (hcr : s.pendingCr = false)
    (hbyte : csvByte P limits s byte = .ok t) :
    ∃ all', CsvHolds limits (bytes ++ [byte]) all' t := by
  have hpayload : joined all ++ s.payload = bytes := by
    rw [← h.bytes, CsvReading.buffered_of_not_cr hcr]
  rcases csvByte_cases hbyte with ⟨-, rfl, hclose⟩ | ⟨hquoted, rfl, rfl⟩ | ⟨state, fields, rfl, -, -⟩
  · have hclosed := h.close (.inl rfl) hclose
    rw [← List.append_assoc, hpayload] at hclosed
    exact ⟨_, hclosed⟩
  · refine ⟨all, ?_, h.kept, h.terminated, h.small, h.fieldStart⟩
    rw [CsvReading.buffered_of_cr rfl, ← hpayload, List.append_assoc]
    rfl
  · refine ⟨all, ?_, h.kept, h.terminated, h.small, fun hnil => ?_⟩
    · rw [CsvReading.buffered_of_not_cr rfl, ← hpayload, List.append_assoc]
      rfl
    · exact absurd hnil (List.append_ne_nil_of_right_ne_nil _ (List.cons_ne_nil _ _))

theorem CsvHolds.feed {bytes : Bytes} {all : List Record} {s t : CsvReading} {byte : UInt8}
    (h : CsvHolds limits bytes all s) (hfeed : csvFeed P limits s byte = .ok t) :
    ∃ all', CsvHolds limits (bytes ++ [byte]) all' t := by
  rcases csvFeed_cases hfeed with ⟨hcr, rfl, hclose⟩ | ⟨hcr, -, u, hclose, hbyte⟩ | ⟨hcr, hbyte⟩
  · have hbytes := h.bytes
    rw [CsvReading.buffered_of_cr hcr] at hbytes
    have hclosed := h.close (.inr (.inr rfl)) hclose
    rw [show joined all ++ (s.payload ++ [cr, lf]) = bytes ++ [lf] by simp [← hbytes]] at hclosed
    exact ⟨_, hclosed⟩
  · have hbytes := h.bytes
    rw [CsvReading.buffered_of_cr hcr] at hbytes
    have hclosed := h.close (.inr (.inl rfl)) hclose
    obtain ⟨more, rfl⟩ := csvClose_fresh hclose
    exact (hbytes ▸ hclosed).byte rfl hbyte
  · exact h.byte hcr hbyte

/-- The end of the stream: the last record may lack a terminator. -/
theorem CsvHolds.last {bytes : Bytes} {all : List Record} {s : CsvReading}
    (h : CsvHolds limits bytes all s) (hlast : csvLast P limits s = .ok records) :
    (∃ all', joined all' = bytes ∧ OmitsEmpty all' records) ∧
      ∀ r ∈ records, r.payload.length ≤ limits.maxRecordBytes := by
  rcases csvLast_cases hlast with ⟨hcr, t, hclose, rfl⟩ | ⟨hcr, hmax, rfl⟩
  · have hbytes := h.bytes
    rw [CsvReading.buffered_of_cr hcr] at hbytes
    have hclosed := h.close (.inr (.inl rfl)) hclose
    exact ⟨⟨_, by rw [joined_concat, hbytes], hclosed.omits⟩, hclosed.small⟩
  · have hbytes := h.bytes
    rw [CsvReading.buffered_of_not_cr hcr] at hbytes
    by_cases hpayload : s.payload = []
    · rw [if_neg (not_not.mpr hpayload)]
      rw [hpayload, List.append_nil] at hbytes
      exact ⟨⟨all, hbytes, h.omits⟩, h.small⟩
    · rw [if_pos hpayload]
      refine ⟨⟨all ++ [⟨s.payload, []⟩], by simpa using hbytes, ?_, ?_, ?_⟩, fun r hr => ?_⟩
      · simp [h.kept, hpayload]
      · simpa using h.terminated
      · intro r hr hempty
        rcases List.mem_append.mp hr with hr | hr
        · exact h.terminated r hr
        · obtain rfl := List.mem_singleton.mp hr
          exact absurd hempty hpayload
      · rcases List.mem_append.mp hr with hr | hr
        · exact h.small r hr
        · exact List.mem_singleton.mp hr ▸ hmax

theorem exists_csvHolds {bytes : Bytes} {s : CsvReading}
    (h : bytes.foldlM (csvFeed P limits) (.fresh []) = .ok s) : ∃ all, CsvHolds limits bytes all s := by
  have hstart : ∃ all, CsvHolds limits [] all (.fresh []) :=
    ⟨[], rfl, rfl, by simp, by simp [CsvReading.fresh], fun _ => rfl⟩
  refine foldlM_history (I := fun bytes s => ∃ all, CsvHolds limits bytes all s) h ?_ hstart
  rintro _ _ _ _ ⟨all, hold⟩ hfeed
  exact hold.feed hfeed

theorem csvReader_lossless (h : (csvReader P limits).read frames = .ok records) :
    (∃ all, joined all = frames.flatten ∧ OmitsEmpty all records) ∧
      ∀ r ∈ records, r.payload.length ≤ limits.maxRecordBytes := by
  obtain ⟨s, hs, hlast⟩ := Reader.read_ok h
  obtain ⟨all, hold⟩ := exists_csvHolds hs
  exact hold.last hlast

/-! ### JSON -/

theorem jsonReader_lossless (h : (jsonReader P limits).read frames = .ok records) :
    joined records = frames.flatten ∧
      ∀ r ∈ records, r.payload.length ≤ limits.maxJsonDocumentBytes := by
  obtain ⟨document, hs, hlast⟩ := Reader.read_ok h
  obtain rfl : frames.flatten = document :=
    (List.nil_append _).symm.trans (Except.ok.inj (foldlM_jsonFeed.symm.trans hs))
  obtain ⟨_, hcheck, hlast⟩ := bind_eq_ok.mp hlast
  split at hlast
  next hempty =>
    obtain rfl := Except.ok.inj hlast
    exact ⟨(List.isEmpty_iff.mp hempty).symm, by simp⟩
  · obtain ⟨_, -, hlast⟩ := bind_eq_ok.mp hlast
    split at hlast
    · obtain rfl := Except.ok.inj hlast
      exact ⟨by simp [joined, Record.bytes], by simpa using jsonCheck_eq_ok.mp hcheck⟩
    · cases hlast
    · cases hlast

/-! ### Unstructured bytes -/

/-- The decoder of unstructured bytes between frames. -/
def binaryDecoder (limits : DecoderLimits) (seen finished : Bool) (emitted : ℕ) : Decoder where
  format := .binary
  limits := limits
  pending := []
  ready := none
  scanOffset := 0
  csvState := .fieldStart
  csvFields := 1
  finished := finished
  complete := false
  inputSeen := seen
  recordsEmitted := emitted

/-- A frame that is not empty is a record. -/
theorem pushFrame_binary {seen : Bool} {emitted : ℕ} {frame : Bytes}
    (hframe : frame.length ≤ limits.maxSourceFrameBytes) :
    pushFrame P (records, binaryDecoder limits seen false emitted) frame =
      if frame = [] then .ok (records, binaryDecoder limits seen false emitted)
      else
        rejectIf (limits.maxRecordBytes < frame.length)
          (limitError .recordTooLarge "record" frame.length limits.maxRecordBytes) >>= fun _ =>
        .ok (records ++ [⟨frame, []⟩], binaryDecoder limits true false (emitted + 1)) := by
  have hidle : ∀ n seen emitted, Decoder.drain P (n + 1) (binaryDecoder limits seen false emitted) =
      .ok ([], binaryDecoder limits seen false emitted) := fun n seen emitted => by
    rw [Decoder.drain_succ rfl]
    rfl
  have hpush : (binaryDecoder limits seen false emitted).push P frame =
      ({ binaryDecoder limits (seen || !frame.isEmpty) false emitted with
        pending := frame } : Decoder).prepareBinary false := by
    simp [Decoder.push, binaryDecoder, rejectIf, Nat.not_lt.mpr hframe, Decoder.prepareNext]
  rw [pushFrame, hpush]
  cases frame with
  | nil =>
      have hprepare : ({ binaryDecoder limits (seen || !([] : Bytes).isEmpty) false emitted with
          pending := [] } : Decoder).prepareBinary false =
          .ok (binaryDecoder limits seen false emitted) := by
        simp [Decoder.prepareBinary, binaryDecoder]
      rw [hprepare, ok_bind, Decoder.drainAll, hidle, ok_bind, if_pos rfl]
      exact congrArg (fun all => Except.ok (all, _)) (List.append_nil records)
  | cons byte frame =>
      rw [if_neg (List.cons_ne_nil _ _)]
      change (rejectIf (limits.maxRecordBytes < (byte :: frame).length)
        (limitError .recordTooLarge "record" (byte :: frame).length limits.maxRecordBytes) >>= _) >>=
          _ = _
      cases rejectIf (limits.maxRecordBytes < (byte :: frame).length)
        (limitError .recordTooLarge "record" (byte :: frame).length limits.maxRecordBytes) with
      | error e => rfl
      | ok _ =>
          rw [ok_bind, pure_bind, Decoder.drainAll, Decoder.drain_succ_of_ready rfl]
          change (Decoder.drain P (0 + 1) (binaryDecoder limits true false (emitted + 1)) >>= _) >>= _ = _
          rw [hidle]
          rfl

theorem foldlM_pushFrame_binary {seen : Bool} {emitted : ℕ} {t : List Record × Decoder}
    (hframes : ∀ frame ∈ frames, frame.length ≤ limits.maxSourceFrameBytes)
    (h : frames.foldlM (pushFrame P) (records, binaryDecoder limits seen false emitted) = .ok t)
    (hsmall : ∀ r ∈ records, r.payload.length ≤ limits.maxRecordBytes) :
    joined t.1 = joined records ++ frames.flatten ∧
      (∀ r ∈ t.1, r.payload.length ≤ limits.maxRecordBytes) ∧
      ∃ seen' emitted', t.2 = binaryDecoder limits seen' false emitted' := by
  induction frames generalizing seen emitted records with
  | nil =>
      obtain rfl := Except.ok.inj h
      exact ⟨by simp, hsmall, seen, emitted, rfl⟩
  | cons frame frames ih =>
      obtain ⟨hframe, hrest⟩ := List.forall_mem_cons.mp hframes
      obtain ⟨u, hu, hloop⟩ := foldlM_cons_eq_ok.mp h
      rw [pushFrame_binary hframe] at hu
      split at hu
      next hempty =>
        obtain rfl := Except.ok.inj hu
        simpa [hempty] using ih hrest hloop hsmall
      · obtain ⟨_, hmax, hu⟩ := bind_eq_ok.mp hu
        obtain rfl := Except.ok.inj hu
        rw [rejectIf_eq_ok, not_lt] at hmax
        obtain ⟨hjoined, hall⟩ := ih hrest hloop fun r hr => by
          rcases List.mem_append.mp hr with hr | hr
          · exact hsmall r hr
          · exact List.mem_singleton.mp hr ▸ hmax
        exact ⟨by simpa using hjoined, hall⟩

theorem binary_lossless (hframes : ∀ frame ∈ frames, frame.length ≤ limits.maxSourceFrameBytes)
    (h : decode P .binary limits frames = .ok records) :
    joined records = frames.flatten ∧ ∀ r ∈ records, r.payload.length ≤ limits.maxRecordBytes := by
  obtain ⟨d, hnew, h⟩ := bind_eq_ok.mp h
  obtain ⟨_, -, hnew⟩ := bind_eq_ok.mp hnew
  obtain rfl : binaryDecoder limits false false 0 = d := Except.ok.inj hnew
  obtain ⟨⟨all, d⟩, hloop, h⟩ := bind_eq_ok.mp h
  obtain ⟨hjoined, hsmall, seen, emitted, rfl⟩ := foldlM_pushFrame_binary hframes hloop (by simp)
  have hfinish : (binaryDecoder limits seen false emitted).finish P =
      .ok { binaryDecoder limits seen true emitted with complete := true } := by
    simp [Decoder.finish, binaryDecoder, Decoder.prepareNext, Decoder.prepareBinary, rejectIf, pure_ok]
  change ((binaryDecoder limits seen false emitted).finish P >>= _) = _ at h
  rw [hfinish, ok_bind, Decoder.drainAll_complete rfl rfl, ok_bind] at h
  obtain rfl := Except.ok.inj h
  rw [List.append_nil]
  exact ⟨hjoined, hsmall⟩

/-! ### All formats -/

/-- Nothing is lost but the line terminators of empty records of CSV, and no
payload is too long. -/
theorem decode_lossless {frames : List Bytes} {records : List Record}
    (hframes : ∀ frame ∈ frames, frame.length ≤ limits.maxSourceFrameBytes)
    (h : decode P format limits frames = .ok records) :
    (∃ all, joined all = frames.flatten ∧
      if format = .csv then OmitsEmpty all records else all = records) ∧
      ∀ r ∈ records, r.payload.length ≤ format.maxPayload limits := by
  have hlimits := positive_of_decode h
  cases format with
  | binary =>
      obtain ⟨hjoined, hsmall⟩ := binary_lossless hframes h
      exact ⟨⟨records, hjoined, rfl⟩, hsmall⟩
  | csv =>
      rw [decode_eq_read (by simp) hlimits hframes] at h
      exact csvReader_lossless h
  | json =>
      rw [decode_eq_read (by simp) hlimits hframes] at h
      obtain ⟨hjoined, hsmall⟩ := jsonReader_lossless h
      exact ⟨⟨records, hjoined, rfl⟩, hsmall⟩
  | _ =>
      rw [decode_eq_read (by simp) hlimits hframes] at h
      obtain ⟨hjoined, hsmall⟩ := lineReader_lossless h
      exact ⟨⟨records, hjoined, rfl⟩, hsmall⟩

/-- Two CSV records with an empty line between them, cut in the middle. -/
theorem csv_with_empty_line_lossless :
    decode sampleParsers .csv tinyLimits [['a'.toUInt8, lf, cr], [lf, 'b'.toUInt8]] =
        .ok [⟨['a'.toUInt8], [lf]⟩, ⟨['b'.toUInt8], []⟩] ∧
      (∃ all, joined all = ['a'.toUInt8, lf, cr, lf, 'b'.toUInt8] ∧
        OmitsEmpty all [⟨['a'.toUInt8], [lf]⟩, ⟨['b'.toUInt8], []⟩]) := by
  have h : decode sampleParsers .csv tinyLimits [['a'.toUInt8, lf, cr], [lf, 'b'.toUInt8]] =
      .ok [⟨['a'.toUInt8], [lf]⟩, ⟨['b'.toUInt8], []⟩] := by decide +kernel
  exact ⟨h, (decode_lossless (by decide) h).1⟩

end Maskura.Records
