import Maskura.Records.Lines
import Maskura.Records.Csv

/-!
The meaning of a stream apart from its frames. A reader takes the bytes one
after the other; at the end of a frame it only checks the size of what is open.
For every format with records the decoder is such a reader.
-/

namespace Maskura.Records

open Lib Lib.Chunks

structure Reader where
  State : Type
  start : State
  records : State → List Record
  /-- The bytes of the record that is open. -/
  opened : State → Bytes
  feed : State → UInt8 → Except MaskuraError State
  /-- The check at the end of a frame. -/
  check : State → Except MaskuraError Unit
  /-- All records at the end of the stream; the flag says whether there were
  any bytes. -/
  last : Bool → State → Except MaskuraError (List Record)

namespace Reader

/-- A stream in frames. -/
def read (R : Reader) (frames : List Bytes) : Except MaskuraError (List Record) := do
  let s ← feedChunks R.feed R.check frames R.start
  R.last (!frames.flatten.isEmpty) s

/-- A stream as a whole. -/
def readWhole (R : Reader) (bytes : Bytes) : Except MaskuraError (List Record) := do
  let s ← bytes.foldlM R.feed R.start
  R.check s
  R.last (!bytes.isEmpty) s

end Reader

def lineReader (P : Parsers) (limits : DecoderLimits) : Reader where
  State := LineState
  start := ⟨[], []⟩
  records := LineState.records
  opened := LineState.line
  feed := lineFeed P limits
  check := lineCheck limits
  last := lineLast P limits

def csvReader (P : Parsers) (limits : DecoderLimits) : Reader where
  State := CsvReading
  start := .fresh []
  records := CsvReading.records
  opened := CsvReading.buffered
  feed := csvFeed P limits
  check := csvCheck limits
  last _ := csvLast P limits

/-- The document is not too long. -/
def jsonCheck (limits : DecoderLimits) (document : Bytes) : Except MaskuraError Unit :=
  rejectIf (limits.maxJsonDocumentBytes < document.length)
    (limitError .recordTooLarge "JSON document" document.length limits.maxJsonDocumentBytes)

/-- The end of the stream: the document is read. -/
def jsonLast (P : Parsers) (limits : DecoderLimits) (document : Bytes) :
    Except MaskuraError (List Record) := do
  jsonCheck limits document
  if document.isEmpty then return []
  else
    validateUtf8 P document .decodeEncoding
    match P.json document with
    | .value => return [⟨document, []⟩]
    | .eof message => .error ⟨.decodeJson, message⟩
    | .error message => .error ⟨.decodeJson, message⟩

def jsonFeed (document : Bytes) (byte : UInt8) : Except MaskuraError Bytes :=
  .ok (document ++ [byte])

def jsonReader (P : Parsers) (limits : DecoderLimits) : Reader where
  State := Bytes
  start := []
  records _ := []
  opened := id
  feed := jsonFeed
  check := jsonCheck limits
  last _ := jsonLast P limits

/-- The reader of a format with records; unstructured bytes have none. -/
def reader (P : Parsers) (limits : DecoderLimits) : Format → Reader
  | .csv => csvReader P limits
  | .json => jsonReader P limits
  | _ => lineReader P limits

/-! ### The decoder is a reader -/

/-- A family of decoders does what a reader does: it starts, takes a frame and
ends like it. -/
structure Implements (P : Parsers) (format : Format) (limits : DecoderLimits) (R : Reader)
    (decoder : Bool → R.State → Decoder) : Prop where
  start : R.records R.start = [] ∧ decoder false R.start = {
    format, limits
    pending := []
    ready := none
    scanOffset := 0
    csvState := .fieldStart
    csvFields := 1
    finished := false
    complete := false
    inputSeen := false
    recordsEmitted := 0 }
  frame : ∀ (seen : Bool) (s : R.State) (frame : Bytes), frame.length ≤ limits.maxSourceFrameBytes →
    pushFrame P (R.records s, decoder seen s) frame =
      (feedChunk R.feed R.check s frame >>= fun t =>
        .ok (R.records t, decoder (seen || !frame.isEmpty) t))
  finish : ∀ (seen : Bool) (s : R.State),
    ((decoder seen s).finish P >>= fun d => d.drainAll P >>= fun (more, _) =>
      .ok (R.records s ++ more)) = R.last seen s

variable {P : Parsers} {format : Format} {limits : DecoderLimits}

theorem Implements.frames {R : Reader} {decoder : Bool → R.State → Decoder}
    (h : Implements P format limits R decoder) {frames : List Bytes}
    (hframes : ∀ frame ∈ frames, frame.length ≤ limits.maxSourceFrameBytes) (seen : Bool)
    (s : R.State) :
    frames.foldlM (pushFrame P) (R.records s, decoder seen s) =
      (feedChunks R.feed R.check frames s >>= fun t =>
        .ok (R.records t, decoder (seen || !frames.flatten.isEmpty) t)) := by
  induction frames generalizing seen s with
  | nil => simp [feedChunks, pure_ok]
  | cons frame frames ih =>
      obtain ⟨hframe, hrest⟩ := List.forall_mem_cons.mp hframes
      rw [List.foldlM_cons, h.frame seen s frame hframe, feedChunks, List.foldlM_cons]
      cases feedChunk R.feed R.check s frame with
      | error e => rfl
      | ok t =>
          have hempty : (!(frame ++ frames.flatten).isEmpty) =
              (!frame.isEmpty || !frames.flatten.isEmpty) := by cases frame <;> simp
          rw [ok_bind, ok_bind, ok_bind, ih hrest, List.flatten_cons, hempty, Bool.or_assoc]
          rfl

/-- The limits a decoder can be made with. -/
def DecoderLimits.Positive (limits : DecoderLimits) : Prop :=
  limits.maxSourceFrameBytes ≠ 0 ∧ limits.maxRecordBytes ≠ 0 ∧ limits.maxJsonDocumentBytes ≠ 0 ∧
    limits.maxCsvFields ≠ 0

/-- Decoding is reading. -/
theorem Implements.decode_eq {R : Reader} {decoder : Bool → R.State → Decoder}
    (h : Implements P format limits R decoder) {frames : List Bytes}
    (hframes : ∀ frame ∈ frames, frame.length ≤ limits.maxSourceFrameBytes)
    (hlimits : limits.Positive) : decode P format limits frames = R.read frames := by
  have hnew : Decoder.new format limits = .ok (decoder false R.start) := by
    obtain ⟨h₁, h₂, h₃, h₄⟩ := hlimits
    rw [h.start.2]
    simp [Decoder.new, rejectIf, h₁, h₂, h₃, h₄, pure_ok]
  have hpush := h.frames hframes false R.start
  rw [h.start.1] at hpush
  rw [decode, hnew, ok_bind, hpush, Reader.read]
  cases feedChunks R.feed R.check frames R.start with
  | error e => rfl
  | ok s => exact h.finish _ s

/-! ### Lines -/

theorem implements_line (hformat : format.isLine = true) :
    Implements P format limits (lineReader P limits) (lineDecoder format limits) where
  start := ⟨rfl, rfl⟩
  frame _ _ _ hframe := pushFrame_line hformat hframe
  finish seen s := by
    set d : Decoder := { lineDecoder format limits seen s with finished := true } with hd
    have hprepare : d.prepareNext P true = d.prepareLine P true :=
      Decoder.prepareNext_line hformat rfl rfl rfl true
    have hnone : (d.pending.drop d.scanOffset).findIdx? (· == lf) = none := by
      simp [hd, lineDecoder]
    have hcsv : format ≠ .csv := by rintro rfl; simp [Format.isLine] at hformat
    have hfinish : (lineDecoder format limits seen s).finish P =
        (d.prepareLine P true >>= fun d =>
          rejectIf (d.format = .csv ∧ d.ready.isNone = true ∧ d.recordsEmitted = 0)
            ⟨.decodeCsv, "no CSV records found"⟩ >>= fun _ => .ok d) := by
      rw [← hprepare]
      rfl
    have hlast : ∀ d' : Decoder, d'.format = format →
        (rejectIf (d'.format = .csv ∧ d'.ready.isNone = true ∧ d'.recordsEmitted = 0)
          (⟨.decodeCsv, "no CSV records found"⟩ : MaskuraError) >>= fun _ => .ok d') = .ok d' := by
      intro d' hd'
      simp [rejectIf, hd', hcsv]
    rw [hfinish, Decoder.prepareLine, hnone]
    change ((lineCheck limits s >>= _) >>= _) >>= _ = lineCheck limits s >>= _
    cases lineCheck limits s with
    | error e => rfl
    | ok _ =>
        simp only [ok_bind]
        by_cases hopen : s.line ≠ [] ∨ seen = false
        · rw [if_pos ⟨trivial, hopen⟩, if_pos hopen]
          change ((validateUtf8 P s.line .decodeEncoding >>= _) >>= _) >>= _ = _
          cases validateUtf8 P s.line .decodeEncoding with
          | error e => rfl
          | ok _ =>
              simp only [ok_bind, pure_bind]
              rw [hlast _ rfl, ok_bind, Decoder.drainAll_last rfl rfl]
              rfl
        · rw [if_neg fun h => hopen h.2, if_neg hopen, if_pos trivial]
          rw [pure_bind, hlast _ rfl, ok_bind, Decoder.drainAll_complete rfl rfl, ok_bind]
          exact congrArg Except.ok (List.append_nil s.records)

/-! ### CSV -/

section Csv

variable {seen : Bool}

theorem csvLoop_nil {s : CsvReading} {fuel : ℕ} :
    Decoder.csvLoop P true fuel (csvDecoder limits seen true s []) =
      .ok (false, csvDecoder limits seen true s []) := by
  cases fuel with
  | zero => rfl
  | succ fuel =>
      have hnone : (csvDecoder limits seen true s []).pending[
          (csvDecoder limits seen true s []).scanOffset]? = none := by simp [csvDecoder]
      rw [Decoder.csvLoop, hnone]

/-- Behind the last separator there is nothing to prepare. -/
theorem prepareCsv_fresh {records : List Record} :
    (csvDecoder limits seen true (.fresh records) []).prepareCsv P true =
      .ok { csvDecoder limits seen true (.fresh records) [] with complete := true } := by
  rw [Decoder.prepareCsv, csvLoop_nil, ok_bind]
  simp [csvDecoder, CsvReading.fresh, Decoder.ensurePendingLimit, rejectIf, pure_ok]

theorem drainAll_fresh {records : List Record} {record : Record} :
    Decoder.drainAll P { csvDecoder limits seen true (.fresh (records ++ [record])) [] with
      ready := some record
      recordsEmitted := records.length } =
      .ok ([record],
        { csvDecoder limits seen true (.fresh (records ++ [record])) [] with complete := true }) := by
  have htaken : Decoder.taken { csvDecoder limits seen true (.fresh (records ++ [record])) [] with
      ready := some record
      recordsEmitted := records.length } =
      csvDecoder limits seen true (.fresh (records ++ [record])) [] := by
    simp [Decoder.taken, csvDecoder, CsvReading.fresh]
  have hprepare : (csvDecoder limits seen true (.fresh (records ++ [record])) []).prepareNext P true =
      (csvDecoder limits seen true (.fresh (records ++ [record])) []).prepareCsv P true := rfl
  rw [Decoder.drainAll, Decoder.drain_succ_of_ready rfl, htaken, Decoder.drain_succ rfl]
  change ((csvDecoder limits seen true (.fresh (records ++ [record])) []).prepareNext P true >>= _) >>=
    _ = _
  rw [hprepare, prepareCsv_fresh]
  rfl

/-- At the end of the stream with nothing buffered, there must have been a record. -/
theorem finish_csv_complete {d : Decoder} {records : List Record} (hformat : d.format = .csv)
    (hready : d.ready = none) (hcomplete : d.complete = true)
    (hemitted : d.recordsEmitted = records.length) :
    ((rejectIf (d.format = .csv ∧ d.ready.isNone = true ∧ d.recordsEmitted = 0)
        (⟨.decodeCsv, "no CSV records found"⟩ : MaskuraError) >>= fun _ => .ok d) >>= fun d =>
          d.drainAll P >>= fun (more, _) => .ok (records ++ more)) =
      (rejectIf (records = []) ⟨.decodeCsv, "no CSV records found"⟩ >>= fun _ => .ok records) := by
  by_cases hrecords : records = []
  · rw [rejectIf_pos ⟨hformat, by rw [hready]; rfl, by rw [hemitted, hrecords]; rfl⟩,
      rejectIf_pos hrecords]
    rfl
  · rw [rejectIf_neg fun h => hrecords (List.length_eq_zero_iff.mp (hemitted ▸ h.2.2)),
      rejectIf_neg hrecords, ok_bind, ok_bind, ok_bind, Decoder.drainAll_complete hready hcomplete,
      ok_bind]
    exact congrArg Except.ok (List.append_nil records)

/-- The end of a CSV stream that does not end in a CR. -/
theorem finish_csv_open {s : CsvReading} (hcr : s.pendingCr = false) :
    ((csvDecoder limits seen false s s.tail).finish P >>= fun d => d.drainAll P >>= fun (more, _) =>
      .ok (s.records ++ more)) = csvLast P limits s := by
  have htail : s.tail = [] := by simp [CsvReading.tail, hcr]
  have hpending : (csvDecoder limits seen true s []).pending = s.payload := List.append_nil _
  have hbuffered : s.buffered = s.payload := by rw [CsvReading.buffered, htail, List.append_nil]
  have hfinish : (csvDecoder limits seen false s []).finish P =
      ((csvDecoder limits seen true s []).prepareCsv P true >>= fun d =>
        rejectIf (d.format = .csv ∧ d.ready.isNone = true ∧ d.recordsEmitted = 0)
          ⟨.decodeCsv, "no CSV records found"⟩ >>= fun _ => .ok d) := rfl
  have hcheck : (csvDecoder limits seen true s []).ensurePendingLimit limits.maxRecordBytes
      "CSV record" = csvCheck limits s := by
    rw [Decoder.ensurePendingLimit, hpending, csvCheck, hbuffered]
  have hvalidate : ∀ n, n = s.payload.length →
      (csvDecoder limits seen true s []).validateCsv P n = checkCsv P limits s.payload := by
    rintro _ rfl
    rw [Decoder.validateCsv, hpending, List.take_length]
    rfl
  rw [csvLast, hcr, htail, hfinish, Decoder.prepareCsv, csvLoop_nil, ok_bind, csvLastOpen]
  change (((csvDecoder limits seen true s []).ensurePendingLimit limits.maxRecordBytes
    "CSV record" >>= _) >>= _) >>= _ = (csvCheck limits s >>= _) >>= _
  rw [hcheck]
  cases csvCheck limits s with
  | error e => rfl
  | ok _ =>
      rw [ok_bind, ok_bind]
      change (((rejectIf (s.state = .quoted) _ >>= _) >>= _) >>= _) =
        (rejectIf (s.state = .quoted) _ >>= _) >>= _
      cases rejectIf (s.state = .quoted)
        (⟨.decodeCsv, "unterminated quoted CSV field"⟩ : MaskuraError) with
      | error e => rfl
      | ok _ =>
          rw [ok_bind, ok_bind, hpending]
          by_cases hpayload : s.payload = []
          · rw [if_neg (not_not.mpr hpayload), if_neg (not_not.mpr hpayload), pure_bind, pure_bind]
            exact finish_csv_complete rfl rfl rfl rfl
          · rw [if_pos hpayload, if_pos hpayload, hvalidate _ rfl]
            cases checkCsv P limits s.payload with
            | error e => rfl
            | ok _ =>
                rw [ok_bind, ok_bind]
                cases validateUtf8 P s.payload .decodeEncoding with
                | error e => rfl
                | ok _ =>
                    rw [ok_bind, ok_bind, pure_bind, pure_bind,
                      rejectIf_neg (by simp [Decoder.emitFinal, Decoder.resetCsvState]), ok_bind,
                      ok_bind, Decoder.drainAll_last rfl rfl, ok_bind, ← hpending]
                    change _ = (rejectIf (_ ++ [_] = []) _ >>= _)
                    rw [rejectIf_neg (by simp)]
                    rfl

/-- A CR at the end of the stream is a separator. -/
theorem csvLoop_cr {s : CsvReading} {fuel : ℕ} (hquoted : s.state ≠ .quoted) :
    Decoder.csvLoop P true (fuel + 1) (csvDecoder limits seen true s [cr]) =
      if s.state = .fieldStart ∧ s.payload = [] then
        .ok (false, csvDecoder limits seen true (.fresh s.records) [])
      else
        csvClose P limits s [cr] >>= fun t =>
          .ok (true, { csvDecoder limits seen true t [] with
            ready := some ⟨s.payload, [cr]⟩
            recordsEmitted := s.records.length }) := by
  rw [csvLoop_terminator hquoted (.inr rfl), csvDecoder_boundary, if_neg (show cr ≠ lf by decide)]
  simp only [if_true, List.length_eq_zero_iff]
  split
  next hempty =>
    have hconsume : (csvDecoder limits seen true s [cr]).consumeCsvEmpty (s.payload.length + 1) =
        csvDecoder limits seen true (.fresh s.records) [] :=
      @csvDecoder_consume _ _ _ _ [] [cr] hempty.2
    rw [hconsume, csvLoop_nil]
  next hopen =>
    have hemit : (csvDecoder limits seen true s [cr]).emitCsv P s.payload.length
        (s.payload.length + 1) = _ := @csvDecoder_emit P limits seen true s [] [cr] hopen
    rw [hemit, bind_assoc]
    rfl

/-- The end of a CSV stream whose last byte is a CR. -/
theorem finish_csv_cr {s : CsvReading} (hcr : s.pendingCr = true) :
    ((csvDecoder limits seen false s s.tail).finish P >>= fun d => d.drainAll P >>= fun (more, _) =>
      .ok (s.records ++ more)) = csvLast P limits s := by
  have htail : s.tail = [cr] := by simp [CsvReading.tail, hcr]
  have hfuel : (csvDecoder limits seen true s [cr]).pending.length = s.payload.length + 1 := by
    simp [csvDecoder]
  have hfinish : (csvDecoder limits seen false s [cr]).finish P =
      ((csvDecoder limits seen true s [cr]).prepareCsv P true >>= fun d =>
        rejectIf (d.format = .csv ∧ d.ready.isNone = true ∧ d.recordsEmitted = 0)
          ⟨.decodeCsv, "no CSV records found"⟩ >>= fun _ => .ok d) := rfl
  rw [csvLast, hcr, htail, hfinish]
  by_cases hempty : s.state = .fieldStart ∧ s.payload = []
  · have hfresh := @prepareCsv_fresh P limits seen s.records
    rw [Decoder.prepareCsv, csvLoop_nil] at hfresh
    rw [Decoder.prepareCsv, hfuel, csvLoop_cr (s.outside hcr), if_pos hempty, hfresh, ok_bind, csvClose,
      if_pos hempty]
    exact finish_csv_complete rfl rfl rfl rfl
  · rw [Decoder.prepareCsv, hfuel, csvLoop_cr (s.outside hcr), if_neg hempty]
    cases hclosed : csvClose P limits s [cr] with
    | error e => rfl
    | ok t =>
        obtain rfl := csvClose_record hempty hclosed
        simp only [ok_bind, if_true]
        rw [pure_bind, rejectIf_neg (by simp), ok_bind, ok_bind, drainAll_fresh, ok_bind]
        change _ = (rejectIf (_ ++ [_] = []) _ >>= _)
        rw [rejectIf_neg (by simp)]
        rfl

end Csv

theorem implements_csv :
    Implements P .csv limits (csvReader P limits)
      (fun seen s => csvDecoder limits seen false s s.tail) where
  start := ⟨rfl, rfl⟩
  frame _ _ _ hframe := pushFrame_csv hframe
  finish seen s := by
    cases hcr : s.pendingCr with
    | false => exact finish_csv_open hcr
    | true => exact finish_csv_cr hcr

/-! ### JSON -/

/-- The decoder of a JSON document between frames. -/
def jsonDecoder (limits : DecoderLimits) (seen : Bool) (document : Bytes) : Decoder where
  format := .json
  limits := limits
  pending := document
  ready := none
  scanOffset := 0
  csvState := .fieldStart
  csvFields := 1
  finished := false
  complete := false
  inputSeen := seen
  recordsEmitted := 0

theorem foldlM_jsonFeed {document bytes : Bytes} :
    bytes.foldlM jsonFeed document = .ok (document ++ bytes) := by
  induction bytes generalizing document with
  | nil => simp [pure_ok]
  | cons byte bytes ih => rw [List.foldlM_cons, jsonFeed, ok_bind, ih, List.append_assoc]; rfl

theorem pushFrame_json {seen : Bool} {document frame : Bytes}
    (hframe : frame.length ≤ limits.maxSourceFrameBytes) :
    pushFrame P ([], jsonDecoder limits seen document) frame =
      (feedChunk jsonFeed (jsonCheck limits) document frame >>= fun t =>
        .ok ([], jsonDecoder limits (seen || !frame.isEmpty) t)) := by
  set d := jsonDecoder limits (seen || !frame.isEmpty) (document ++ frame) with hd
  have hprepare : d.prepareNext P false = (jsonCheck limits (document ++ frame) >>= fun _ => .ok d) :=
    rfl
  have hpush : (jsonDecoder limits seen document).push P frame = d.prepareNext P false := by
    simp [Decoder.push, jsonDecoder, rejectIf, Nat.not_lt.mpr hframe, hd]
  rw [pushFrame, hpush, feedChunk, foldlM_jsonFeed, ok_bind, hprepare]
  cases hcheck : jsonCheck limits (document ++ frame) with
  | error e => rfl
  | ok _ =>
      rw [ok_bind, ok_bind, Decoder.drainAll, Decoder.drain_succ rfl]
      change ((d.prepareNext P false >>= _) >>= _) = _
      rw [hprepare, hcheck]
      rfl

theorem implements_json :
    Implements P .json limits (jsonReader P limits) (jsonDecoder limits) where
  start := ⟨rfl, rfl⟩
  frame _ _ _ hframe := pushFrame_json hframe
  finish seen document := by
    have hfinish : (jsonDecoder limits seen document).finish P =
        (({ jsonDecoder limits seen document with finished := true } : Decoder).prepareJson P true >>=
          fun d => rejectIf (d.format = .csv ∧ d.ready.isNone = true ∧ d.recordsEmitted = 0)
            ⟨.decodeCsv, "no CSV records found"⟩ >>= fun _ => .ok d) := rfl
    rw [hfinish, Decoder.prepareJson]
    change ((jsonCheck limits document >>= _) >>= _) >>= _ = jsonCheck limits document >>= _
    cases jsonCheck limits document with
    | error e => rfl
    | ok _ =>
        cases document with
        | nil => rfl
        | cons byte document =>
            change ((validateUtf8 P (byte :: document) .decodeEncoding >>= _) >>= _) >>= _ =
              validateUtf8 P (byte :: document) .decodeEncoding >>= _
            cases validateUtf8 P (byte :: document) .decodeEncoding with
            | error e => rfl
            | ok _ =>
                simp only [ok_bind]
                change ((match P.json (byte :: document) with
                  | .value => _
                  | .eof message => _
                  | .error message => _) >>= _) >>= _ = _
                cases P.json (byte :: document) with
                | value => rfl
                | eof message => rfl
                | error message => rfl

/-- For every format with records, decoding is reading. -/
theorem decode_eq_read (hformat : format ≠ .binary) (hlimits : limits.Positive) {frames : List Bytes}
    (hframes : ∀ frame ∈ frames, frame.length ≤ limits.maxSourceFrameBytes) :
    decode P format limits frames = (reader P limits format).read frames := by
  cases format with
  | text => exact (implements_line rfl).decode_eq hframes hlimits
  | jsonl => exact (implements_line rfl).decode_eq hframes hlimits
  | tsv => exact (implements_line rfl).decode_eq hframes hlimits
  | csv => exact implements_csv.decode_eq hframes hlimits
  | json => exact implements_json.decode_eq hframes hlimits
  | binary => exact absurd rfl hformat

theorem positive_of_decode {frames : List Bytes} {records : List Record}
    (h : decode P format limits frames = .ok records) : limits.Positive := by
  obtain ⟨d, hnew, -⟩ := bind_eq_ok.mp h
  obtain ⟨_, hzero, -⟩ := bind_eq_ok.mp hnew
  simp only [rejectIf_eq_ok, not_or] at hzero
  exact hzero

end Maskura.Records
