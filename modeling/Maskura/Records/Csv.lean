import Maskura.Records.Drain

/-!
Reading CSV byte by byte: the state of the record that is open, with a CR kept
apart until it is known whether an LF follows. Pushing a frame and draining
feeds its bytes to this reader, and then checks the size of the open record
together with its CR.
-/

namespace Maskura.Records

open Lib Lib.Chunks Lib.Run

variable {P : Parsers} {limits : DecoderLimits}

/-- The records read so far and the one that is open. -/
structure CsvReading where
  records : List Record
  payload : Bytes
  state : CsvState
  fields : ℕ
  /-- A CR behind the payload that may be the first half of a separator. -/
  pendingCr : Bool
  outside : pendingCr = true → state ≠ .quoted

/-- A new record behind those read. -/
def CsvReading.fresh (records : List Record) : CsvReading where
  records := records
  payload := []
  state := .fieldStart
  fields := 1
  pendingCr := false
  outside := by simp

/-- The bytes behind the payload that are kept between frames. -/
def CsvReading.tail (s : CsvReading) : Bytes := if s.pendingCr then [cr] else []

/-- What the decoder has buffered of the open record. -/
def CsvReading.buffered (s : CsvReading) : Bytes := s.payload ++ s.tail

/-- The byte belongs to the open record. -/
def CsvReading.add (s : CsvReading) (byte : UInt8) (state : CsvState) (fields : ℕ) : CsvReading where
  records := s.records
  payload := s.payload ++ [byte]
  state := state
  fields := fields
  pendingCr := false
  outside := by simp

/-- The checks of a record of CSV: the parser reads it as one record. -/
def checkCsv (P : Parsers) (limits : DecoderLimits) (payload : Bytes) : Except MaskuraError Unit := do
  let input := payload ++ [lf]
  let read := P.csv input (payload.length + 1) limits.maxCsvFields
  rejectIf (read.record = false ∨ read.consumed ≠ input.length)
    ⟨.decodeCsv, "CSV parser did not produce one complete record"⟩
  rejectIf (limits.maxCsvFields < read.fields)
    (limitError .recordTooLarge "CSV field count" read.fields limits.maxCsvFields)

/-- The open record ends at a separator. An empty one is left out. -/
def csvClose (P : Parsers) (limits : DecoderLimits) (s : CsvReading) (separator : Bytes) :
    Except MaskuraError CsvReading :=
  if s.state = .fieldStart ∧ s.payload = [] then .ok (.fresh s.records)
  else do
    checkCsv P limits s.payload
    validateUtf8 P s.payload .decodeEncoding
    rejectIf (limits.maxRecordBytes < s.payload.length)
      (limitError .recordTooLarge "record" s.payload.length limits.maxRecordBytes)
    validateUtf8 P s.payload .decodeCsv
    return .fresh (s.records ++ [⟨s.payload, separator⟩])

/-- A comma begins a new field. -/
def csvComma (limits : DecoderLimits) (s : CsvReading) : Except MaskuraError CsvReading := do
  rejectIf (limits.maxCsvFields < s.fields + 1)
    (limitError .recordTooLarge "CSV field count" (s.fields + 1) limits.maxCsvFields)
  return s.add comma .fieldStart (s.fields + 1)

/-- A CR outside of quotes waits for the next byte. -/
def CsvReading.waitCr (s : CsvReading) (h : s.state ≠ .quoted) : CsvReading :=
  { s with pendingCr := true, outside := fun _ => h }

/-- A byte with no CR before it. -/
def csvByte (P : Parsers) (limits : DecoderLimits) (s : CsvReading) (byte : UInt8) :
    Except MaskuraError CsvReading :=
  match hstate : s.state with
  | .fieldStart =>
      if byte = quote then return s.add byte .quoted s.fields
      else if byte = comma then csvComma limits s
      else if byte = lf then csvClose P limits s [lf]
      else if byte = cr then return s.waitCr (by simp [hstate])
      else return s.add byte .unquoted s.fields
  | .unquoted =>
      if byte = comma then csvComma limits s
      else if byte = quote then .error ⟨.decodeCsv, "quote inside an unquoted CSV field"⟩
      else if byte = lf then csvClose P limits s [lf]
      else if byte = cr then return s.waitCr (by simp [hstate])
      else return s.add byte .unquoted s.fields
  | .quoted => return s.add byte (if byte = quote then .quoteClosed else .quoted) s.fields
  | .quoteClosed =>
      if byte = quote then return s.add byte .quoted s.fields
      else if byte = comma then csvComma limits s
      else if byte = lf then csvClose P limits s [lf]
      else if byte = cr then return s.waitCr (by simp [hstate])
      else .error ⟨.decodeCsv, "unexpected byte after closing CSV quote"⟩

def csvFeed (P : Parsers) (limits : DecoderLimits) (s : CsvReading) (byte : UInt8) :
    Except MaskuraError CsvReading :=
  if s.pendingCr then
    if byte = lf then csvClose P limits s [cr, lf]
    else do
      let s ← csvClose P limits s [cr]
      csvByte P limits s byte
  else csvByte P limits s byte

/-- What is buffered of the open record is not too long. -/
def csvCheck (limits : DecoderLimits) (s : CsvReading) : Except MaskuraError Unit :=
  rejectIf (limits.maxRecordBytes < s.buffered.length)
    (limitError .recordTooLarge "CSV record" s.buffered.length limits.maxRecordBytes)

/-- The last record, when no terminator ends it. -/
def csvLastOpen (P : Parsers) (limits : DecoderLimits) (s : CsvReading) :
    Except MaskuraError (List Record) := do
  csvCheck limits s
  rejectIf (s.state = .quoted) ⟨.decodeCsv, "unterminated quoted CSV field"⟩
  if s.payload ≠ [] then
    checkCsv P limits s.payload
    validateUtf8 P s.payload .decodeEncoding
    return s.records ++ [⟨s.payload, []⟩]
  else return s.records

/-- The end of the stream. There is at least one record. -/
def csvLast (P : Parsers) (limits : DecoderLimits) (s : CsvReading) :
    Except MaskuraError (List Record) := do
  let records ← if s.pendingCr then (csvClose P limits s [cr]).map CsvReading.records
    else csvLastOpen P limits s
  rejectIf (records = []) ⟨.decodeCsv, "no CSV records found"⟩
  return records

/-! ### The decoder -/

/-- The decoder in the middle of a scan: `rest` is not scanned yet. -/
def csvDecoder (limits : DecoderLimits) (seen finished : Bool) (s : CsvReading) (rest : Bytes) :
    Decoder where
  format := .csv
  limits := limits
  pending := s.payload ++ rest
  ready := none
  scanOffset := s.payload.length
  csvState := s.state
  csvFields := s.fields
  finished := finished
  complete := false
  inputSeen := seen
  recordsEmitted := s.records.length

variable {seen finished atEof : Bool} {s : CsvReading} {rest : Bytes} {byte : UInt8}
  {t : CsvReading}

theorem csvDecoder_getElem? :
    (csvDecoder limits seen finished s (byte :: rest)).pending[
      (csvDecoder limits seen finished s (byte :: rest)).scanOffset]? = some byte := by
  simp [csvDecoder]

theorem csvDecoder_advance {state : CsvState} :
    (csvDecoder limits seen finished s (byte :: rest)).advance state =
      csvDecoder limits seen finished (s.add byte state s.fields) rest := by
  simp [csvDecoder, Decoder.advance, CsvReading.add]

theorem csvDecoder_comma {α : Type} (k : Decoder → Except MaskuraError α) :
    ((csvDecoder limits seen finished s (comma :: rest)).incrementCsvFields >>= fun d =>
      k (d.advance .fieldStart)) =
      (csvComma limits s >>= fun s => k (csvDecoder limits seen finished s rest)) := by
  by_cases hfields : limits.maxCsvFields < s.fields + 1
  · simp [Decoder.incrementCsvFields, csvComma, csvDecoder, rejectIf, hfields]
  · simp [Decoder.incrementCsvFields, csvComma, csvDecoder, rejectIf, hfields, Decoder.advance,
      CsvReading.add, pure_ok]

theorem csvDecoder_consume {separator : Bytes} (hpayload : s.payload = []) :
    (csvDecoder limits seen finished s (separator ++ rest)).consumeCsvEmpty
        (s.payload.length + separator.length) =
      csvDecoder limits seen finished (.fresh s.records) rest := by
  simp [csvDecoder, Decoder.consumeCsvEmpty, Decoder.resetCsvState, hpayload, CsvReading.fresh]

/-- A record that is not empty is made ready, and closed for the reader. -/
theorem csvDecoder_emit {separator : Bytes} (hnot : ¬ (s.state = .fieldStart ∧ s.payload = [])) :
    (csvDecoder limits seen finished s (separator ++ rest)).emitCsv P s.payload.length
        (s.payload.length + separator.length) =
      (csvClose P limits s separator >>= fun t =>
        .ok { csvDecoder limits seen finished t rest with
          ready := some ⟨s.payload, separator⟩
          recordsEmitted := s.records.length }) := by
  have htake : (csvDecoder limits seen finished s (separator ++ rest)).pending.take
      s.payload.length = s.payload := by
    simp [csvDecoder]
  rw [Decoder.emitCsv, Decoder.validateCsv, Decoder.emit_eq rfl rfl, csvClose, if_neg hnot, htake]
  simp only [bind_assoc, pure_bind, checkCsv]
  rfl

/-- A terminator ends the record, unless it is a CR with nothing behind it yet. -/
theorem csvLoop_terminator {fuel : ℕ} (hquoted : s.state ≠ .quoted) (hbyte : byte = lf ∨ byte = cr) :
    Decoder.csvLoop P atEof (fuel + 1) (csvDecoder limits seen finished s (byte :: rest)) =
      match (csvDecoder limits seen finished s (byte :: rest)).csvBoundary s.payload.length atEof with
      | some (payloadEnd, separatorEnd) =>
          if s.state = .fieldStart ∧ payloadEnd = 0 then
            Decoder.csvLoop P atEof fuel
              ((csvDecoder limits seen finished s (byte :: rest)).consumeCsvEmpty separatorEnd)
          else
            (csvDecoder limits seen finished s (byte :: rest)).emitCsv P payloadEnd separatorEnd >>=
              fun d => .ok (true, d)
      | none => .ok (false, csvDecoder limits seen finished s (byte :: rest)) := by
  have hq : byte ≠ quote := by rcases hbyte with rfl | rfl <;> decide
  have hc : byte ≠ comma := by rcases hbyte with rfl | rfl <;> decide
  rw [Decoder.csvLoop, csvDecoder_getElem?]
  have hstate : (csvDecoder limits seen finished s (byte :: rest)).csvState = s.state := rfl
  have hoffset : (csvDecoder limits seen finished s (byte :: rest)).scanOffset = s.payload.length := rfl
  simp only [hstate, hoffset]
  cases hs : s.state with
  | quoted => exact absurd hs hquoted
  | fieldStart => simp only [hq, hc, hbyte, if_false, if_true, true_and]; rfl
  | unquoted => simp [hq, hc, hbyte]; rfl
  | quoteClosed => simp [hq, hc, hbyte]; rfl

theorem csvDecoder_boundary :
    (csvDecoder limits seen finished s (byte :: rest)).csvBoundary s.payload.length atEof =
      if byte = lf then some (s.payload.length, s.payload.length + 1)
      else
        match rest with
        | [] => if atEof then some (s.payload.length, s.payload.length + 1) else none
        | next :: _ =>
            if next = lf then some (s.payload.length, s.payload.length + 2)
            else some (s.payload.length, s.payload.length + 1) := by
  have hhead : (s.payload ++ byte :: rest)[s.payload.length]? = some byte := by simp
  rw [Decoder.csvBoundary]
  simp only [csvDecoder, hhead, Option.some.injEq]
  split
  · rfl
  cases rest with
  | nil => simp
  | cons next rest =>
      simp

/-- Any other byte is one of the open record. -/
theorem csvLoop_byte {fuel : ℕ} (hbyte : ¬ (s.state ≠ .quoted ∧ (byte = lf ∨ byte = cr))) :
    Decoder.csvLoop P atEof (fuel + 1) (csvDecoder limits seen finished s (byte :: rest)) =
      (csvByte P limits s byte >>= fun t =>
        Decoder.csvLoop P atEof fuel (csvDecoder limits seen finished t rest)) := by
  have hplain : s.state ≠ .quoted → byte ≠ lf ∧ byte ≠ cr := fun h =>
    ⟨fun heq => hbyte ⟨h, .inl heq⟩, fun heq => hbyte ⟨h, .inr heq⟩⟩
  rw [Decoder.csvLoop, csvDecoder_getElem?]
  obtain ⟨records, payload, state, fields, pendingCr, outside⟩ := s
  cases state with
  | unquoted =>
      obtain ⟨hlf, hcr⟩ := hplain (by simp)
      by_cases hc : byte = comma
      · subst hc
        simp only [csvByte, if_true]
        exact csvDecoder_comma _
      · by_cases hq : byte = quote
        · simp only [csvByte, hq, if_true]
          rfl
        · simp only [csvByte, csvDecoder_advance, hq, hc, hlf, hcr, or_self, if_false]
          rfl
  | quoted =>
      simp only [csvByte, csvDecoder_advance]
      rfl
  | _ =>
      obtain ⟨hlf, hcr⟩ := hplain (by simp)
      by_cases hq : byte = quote
      · simp only [csvByte, csvDecoder_advance, hq, if_true]
        rfl
      · by_cases hc : byte = comma
        · subst hc
          simp only [csvByte, hq, if_false, if_true]
          exact csvDecoder_comma _
        · simp only [csvByte, csvDecoder_advance, hq, hc, hlf, hcr, or_self, if_false]
          rfl

/-- A byte with no CR before it ends the record, is a CR, or belongs to the record. -/
theorem csvByte_cases (h : csvByte P limits s byte = .ok t) :
    (s.state ≠ .quoted ∧ byte = lf ∧ csvClose P limits s [lf] = .ok t) ∨
    (∃ hquoted : s.state ≠ .quoted, byte = cr ∧ t = s.waitCr hquoted) ∨
    (∃ state fields, t = s.add byte state fields ∧
      (state = .quoted ↔ (s.state = .quoted ↔ byte ≠ quote)) ∧
      (s.state ≠ .quoted → byte ≠ lf ∧ byte ≠ cr)) := by
  have hcommas : comma ≠ lf ∧ comma ≠ cr ∧ comma ≠ quote := by decide
  have hquotes : quote ≠ lf ∧ quote ≠ cr := by decide
  have hcomma : ∀ {u : CsvReading}, csvComma limits s = .ok u →
      u = s.add comma .fieldStart (s.fields + 1) := by
    intro u hu
    simp only [csvComma, bind_eq_ok, pure_eq_ok] at hu
    obtain ⟨_, -, rfl⟩ := hu
    rfl
  have hsame : ∀ {u : CsvReading}, (pure u : Except MaskuraError _) = .ok t → t = u :=
    fun heq => (Except.ok.inj heq).symm
  rw [csvByte] at h
  split at h
  case h_3 hs =>
    exact .inr (.inr ⟨_, _, hsame h, by split <;> simp [*], fun hquoted => absurd hs hquoted⟩)
  case h_2 hs =>
    split_ifs at h with hc hq hlf hcr
    · exact .inr (.inr ⟨_, _, hc ▸ hcomma h, by simp [hs, hc, hcommas], by simp [hc, hcommas]⟩)
    · exact .inl ⟨by simp [hs], hlf, h⟩
    · exact .inr (.inl ⟨by simp [hs], hcr, hsame h⟩)
    · exact .inr (.inr ⟨_, _, hsame h, by simp [hs, hq], fun _ => ⟨hlf, hcr⟩⟩)
  all_goals
    rename_i hs
    split_ifs at h with hq hc hlf hcr
    · exact .inr (.inr ⟨_, _, hsame h, by simp [hs, hq], by simp [hq, hquotes]⟩)
    · exact .inr (.inr ⟨_, _, hc ▸ hcomma h, by simp [hs, hc, hcommas], by simp [hc, hcommas]⟩)
    · exact .inl ⟨by simp [hs], hlf, h⟩
    · exact .inr (.inl ⟨by simp [hs], hcr, hsame h⟩)
  -- Only where a field starts may any other byte follow.
  exact .inr (.inr ⟨_, _, hsame h, by simp [*], fun _ => ⟨‹_›, ‹_›⟩⟩)

theorem csvByte_open (hbyte : ¬ (s.state ≠ .quoted ∧ (byte = lf ∨ byte = cr)))
    (h : csvByte P limits s byte = .ok t) : t.pendingCr = false ∧ s.records = t.records := by
  rcases csvByte_cases h with ⟨hquoted, hlf, -⟩ | ⟨hquoted, hcr, -⟩ | ⟨state, fields, rfl, -, -⟩
  · exact absurd ⟨hquoted, .inl hlf⟩ hbyte
  · exact absurd ⟨hquoted, .inr hcr⟩ hbyte
  · exact ⟨rfl, rfl⟩

/-! ### What the reader does with a record -/

theorem csvClose_fresh {separator : Bytes} (h : csvClose P limits s separator = .ok t) :
    ∃ more, t = .fresh (s.records ++ more) := by
  rw [csvClose] at h
  split at h
  · exact ⟨[], by rw [List.append_nil]; exact (Except.ok.inj h).symm⟩
  · simp only [bind_eq_ok, pure_eq_ok] at h
    obtain ⟨_, -, _, -, _, -, _, -, rfl⟩ := h
    exact ⟨_, rfl⟩

theorem csvClose_record {separator : Bytes} (hnot : ¬ (s.state = .fieldStart ∧ s.payload = []))
    (h : csvClose P limits s separator = .ok t) :
    t = .fresh (s.records ++ [⟨s.payload, separator⟩]) := by
  rw [csvClose, if_neg hnot] at h
  simp only [bind_eq_ok, pure_eq_ok] at h
  obtain ⟨_, -, _, -, _, -, _, -, rfl⟩ := h
  rfl

theorem csvFeed_of_not_cr (h : s.pendingCr = false) :
    csvFeed P limits s byte = csvByte P limits s byte := by
  simp [csvFeed, h]

theorem csvByte_terminator (hquoted : s.state ≠ .quoted) :
    csvByte P limits s lf = csvClose P limits s [lf] ∧
      csvByte P limits s cr = .ok (s.waitCr hquoted) := by
  have hlf : lf ≠ quote ∧ lf ≠ comma := by decide
  have hcr : cr ≠ quote ∧ cr ≠ comma ∧ cr ≠ lf := by decide
  constructor
  · rw [csvByte]
    split <;> first | contradiction | simp [hlf]
  · rw [csvByte]
    split <;> first | contradiction | simp [hcr, pure_ok]

/-- A CR, read with what stands behind it. -/
theorem foldlM_csvFeed_cr (hcr : s.pendingCr = false) (hquoted : s.state ≠ .quoted) :
    (cr :: byte :: rest).foldlM (csvFeed P limits) s =
      if byte = lf then
        csvClose P limits s [cr, lf] >>= fun t => rest.foldlM (csvFeed P limits) t
      else csvClose P limits s [cr] >>= fun t => (byte :: rest).foldlM (csvFeed P limits) t := by
  rw [List.foldlM_cons, csvFeed_of_not_cr hcr, (csvByte_terminator hquoted).2, ok_bind,
    List.foldlM_cons, csvFeed]
  have hclose : ∀ separator, csvClose P limits (s.waitCr hquoted) separator =
      csvClose P limits s separator := fun _ => rfl
  rw [if_pos (show (s.waitCr hquoted).pendingCr = true from rfl)]
  split
  · rw [hclose]
  · rw [hclose, bind_assoc]
    cases h : csvClose P limits s [cr] with
    | error e => rfl
    | ok t =>
        obtain ⟨more, rfl⟩ := csvClose_fresh h
        rw [ok_bind, ok_bind, List.foldlM_cons, csvFeed_of_not_cr rfl]

/-- A byte behind a CR may be the LF of its separator. -/
theorem csvFeed_cases (h : csvFeed P limits s byte = .ok t) :
    (s.pendingCr = true ∧ byte = lf ∧ csvClose P limits s [cr, lf] = .ok t) ∨
    (s.pendingCr = true ∧ byte ≠ lf ∧
      ∃ u, csvClose P limits s [cr] = .ok u ∧ csvByte P limits u byte = .ok t) ∨
    (s.pendingCr = false ∧ csvByte P limits s byte = .ok t) := by
  rw [csvFeed] at h
  split_ifs at h with hcr hlf
  · exact .inl ⟨hcr, hlf, h⟩
  · exact .inr (.inl ⟨hcr, hlf, bind_eq_ok.mp h⟩)
  · exact .inr (.inr ⟨by simpa using hcr, h⟩)

/-- The reader only adds to the records it has read. -/
theorem csvFeed_records (h : csvFeed P limits s byte = .ok t) :
    ∃ more, t.records = s.records ++ more := by
  have hclose : ∀ {s t : CsvReading} {separator}, csvClose P limits s separator = .ok t →
      ∃ more, t.records = s.records ++ more := by
    intro s t separator h
    obtain ⟨more, rfl⟩ := csvClose_fresh h
    exact ⟨more, rfl⟩
  have hbyte : ∀ {s t : CsvReading}, csvByte P limits s byte = .ok t →
      ∃ more, t.records = s.records ++ more := by
    intro s t h
    rcases csvByte_cases h with ⟨-, -, h⟩ | ⟨_, -, rfl⟩ | ⟨_, _, rfl, -, -⟩
    · exact hclose h
    · exact ⟨[], (List.append_nil _).symm⟩
    · exact ⟨[], (List.append_nil _).symm⟩
  rcases csvFeed_cases h with ⟨-, -, h⟩ | ⟨-, -, u, hu, ht⟩ | ⟨-, h⟩
  · exact hclose h
  · obtain ⟨more, hmore⟩ := hclose hu
    obtain ⟨more', hmore'⟩ := hbyte ht
    exact ⟨more ++ more', by rw [hmore', hmore, List.append_assoc]⟩
  · exact hbyte h

theorem foldlM_csvFeed_records {bytes : Bytes} (h : bytes.foldlM (csvFeed P limits) s = .ok t) :
    ∃ more, t.records = s.records ++ more := by
  refine foldlM_preserves (I := fun t => ∃ more, t.records = s.records ++ more) h ?_
    ⟨[], (List.append_nil _).symm⟩
  rintro a b byte - ⟨more, ha⟩ hb
  obtain ⟨more', hb⟩ := csvFeed_records hb
  exact ⟨more ++ more', by rw [hb, ha, List.append_assoc]⟩

/-! ### Draining -/

/-- What draining gives: the records read since `s`, and the decoder as it stands
then. -/
def drained (limits : DecoderLimits) (seen : Bool) (s : CsvReading)
    (read : Except MaskuraError CsvReading) : Except MaskuraError (List Record × Decoder) :=
  read >>= fun t => csvCheck limits t >>= fun _ =>
    .ok (t.records.drop s.records.length, csvDecoder limits seen false t t.tail)

theorem drained_bind {read : Except MaskuraError CsvReading}
    {f : CsvReading → Except MaskuraError CsvReading} :
    drained limits seen s (read >>= f) = (read >>= fun t => drained limits seen s (f t)) := by
  rw [drained, bind_assoc]
  rfl

/-- Two readers with the same records drain alike. -/
theorem drained_congr {read : Except MaskuraError CsvReading} (h : s.records = t.records) :
    drained limits seen s read = drained limits seen t read := by
  rw [drained, drained, h]

/-- A record that is closed is taken, and what is behind it is drained. -/
theorem drained_cons {record : Record} {separator : Bytes} {bytes : Bytes}
    (hrecord : record = ⟨s.payload, separator⟩)
    (hnot : ¬ (s.state = .fieldStart ∧ s.payload = [])) :
    drained limits seen s
        (csvClose P limits s separator >>= fun t => bytes.foldlM (csvFeed P limits) t) =
      (csvClose P limits s separator >>= fun t =>
        drained limits seen t (bytes.foldlM (csvFeed P limits) t) >>= fun (records, d) =>
          .ok (record :: records, d)) := by
  rw [drained_bind]
  cases hclose : csvClose P limits s separator with
  | error e => rfl
  | ok t =>
      have ht : t.records = s.records ++ [record] := by
        rw [csvClose_record hnot hclose, hrecord]
        rfl
      rw [ok_bind, ok_bind, drained, drained]
      cases hread : bytes.foldlM (csvFeed P limits) t with
      | error e => rfl
      | ok u =>
          obtain ⟨more, hmore⟩ := foldlM_csvFeed_records hread
          rw [ok_bind, ok_bind]
          cases csvCheck limits u with
          | error e => rfl
          | ok _ => simp [hmore, ht]

/-- The loop reads on from where the scan stands. What is done with its result
has to check the open record at the end of the bytes, and to read on behind a
record that is ready. -/
theorem csvLoop_reads (bound : ℕ) {fuel : ℕ} (hfuel : rest.length ≤ fuel) (hbound : rest.length ≤ bound)
    (hcr : s.pendingCr = false)
    (next : Bool × Decoder → Except MaskuraError (List Record × Decoder))
    (hend : ∀ t : CsvReading, next (false, csvDecoder limits seen false t t.tail) =
      drained limits seen t (pure t))
    (hready : ∀ (t : CsvReading) (behind : Bytes) (record : Record) (emitted : ℕ),
      behind.length < bound → t.pendingCr = false → t.records.length = emitted + 1 →
      next (true, { csvDecoder limits seen false t behind with
          ready := some record
          recordsEmitted := emitted }) =
        (drained limits seen t (behind.foldlM (csvFeed P limits) t) >>= fun (records, d) =>
          .ok (record :: records, d))) :
    (Decoder.csvLoop P false fuel (csvDecoder limits seen false s rest) >>= next) =
      drained limits seen s (rest.foldlM (csvFeed P limits) s) := by
  have hdone : ∀ s : CsvReading, s.pendingCr = false →
      next (false, csvDecoder limits seen false s []) = drained limits seen s (pure s) := by
    intro s hs
    have hs' := hend s
    rwa [show s.tail = [] by simp [CsvReading.tail, hs]] at hs'
  induction fuel generalizing s rest with
  | zero =>
      obtain rfl : rest = [] := List.length_eq_zero_iff.mp (by omega)
      exact hdone s hcr
  | succ fuel ih =>
      cases rest with
      | nil =>
          have hnone : (csvDecoder limits seen false s []).pending[
              (csvDecoder limits seen false s []).scanOffset]? = none := by simp [csvDecoder]
          rw [Decoder.csvLoop, hnone]
          exact hdone s hcr
      | cons byte rest =>
          simp only [List.length_cons] at hfuel hbound
          -- a terminator: the record is closed with the separator, and the scan goes on behind it
          have hclosed : ∀ (separator behind : Bytes), s.state ≠ .quoted →
              separator ++ behind = byte :: rest → behind.length < bound → behind.length ≤ fuel →
              ((if s.state = .fieldStart ∧ s.payload.length = 0 then
                Decoder.csvLoop P false fuel
                  ((csvDecoder limits seen false s (byte :: rest)).consumeCsvEmpty
                    (s.payload.length + separator.length))
                else (csvDecoder limits seen false s (byte :: rest)).emitCsv P s.payload.length
                    (s.payload.length + separator.length) >>= fun d => .ok (true, d)) >>= next) =
                drained limits seen s
                  (csvClose P limits s separator >>= fun t =>
                    behind.foldlM (csvFeed P limits) t) := by
            intro separator behind hquoted hsplit hbehind hfuel'
            rw [← hsplit]
            split
            next hempty =>
              have hpayload : s.payload = [] := List.length_eq_zero_iff.mp hempty.2
              rw [csvDecoder_consume hpayload, ih hfuel' (by omega) rfl, csvClose,
                if_pos ⟨hempty.1, hpayload⟩, ok_bind]
              exact drained_congr rfl
            next hfull =>
              have hnot : ¬ (s.state = .fieldStart ∧ s.payload = []) := fun h =>
                hfull ⟨h.1, by rw [h.2]; rfl⟩
              rw [csvDecoder_emit hnot, drained_cons rfl hnot, bind_assoc, bind_assoc]
              cases hclose : csvClose P limits s separator with
              | error e => rfl
              | ok t =>
                  have ht := csvClose_record hnot hclose
                  subst ht
                  simp only [ok_bind]
                  exact hready _ _ _ _ hbehind rfl (by simp [CsvReading.fresh])
          by_cases hterminator : s.state ≠ .quoted ∧ (byte = lf ∨ byte = cr)
          · obtain ⟨hquoted, hbyte⟩ := hterminator
            rw [csvLoop_terminator hquoted hbyte, csvDecoder_boundary]
            rcases hbyte with rfl | rfl
            · rw [if_pos rfl, List.foldlM_cons, csvFeed_of_not_cr hcr,
                (csvByte_terminator hquoted).1]
              exact hclosed [lf] rest hquoted rfl (by omega) (by omega)
            · rw [if_neg (show cr ≠ lf by decide)]
              cases rest with
              | nil =>
                  -- the CR waits for the next frame
                  rw [List.foldlM_cons, csvFeed_of_not_cr hcr, (csvByte_terminator hquoted).2]
                  exact (hend (s.waitCr hquoted)).trans (drained_congr rfl)
              | cons second behind =>
                  rw [foldlM_csvFeed_cr hcr hquoted]
                  simp only [List.length_cons] at hbound hfuel
                  by_cases hsecond : second = lf
                  · subst hsecond
                    simp only [if_true]
                    exact hclosed [cr, lf] behind hquoted rfl (by omega) (by omega)
                  · simp only [hsecond, if_false]
                    exact hclosed [cr] (second :: behind) hquoted rfl (by simp; omega)
                      (by simp; omega)
          · rw [csvLoop_byte hterminator, List.foldlM_cons, csvFeed_of_not_cr hcr, drained_bind,
              bind_assoc]
            cases hbyte : csvByte P limits s byte with
            | error e => rfl
            | ok t =>
                obtain ⟨ht, hrecords⟩ := csvByte_open hterminator hbyte
                rw [ok_bind, ok_bind, ih (by omega) (by omega) ht]
                exact drained_congr hrecords.symm

theorem taken_csvDecoder {record : Record} {emitted : ℕ} (h : t.records.length = emitted + 1) :
    ({ csvDecoder limits seen false t rest with
      ready := some record
      recordsEmitted := emitted } : Decoder).taken = csvDecoder limits seen false t rest := by
  simp [Decoder.taken, csvDecoder, h]

/-- The open record at the end of the bytes is checked. -/
theorem ensure_csvDecoder :
    ((csvDecoder limits seen false t t.tail).ensurePendingLimit limits.maxRecordBytes "CSV record" >>=
      fun _ => .ok (([] : List Record), csvDecoder limits seen false t t.tail)) =
      drained limits seen t (pure t) := by
  rw [drained]
  simp only [pure_ok, ok_bind, List.drop_length]
  rfl

/-- Draining reads what has not been scanned yet. -/
theorem drain_csv {n : ℕ} (hn : rest.length < n) (hcr : s.pendingCr = false) :
    Decoder.drain P n (csvDecoder limits seen false s rest) =
      drained limits seen s (rest.foldlM (csvFeed P limits) s) := by
  induction n generalizing s rest with
  | zero => omega
  | succ n ih =>
      rw [Decoder.drain_succ rfl]
      change ((Decoder.csvLoop P false (s.payload ++ rest).length
        (csvDecoder limits seen false s rest) >>= _) >>= _) = _
      rw [bind_assoc]
      refine csvLoop_reads n (by simp) (by omega) hcr _ (fun t => ?_) ?_
      · simp only [Bool.false_eq_true, if_false, bind_assoc]
        exact ensure_csvDecoder
      · intro t behind record emitted hbehind ht hemitted
        simp only [if_true, pure_ok, ok_bind]
        rw [taken_csvDecoder hemitted, ih hbehind ht]

/-- The reader before its CR. -/
def CsvReading.withoutCr (s : CsvReading) : CsvReading :=
  { s with pendingCr := false, outside := by simp }

theorem foldlM_tail : s.tail.foldlM (csvFeed P limits) s.withoutCr = .ok s := by
  obtain ⟨records, payload, state, fields, pendingCr, outside⟩ := s
  cases pendingCr with
  | false => rfl
  | true =>
      have hstate : state ≠ .quoted := outside rfl
      simp only [CsvReading.tail, if_true, CsvReading.withoutCr]
      rw [List.foldlM_cons, csvFeed_of_not_cr rfl]
      rw [(csvByte_terminator hstate).2]
      rfl

/-- Between frames there is nothing to drain. -/
theorem drain_idle_csv {n : ℕ} :
    Decoder.drain P (n + 2) (csvDecoder limits seen false s s.tail) =
      drained limits seen s (pure s) := by
  have hdrain := @drain_csv P limits seen s.withoutCr s.tail (n + 2)
    (by rw [CsvReading.tail]; split <;> simp) rfl
  rw [foldlM_tail] at hdrain
  exact hdrain

/-- One frame: its bytes are read, and the open record is checked. -/
theorem pushFrame_csv {frame : Bytes} (hframe : frame.length ≤ limits.maxSourceFrameBytes) :
    pushFrame P (s.records, csvDecoder limits seen false s s.tail) frame =
      (feedChunk (csvFeed P limits) (csvCheck limits) s frame >>= fun t =>
        .ok (t.records, csvDecoder limits (seen || !frame.isEmpty) false t t.tail)) := by
  have hpush : (csvDecoder limits seen false s s.tail).push P frame =
      (csvDecoder limits (seen || !frame.isEmpty) false s.withoutCr (s.tail ++ frame)).prepareCsv P
        false := by
    rw [Decoder.push]
    simp [csvDecoder, rejectIf, Nat.not_lt.mpr hframe, CsvReading.withoutCr, Decoder.prepareNext]
  have hread : ((csvDecoder limits (seen || !frame.isEmpty) false s.withoutCr
      (s.tail ++ frame)).prepareCsv P false >>= Decoder.drainAll P) =
      drained limits (seen || !frame.isEmpty) s (frame.foldlM (csvFeed P limits) s) := by
    have hfold : (s.tail ++ frame).foldlM (csvFeed P limits) s.withoutCr =
        frame.foldlM (csvFeed P limits) s := by
      rw [List.foldlM_append, foldlM_tail, ok_bind]
    rw [← hfold, drained_congr (show s.records = s.withoutCr.records from rfl)]
    change (Decoder.csvLoop P false (s.payload ++ (s.tail ++ frame)).length _ >>= _) >>= _ = _
    rw [bind_assoc]
    refine csvLoop_reads (s.tail ++ frame).length (by simp) le_rfl rfl _ (fun t => ?_) ?_
    · simp only [Bool.false_eq_true, if_false, bind_assoc, pure_bind, Decoder.drainAll,
        drain_idle_csv]
      change csvCheck limits t >>= (fun _ => drained limits _ t (pure t)) = _
      rw [drained]
      simp only [pure_ok, ok_bind]
      -- the check that has been passed is passed again
      cases csvCheck limits t <;> rfl
    · intro t behind record emitted _ ht hemitted
      simp only [if_true, pure_ok, ok_bind, Decoder.drainAll]
      rw [Decoder.drain_succ_of_ready rfl, taken_csvDecoder hemitted]
      exact congrArg (· >>= _) (drain_csv (by rw [csvDecoder, List.length_append]; omega) ht)
  rw [pushFrame, hpush, ← bind_assoc, hread, drained, feedChunk]
  cases hfold : frame.foldlM (csvFeed P limits) s with
  | error e => rfl
  | ok t =>
      obtain ⟨more, hmore⟩ := foldlM_csvFeed_records hfold
      rw [ok_bind, ok_bind]
      cases csvCheck limits t with
      | error e => rfl
      | ok _ => simp [hmore, pure_ok]

end Maskura.Records
