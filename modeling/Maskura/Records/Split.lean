import Maskura.Records.Reader

/-!
When the outcome of decoding depends on the frames. The bytes that are buffered
at the end of a frame may not be more than a record may have, and a CR there
counts as a byte of the record even if it turns out to belong to the separator.
So a payload of the largest size is accepted if its CR and LF come in one frame,
and refused if a frame ends between them.
-/

namespace Maskura.Records

open Lib Lib.Chunks

variable {P : Parsers} {format : Format} {limits : DecoderLimits} {records : List Record}

/-- Both fail, or both succeed with the same records. -/
def SameOutcome (a b : Except MaskuraError (List Record)) : Prop :=
  ∀ records, a = .ok records ↔ b = .ok records

/-! ### The record that is open -/

def lineOpenStep (line : Bytes) (byte : UInt8) : Bytes :=
  if byte = lf then [] else line ++ [byte]

/-- The open record of CSV, and whether it is open within quotes. -/
def csvOpenStep (s : Bytes × Bool) (byte : UInt8) : Bytes × Bool :=
  -- a CR outside of quotes has ended the record, unless an LF belongs to it
  let record := if s.2 = false ∧ s.1.getLast? = some cr then [] else s.1
  if byte = quote then (record ++ [byte], !s.2)
  else if byte = lf ∧ s.2 = false then ([], false)
  else (record ++ [byte], s.2)

/-- The bytes behind the last separator, with a CR that may belong to the next. -/
def openRecord : Format → Bytes → Bytes
  | .csv, bytes => (bytes.foldl csvOpenStep ([], false)).1
  | .json, bytes => bytes
  | _, bytes => bytes.foldl lineOpenStep []

/-- The record has the largest size, and a CR behind it. -/
def FullBehindCr (limits : DecoderLimits) (record : Bytes) : Prop :=
  record.length = limits.maxRecordBytes + 1 ∧ record.getLast? = some cr

instance (limits : DecoderLimits) (record : Bytes) : Decidable (FullBehindCr limits record) :=
  inferInstanceAs (Decidable (_ ∧ _))

/-- A frame ends right behind the CR of a record of the largest size. A JSON
document has no separators. -/
def CutsFullRecord (format : Format) (limits : DecoderLimits) (frames : List Bytes) : Prop :=
  format ≠ .json ∧ ∃ before after, ChunkEnd frames before after ∧
    FullBehindCr limits (openRecord format before)

/-- The bytes are a stream of the format, frames apart. -/
def Readable (P : Parsers) (limits : DecoderLimits) (format : Format) (bytes : Bytes) : Prop :=
  limits.Positive ∧ ∃ records, (reader P limits format).readWhole bytes = .ok records

/-! ### Readers with a bound -/

/-- What a reader does about the size of the open record: some states can only
fail, and one that is over the bound is such a state, or else `spared`. -/
structure Reader.Bounded (R : Reader) (stuck spared : R.State → Prop) : Prop where
  start : R.check R.start = .ok ()
  feed : ∀ {s t byte}, stuck s → R.feed s byte = .ok t → stuck t
  last : ∀ {s seen records}, stuck s → R.last seen s ≠ .ok records
  check : ∀ {s}, R.check s ≠ .ok () → stuck s ∨ spared s
  refused : ∀ {s}, spared s → R.check s ≠ .ok ()

/-- Reading in frames is reading as a whole, unless a frame ends in a state that
the check refuses. -/
theorem Reader.Bounded.read_eq_ok {R : Reader} {stuck spared : R.State → Prop}
    (h : R.Bounded stuck spared) {frames : List Bytes} :
    R.read frames = .ok records ↔ R.readWhole frames.flatten = .ok records ∧
      ∀ before after, ChunkEnd frames before after →
        ∀ s, before.foldlM R.feed R.start = .ok s → ¬ spared s := by
  simp only [Reader.read, Reader.readWhole, bind_eq_ok, feedChunks_eq_ok]
  constructor
  · rintro ⟨s, ⟨hs, hends⟩, hlast⟩
    refine ⟨⟨s, hs, (), ?_, hlast⟩, fun before after hend t ht hspared =>
      h.refused hspared (hends before after hend t ht)⟩
    cases frames with
    | nil => exact Except.ok.inj hs ▸ h.start
    | cons frame frames =>
        exact hends _ [] ⟨frame :: frames, [], by simp, by simp, rfl, rfl⟩ s hs
  · rintro ⟨⟨s, hs, -, -, hlast⟩, hends⟩
    refine ⟨s, ⟨hs, fun before after hend t ht => ?_⟩, hlast⟩
    by_contra hcheck
    rcases h.check hcheck with hstuck | hspared
    · -- from a stuck state the rest of the stream cannot be read
      rw [hend.append, foldlM_append_eq_ok] at hs
      obtain ⟨u, hu, hrest⟩ := hs
      obtain rfl : t = u := Except.ok.inj (ht.symm.trans hu)
      exact h.last (foldlM_preserves hrest (fun _ _ _ _ ha hab => h.feed ha hab) hstuck) hlast
    · exact hends before after hend t ht hspared

/-! ### Lines -/

theorem lineCheck_eq_ok {s : LineState} :
    lineCheck limits s = .ok () ↔ s.line.length ≤ limits.maxRecordBytes := by
  rw [lineCheck, rejectIf_eq_ok, not_lt]

/-- A line that can be closed is not too long, a CR at its end apart. -/
theorem closeLine_eq_ok {line : Bytes} {record : Record} (h : closeLine P limits line = .ok record) :
    record.payload.length ≤ limits.maxRecordBytes ∧
      (line = record.payload ++ [cr] ∧ record.separator = [cr, lf] ∨
        line = record.payload ∧ record.separator = [lf]) := by
  simp only [closeLine, bind_eq_ok, rejectIf_eq_ok, not_lt, pure_eq_ok] at h
  obtain ⟨-, hmax, -, -, rfl⟩ := h
  refine ⟨hmax, ?_⟩
  by_cases hcr : line.getLast? = some cr
  · obtain ⟨front, rfl⟩ := List.getLast?_eq_some_iff.mp hcr
    simp
  · simp [hcr]

/-- One byte more for the line reader. -/
theorem lineFeed_cases {s t : LineState} {byte : UInt8} (h : lineFeed P limits s byte = .ok t) :
    (byte = lf ∧ ∃ record, closeLine P limits s.line = .ok record ∧
      t = ⟨s.records ++ [record], []⟩) ∨
    (byte ≠ lf ∧ t = ⟨s.records, s.line ++ [byte]⟩) := by
  rw [lineFeed] at h
  split at h
  next hlf =>
    obtain ⟨record, hclose, ht⟩ := bind_eq_ok.mp h
    exact .inl ⟨hlf, record, hclose, (Except.ok.inj ht).symm⟩
  next hlf => exact .inr ⟨hlf, (Except.ok.inj h).symm⟩

theorem lineReader_bounded :
    (lineReader P limits).Bounded
      (fun s : LineState => limits.maxRecordBytes < s.line.length ∧ ¬ FullBehindCr limits s.line)
      (fun s : LineState => FullBehindCr limits s.line) where
  start := (@lineCheck_eq_ok limits ⟨[], []⟩).mpr (Nat.zero_le _)
  feed {s t byte} hstuck hfeed := by
    obtain ⟨hlong, hfull⟩ := hstuck
    rcases lineFeed_cases hfeed with ⟨-, record, hclose, -⟩ | ⟨-, rfl⟩
    · obtain ⟨hmax, ⟨hline, -⟩ | ⟨hline, -⟩⟩ := closeLine_eq_ok hclose
      · rw [hline, List.length_append, List.length_singleton] at hlong
        exact absurd ⟨by rw [hline, List.length_append, List.length_singleton]; omega,
          by rw [hline, List.getLast?_concat]⟩ hfull
      · exact absurd hlong (hline ▸ not_lt.mpr hmax)
    · have hlength : (s.line ++ [byte]).length = s.line.length + 1 := by simp
      refine ⟨?_, fun h : FullBehindCr limits (s.line ++ [byte]) => ?_⟩
      · exact hlength ▸ Nat.lt_succ_of_lt hlong
      · have := h.1
        omega
  last {s seen records} hstuck hlast := by
    obtain ⟨_, hcheck, -⟩ := bind_eq_ok.mp hlast
    exact absurd (lineCheck_eq_ok.mp hcheck) (not_le.mpr hstuck.1)
  check {s} hcheck := by
    have hlong := not_le.mp (mt lineCheck_eq_ok.mpr hcheck)
    by_cases hfull : FullBehindCr limits s.line
    · exact .inr hfull
    · exact .inl ⟨hlong, hfull⟩
  refused {s} hspared hcheck := by
    have := lineCheck_eq_ok.mp hcheck
    have := hspared.1
    omega

theorem lineOpen_foldl {s : LineState} {bytes : Bytes} {line : Bytes}
    (h : bytes.foldlM (lineFeed P limits) ⟨records, line⟩ = .ok s) :
    bytes.foldl lineOpenStep line = s.line := by
  induction bytes generalizing records line with
  | nil => exact congrArg LineState.line (Except.ok.inj h)
  | cons byte bytes ih =>
      obtain ⟨t, ht, hrest⟩ := foldlM_cons_eq_ok.mp h
      rcases lineFeed_cases ht with ⟨hlf, record, -, rfl⟩ | ⟨hlf, rfl⟩
      · rw [List.foldl_cons, lineOpenStep, if_pos hlf]
        exact ih hrest
      · rw [List.foldl_cons, lineOpenStep, if_neg hlf]
        exact ih hrest

/-! ### CSV -/

theorem csvCheck_eq_ok {s : CsvReading} :
    csvCheck limits s = .ok () ↔ s.buffered.length ≤ limits.maxRecordBytes := by
  rw [csvCheck, rejectIf_eq_ok, not_lt]

theorem CsvReading.buffered_of_cr {s : CsvReading} (h : s.pendingCr = true) :
    s.buffered = s.payload ++ [cr] := by
  rw [CsvReading.buffered, CsvReading.tail, if_pos h]

theorem CsvReading.buffered_of_not_cr {s : CsvReading} (h : s.pendingCr = false) :
    s.buffered = s.payload := by
  rw [CsvReading.buffered, CsvReading.tail, if_neg (by simp [h]), List.append_nil]

/-- A record that can be closed is not too long. -/
theorem csvClose_le {s t : CsvReading} {separator : Bytes}
    (h : csvClose P limits s separator = .ok t) : s.payload.length ≤ limits.maxRecordBytes := by
  rw [csvClose] at h
  split at h
  next hempty => simp [hempty.2]
  · simp only [bind_eq_ok, rejectIf_eq_ok, not_lt] at h
    obtain ⟨_, -, _, -, _, hmax, -⟩ := h
    exact hmax

/-- The end of a CSV stream, with and without a CR before it. -/
theorem csvLast_cases {s : CsvReading} (h : csvLast P limits s = .ok records) :
    (s.pendingCr = true ∧ ∃ t, csvClose P limits s [cr] = .ok t ∧ records = t.records) ∨
    (s.pendingCr = false ∧ s.payload.length ≤ limits.maxRecordBytes ∧
      records = if s.payload ≠ [] then s.records ++ [⟨s.payload, []⟩] else s.records) := by
  rw [csvLast] at h
  cases hcr : s.pendingCr with
  | true =>
      rw [if_pos hcr] at h
      obtain ⟨found, hread, h⟩ := bind_eq_ok.mp h
      obtain ⟨_, -, h⟩ := bind_eq_ok.mp h
      obtain rfl := Except.ok.inj h
      cases hclose : csvClose P limits s [cr] with
      | error e =>
          rw [hclose] at hread
          cases hread
      | ok t =>
          rw [hclose] at hread
          exact .inl ⟨rfl, t, rfl, (Except.ok.inj hread).symm⟩
  | false =>
      rw [if_neg (by simp [hcr]), csvLastOpen] at h
      obtain ⟨found, hread, h⟩ := bind_eq_ok.mp h
      obtain ⟨_, -, h⟩ := bind_eq_ok.mp h
      obtain rfl := Except.ok.inj h
      obtain ⟨_, hcheck, hread⟩ := bind_eq_ok.mp hread
      obtain ⟨_, -, hread⟩ := bind_eq_ok.mp hread
      rw [csvCheck_eq_ok, CsvReading.buffered_of_not_cr hcr] at hcheck
      refine .inr ⟨rfl, hcheck, ?_⟩
      split_ifs at hread ⊢
      · obtain ⟨_, -, hread⟩ := bind_eq_ok.mp hread
        obtain ⟨_, -, hread⟩ := bind_eq_ok.mp hread
        exact (Except.ok.inj hread).symm
      · exact (Except.ok.inj hread).symm

theorem csvLast_le {s : CsvReading} (h : csvLast P limits s = .ok records) :
    s.payload.length ≤ limits.maxRecordBytes := by
  rcases csvLast_cases h with ⟨-, t, hclose, -⟩ | ⟨-, hmax, -⟩
  · exact csvClose_le hclose
  · exact hmax

theorem csvReader_bounded :
    (csvReader P limits).Bounded
      (fun s : CsvReading => limits.maxRecordBytes < s.payload.length)
      (fun s : CsvReading => FullBehindCr limits s.buffered) where
  start := (@csvCheck_eq_ok limits (.fresh [])).mpr (Nat.zero_le _)
  feed {s t byte} hstuck hfeed := by
    have hclose : ∀ {u separator}, csvClose P limits s separator ≠ .ok u := fun h =>
      absurd hstuck (not_lt.mpr (csvClose_le h))
    rcases csvFeed_cases hfeed with ⟨-, -, h⟩ | ⟨-, -, u, hu, -⟩ | ⟨-, h⟩
    · exact absurd h hclose
    · exact absurd hu hclose
    · rcases csvByte_cases h with ⟨-, -, h⟩ | ⟨_, -, rfl⟩ | ⟨state, fields, rfl, -, -⟩
      · exact absurd h hclose
      · exact hstuck
      · change limits.maxRecordBytes < (s.payload ++ [byte]).length
        rw [List.length_append]
        exact Nat.lt_add_right _ hstuck
  last {s seen records} hstuck hlast := by
    exact absurd hstuck (not_lt.mpr (csvLast_le hlast))
  check {s} hcheck := by
    have hlong := not_le.mp (mt csvCheck_eq_ok.mpr hcheck)
    cases hcr : s.pendingCr with
    | false => exact .inl (CsvReading.buffered_of_not_cr hcr ▸ hlong)
    | true =>
        rw [CsvReading.buffered_of_cr hcr, List.length_append, List.length_singleton] at hlong
        rcases Nat.lt_succ_iff_lt_or_eq.mp hlong with hlt | heq
        · exact .inl hlt
        · refine .inr ?_
          rw [CsvReading.buffered_of_cr hcr]
          exact ⟨by simp [heq], by simp⟩
  refused {s} hspared hcheck := by
    have := csvCheck_eq_ok.mp hcheck
    have := hspared.1
    omega

/-- The open record, read off the bytes alone. -/
structure Tracks (s : CsvReading) (o : Bytes × Bool) : Prop where
  record : o.1 = s.buffered
  quoted : o.2 = true ↔ s.state = .quoted
  plain : s.state ≠ .quoted → s.pendingCr = false → s.payload.getLast? ≠ some cr

theorem Tracks.fresh : Tracks (.fresh records) ([], false) where
  record := rfl
  quoted := by simp [CsvReading.fresh]
  plain := by simp [CsvReading.fresh]

/-- A byte with no CR before it. -/
theorem Tracks.byte {s t : CsvReading} {o : Bytes × Bool} {byte : UInt8} (h : Tracks s o)
    (hcr : s.pendingCr = false) (hbyte : csvByte P limits s byte = .ok t) :
    Tracks t (csvOpenStep o byte) := by
  obtain ⟨record, quoted⟩ := o
  obtain ⟨hrecord, hquoted, hplain⟩ := h
  rw [CsvReading.buffered_of_not_cr hcr] at hrecord
  subst hrecord
  have hkeep : (if quoted = false ∧ s.payload.getLast? = some cr then [] else s.payload) = s.payload := by
    refine if_neg fun h => hplain (fun hs => ?_) hcr h.2
    exact absurd (hquoted.mpr hs) (by simp [h.1])
  have hopen : s.state ≠ .quoted → quoted = false := fun hs => by
    simpa using mt hquoted.mp hs
  rw [csvOpenStep]
  simp only [hkeep]
  rcases csvByte_cases hbyte with ⟨hs, rfl, hclose⟩ | ⟨hs, rfl, rfl⟩ | ⟨state, fields, rfl, hstate, hends⟩
  · obtain ⟨more, rfl⟩ := csvClose_fresh hclose
    rw [if_neg (by decide), if_pos ⟨rfl, hopen hs⟩]
    exact Tracks.fresh
  · rw [if_neg (by decide), if_neg fun h => absurd h.1 (by decide)]
    exact ⟨(@CsvReading.buffered_of_cr (s.waitCr hs) rfl).symm, hquoted, fun _ h => by cases h⟩
  · have hbuffered : s.payload ++ [byte] = (s.add byte state fields).buffered :=
      (@CsvReading.buffered_of_not_cr (s.add byte state fields) rfl).symm
    have hlast : byte ≠ cr → (s.add byte state fields).payload.getLast? ≠ some cr := by
      intro hbyte
      rw [show (s.add byte state fields).payload = s.payload ++ [byte] from rfl, List.getLast?_concat]
      simpa using hbyte
    by_cases hq : byte = quote
    · rw [if_pos hq]
      refine ⟨hbuffered, ?_, fun _ _ => hlast (hq ▸ by decide)⟩
      change (!quoted) = true ↔ state = .quoted
      rw [hstate, Bool.not_eq_true', ← Bool.not_eq_true, hquoted]
      simp [hq]
    · have hsame : state = .quoted ↔ s.state = .quoted := by simp [hstate, hq]
      have hlf : ¬ (byte = lf ∧ quoted = false) := fun h =>
        (hends fun hs => absurd (hquoted.mpr hs) (by simp [h.2])).1 h.1
      rw [if_neg hq, if_neg hlf]
      refine ⟨hbuffered, hquoted.trans hsame.symm, fun hs _ => hlast ?_⟩
      exact (hends (mt hsame.mpr hs)).2

theorem Tracks.feed {s t : CsvReading} {o : Bytes × Bool} {byte : UInt8} (h : Tracks s o)
    (hfeed : csvFeed P limits s byte = .ok t) : Tracks t (csvOpenStep o byte) := by
  cases hcr : s.pendingCr with
  | false =>
      rw [csvFeed_of_not_cr hcr] at hfeed
      exact h.byte hcr hfeed
  | true =>
      -- the CR has ended the record
      have hquoted : o.2 = false := by simpa using mt h.quoted.mp (s.outside hcr)
      have hlast : o.1.getLast? = some cr := by
        rw [h.record, CsvReading.buffered_of_cr hcr, List.getLast?_concat]
      have hstep : csvOpenStep o byte = csvOpenStep ([], false) byte := by
        simp [csvOpenStep, hquoted, hlast]
      rw [hstep]
      rcases csvFeed_cases hfeed with ⟨-, rfl, hclose⟩ | ⟨-, -, u, hclose, hbyte⟩ | ⟨hnot, -⟩
      · obtain ⟨more, rfl⟩ := csvClose_fresh hclose
        exact Tracks.fresh
      · obtain ⟨more, rfl⟩ := csvClose_fresh hclose
        exact Tracks.fresh.byte rfl hbyte
      · exact absurd (hcr.symm.trans hnot) (by simp)

theorem Tracks.foldl {s t : CsvReading} {o : Bytes × Bool} {bytes : Bytes} (h : Tracks s o)
    (hfeed : bytes.foldlM (csvFeed P limits) s = .ok t) :
    Tracks t (bytes.foldl csvOpenStep o) := by
  induction bytes generalizing s o with
  | nil => exact Except.ok.inj hfeed ▸ h
  | cons byte bytes ih =>
      obtain ⟨u, hu, hrest⟩ := foldlM_cons_eq_ok.mp hfeed
      exact ih (h.feed hu) hrest

/-! ### JSON -/

theorem jsonCheck_eq_ok {document : Bytes} :
    jsonCheck limits document = .ok () ↔ document.length ≤ limits.maxJsonDocumentBytes := by
  rw [jsonCheck, rejectIf_eq_ok, not_lt]

theorem jsonReader_bounded :
    (jsonReader P limits).Bounded
      (fun document : Bytes => limits.maxJsonDocumentBytes < document.length) (fun _ => False) where
  start := (@jsonCheck_eq_ok limits []).mpr (Nat.zero_le _)
  feed {s t byte} hstuck hfeed := by
    obtain rfl := Except.ok.inj hfeed
    exact hstuck.trans_le (List.sublist_append_left _ _).length_le
  last {s seen records} hstuck hlast := by
    obtain ⟨_, hcheck, -⟩ := bind_eq_ok.mp hlast
    exact absurd (jsonCheck_eq_ok.mp hcheck) (not_le.mpr hstuck)
  check hcheck := .inl (not_le.mp (mt jsonCheck_eq_ok.mpr hcheck))
  refused := False.elim

/-! ### All formats -/

/-- A reader that knows its open record reads a stream in frames exactly if it
reads it as a whole and no frame cuts a full record. -/
theorem Reader.Bounded.read_iff {R : Reader} {stuck : R.State → Prop}
    (h : R.Bounded stuck fun s => FullBehindCr limits (R.opened s)) (hformat : format ≠ .json)
    (hopened : ∀ {bytes s}, bytes.foldlM R.feed R.start = .ok s → openRecord format bytes = R.opened s)
    {frames : List Bytes} :
    R.read frames = .ok records ↔
      R.readWhole frames.flatten = .ok records ∧ ¬ CutsFullRecord format limits frames := by
  rw [h.read_eq_ok]
  refine and_congr_right fun hwhole => ?_
  obtain ⟨t, ht, -⟩ := bind_eq_ok.mp hwhole
  constructor
  · rintro hends ⟨-, before, after, hend, hfull⟩
    obtain ⟨s, hs⟩ := foldlM_prefix ht (hend.append ▸ List.prefix_append before after)
    exact hends before after hend s hs (hopened hs ▸ hfull)
  · intro hcut before after hend s hs hfull
    exact hcut ⟨hformat, before, after, hend, hopened hs ▸ hfull⟩

/-- Decoding in frames succeeds exactly if the bytes are a stream and no frame
cuts a full record. -/
theorem decode_eq_ok (hformat : format ≠ .binary) {frames : List Bytes}
    (hframes : ∀ frame ∈ frames, frame.length ≤ limits.maxSourceFrameBytes) :
    decode P format limits frames = .ok records ↔ limits.Positive ∧
      (reader P limits format).readWhole frames.flatten = .ok records ∧
        ¬ CutsFullRecord format limits frames := by
  by_cases hlimits : limits.Positive
  swap
  · exact ⟨fun h => absurd (positive_of_decode h) hlimits, fun h => absurd h.1 hlimits⟩
  rw [decode_eq_read hformat hlimits hframes, and_iff_right hlimits]
  cases format with
  | text =>
      exact lineReader_bounded.read_iff (show Format.text ≠ .json by decide) fun h => lineOpen_foldl h
  | jsonl =>
      exact lineReader_bounded.read_iff (show Format.jsonl ≠ .json by decide) fun h => lineOpen_foldl h
  | tsv =>
      exact lineReader_bounded.read_iff (show Format.tsv ≠ .json by decide) fun h => lineOpen_foldl h
  | csv =>
      exact csvReader_bounded.read_iff (show Format.csv ≠ .json by decide) fun h =>
        (Tracks.fresh.foldl h).record
  | json =>
      have hcut : ¬ CutsFullRecord .json limits frames := fun h => h.1 rfl
      rw [and_iff_left hcut, reader, jsonReader_bounded.read_eq_ok]
      exact and_iff_left fun _ _ _ _ _ => id
  | binary => exact absurd rfl hformat

/-- Two ways to cut the same bytes into frames have the same outcome exactly if,
for bytes that can be read at all, both of them or none of them cut a full
record. -/
theorem decode_same_iff (hformat : format ≠ .binary) {frames₁ frames₂ : List Bytes}
    (hframes₁ : ∀ frame ∈ frames₁, frame.length ≤ limits.maxSourceFrameBytes)
    (hframes₂ : ∀ frame ∈ frames₂, frame.length ≤ limits.maxSourceFrameBytes)
    (hbytes : frames₁.flatten = frames₂.flatten) :
    SameOutcome (decode P format limits frames₁) (decode P format limits frames₂) ↔
      (Readable P limits format frames₁.flatten →
        (CutsFullRecord format limits frames₁ ↔ CutsFullRecord format limits frames₂)) := by
  simp only [SameOutcome, decode_eq_ok hformat hframes₁, decode_eq_ok hformat hframes₂, ← hbytes]
  constructor
  · rintro hsame ⟨hlimits, records, hread⟩
    have h := hsame records
    simp only [hlimits, hread, true_and] at h
    exact not_iff_not.mp h
  · intro hcut records
    refine and_congr_right fun hlimits => and_congr_right fun hread => ?_
    exact not_congr (hcut ⟨hlimits, records, hread⟩)

theorem not_cutsFullRecord {frames : List Bytes}
    (h : ∀ n < frames.length,
      ¬ FullBehindCr limits (openRecord format (frames.take (n + 1)).flatten)) :
    ¬ CutsFullRecord format limits frames := by
  rintro ⟨-, before, after, hend, hfull⟩
  obtain ⟨n, hn, rfl⟩ := hend.exists_take
  exact h n hn hfull

/-- Parsers that know the empty document and one-field records; text needs none. -/
def sampleParsers : Parsers where
  json document := if document.isEmpty then .eof "EOF while parsing a value" else .value
  csv input _ _ := ⟨true, input.length, 1⟩
  utf8Message _ := "invalid utf-8 sequence"

def tinyLimits : DecoderLimits := ⟨4, 1, 4, 4⟩

/-- A line of one byte, with a frame that ends between its CR and its LF. -/
theorem split_terminator_fails :
    ¬ SameOutcome (decode sampleParsers .text tinyLimits [['a'.toUInt8, cr], [lf]])
      (decode sampleParsers .text tinyLimits [['a'.toUInt8, cr, lf]]) := by
  have hone : decode sampleParsers .text tinyLimits [['a'.toUInt8, cr, lf]] =
      .ok [⟨['a'.toUInt8], [cr, lf]⟩] := by decide +kernel
  have htwo : decode sampleParsers .text tinyLimits [['a'.toUInt8, cr], [lf]] ≠
      .ok [⟨['a'.toUInt8], [cr, lf]⟩] := by decide +kernel
  exact fun h => htwo ((h _).mpr hone)

theorem split_in_payload_same :
    SameOutcome (decode sampleParsers .text tinyLimits [['a'.toUInt8], [cr, lf]])
      (decode sampleParsers .text tinyLimits [['a'.toUInt8, cr, lf]]) := by
  refine (decode_same_iff (by decide) (by decide) (by decide) rfl).mpr fun _ => ?_
  refine iff_of_false (not_cutsFullRecord ?_) (not_cutsFullRecord ?_) <;> decide

end Maskura.Records
