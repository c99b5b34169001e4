import Maskura.Records.Drain

/-!
Reading lines byte by byte. This is what the decoder does with text, JSON lines
and TSV, however the bytes arrive: pushing a frame and draining feeds its bytes
to the line reader, and then checks the size of the line that is still open.
-/

namespace Maskura.Records

open Lib Lib.Chunks Lib.Run

variable {P : Parsers}

/-- The lines read so far and the one that is open. -/
structure LineState where
  records : List Record
  line : Bytes

/-- The record of a line that an LF ends. -/
def closeLine (P : Parsers) (limits : DecoderLimits) (line : Bytes) : Except MaskuraError Record := do
  let payload := if line.getLast? = some cr then line.dropLast else line
  rejectIf (limits.maxRecordBytes < payload.length)
    (limitError .recordTooLarge "record" payload.length limits.maxRecordBytes)
  validateUtf8 P payload .decodeEncoding
  return ⟨payload, if line.getLast? = some cr then [cr, lf] else [lf]⟩

def lineFeed (P : Parsers) (limits : DecoderLimits) (s : LineState) (byte : UInt8) :
    Except MaskuraError LineState :=
  if byte = lf then do
    let record ← closeLine P limits s.line
    return ⟨s.records ++ [record], []⟩
  else return ⟨s.records, s.line ++ [byte]⟩

/-- The open line is not too long. -/
def lineCheck (limits : DecoderLimits) (s : LineState) : Except MaskuraError Unit :=
  rejectIf (limits.maxRecordBytes < s.line.length)
    (limitError .recordTooLarge "record" s.line.length limits.maxRecordBytes)

/-- The end of the stream: an open line is a record, and so is an empty stream. -/
def lineLast (P : Parsers) (limits : DecoderLimits) (seen : Bool) (s : LineState) :
    Except MaskuraError (List Record) := do
  lineCheck limits s
  if s.line ≠ [] ∨ seen = false then
    validateUtf8 P s.line .decodeEncoding
    return s.records ++ [⟨s.line, []⟩]
  else return s.records

/-! ### The reader -/

theorem foldlM_lineFeed_of_not_mem {limits : DecoderLimits} {s : LineState} {bytes : Bytes}
    (h : lf ∉ bytes) : bytes.foldlM (lineFeed P limits) s = .ok ⟨s.records, s.line ++ bytes⟩ := by
  induction bytes generalizing s with
  | nil => simp [pure_ok]
  | cons byte bytes ih =>
      have hbyte : byte ≠ lf := fun heq => h (heq ▸ List.mem_cons_self)
      have hrest : lf ∉ bytes := fun hmem => h (List.mem_cons_of_mem _ hmem)
      rw [List.foldlM_cons, lineFeed, if_neg hbyte]
      exact (ih hrest).trans (by simp)

theorem foldlM_lineFeed_cut {limits : DecoderLimits} {s : LineState} {front rest : Bytes}
    (h : lf ∉ front) :
    (front ++ lf :: rest).foldlM (lineFeed P limits) s =
      (closeLine P limits (s.line ++ front) >>= fun record =>
        rest.foldlM (lineFeed P limits) ⟨s.records ++ [record], []⟩) := by
  rw [List.foldlM_append, foldlM_lineFeed_of_not_mem h, ok_bind, List.foldlM_cons, lineFeed,
    if_pos rfl]
  cases closeLine P limits (s.line ++ front) <;> rfl

/-- The reader only adds to the lines it has read. -/
theorem foldlM_lineFeed_records {limits : DecoderLimits} {records : List Record} {line bytes : Bytes} :
    bytes.foldlM (lineFeed P limits) ⟨records, line⟩ = do
      let s ← bytes.foldlM (lineFeed P limits) ⟨[], line⟩
      return ⟨records ++ s.records, s.line⟩ := by
  induction bytes generalizing records line with
  | nil => simp [pure_ok, bind, Except.bind]
  | cons byte bytes ih =>
      rw [List.foldlM_cons, List.foldlM_cons, lineFeed, lineFeed]
      split
      · cases closeLine P limits line with
        | error e => rfl
        | ok record =>
            simp only [ok_bind, pure_ok, List.nil_append]
            rw [ih, @ih [record] []]
            cases bytes.foldlM (lineFeed P limits) ⟨[], []⟩ <;>
              simp [bind, Except.bind, pure_ok]
      · simp only [ok_bind, pure_ok]
        exact ih

/-! ### The decoder -/

def Format.isLine : Format → Bool
  | .text | .jsonl | .tsv => true
  | _ => false

/-- The decoder between frames. -/
def lineDecoder (format : Format) (limits : DecoderLimits) (seen : Bool) (s : LineState) : Decoder where
  format := format
  limits := limits
  pending := s.line
  ready := none
  scanOffset := s.line.length
  csvState := .fieldStart
  csvFields := 1
  finished := false
  complete := false
  inputSeen := seen
  recordsEmitted := s.records.length

variable {format : Format} {limits : DecoderLimits} {seen : Bool} {s : LineState}

theorem Decoder.prepareNext_line (hformat : format.isLine = true) {d : Decoder}
    (hd : d.format = format) (hready : d.ready = none) (hcomplete : d.complete = false)
    (atEof : Bool) : d.prepareNext P atEof = d.prepareLine P atEof := by
  rw [Decoder.prepareNext, hready, hcomplete, hd]
  cases format <;> first | rfl | simp [Format.isLine] at hformat

/-- A scan that meets the end of a line. -/
theorem prepareLine_cut {d : Decoder} {line front rest : Bytes} {atEof : Bool}
    (hpending : d.pending = line ++ (front ++ lf :: rest)) (hoffset : d.scanOffset = line.length)
    (hfront : lf ∉ front) :
    d.prepareLine P atEof = do
      let record ← closeLine P d.limits (line ++ front)
      return { d with pending := rest, ready := some record, scanOffset := 0 } := by
  have hfind : (d.pending.drop d.scanOffset).findIdx? (· == lf) = some front.length := by
    rw [hpending, hoffset, List.drop_left, List.findIdx?_append]
    have hnone : front.findIdx? (· == lf) = none := by
      rw [List.findIdx?_eq_none_iff]
      intro byte hbyte
      simpa using fun heq : byte = lf => hfront (heq ▸ hbyte)
    simp [hnone, List.findIdx?_cons]
  have hpending' : d.pending = (line ++ front) ++ lf :: rest := by rw [hpending]; simp
  have hcr : (0 < line.length + front.length ∧
      d.pending[line.length + front.length - 1]? = some cr) ↔ (line ++ front).getLast? = some cr := by
    rw [List.getLast?_eq_getElem?, List.length_append, hpending']
    rcases Nat.eq_zero_or_pos (line.length + front.length) with hzero | hpos
    · have : line ++ front = [] := by rw [← List.length_eq_zero_iff, List.length_append, hzero]
      simp [hzero, this]
    · rw [List.getElem?_append_left (by simp; omega)]
      simp [hpos]
  rw [Decoder.prepareLine, hfind]
  simp only [hoffset, closeLine]
  by_cases hlast : (line ++ front).getLast? = some cr
  · -- the CR is taken into the separator
    obtain ⟨body, hbody⟩ : ∃ body, line ++ front = body ++ [cr] :=
      ⟨_, (List.dropLast_append_getLast? cr hlast).symm⟩
    have hlen : line.length + front.length = body.length + 1 := by
      simpa using congrArg List.length hbody
    have hsplit : d.pending = body ++ ([cr, lf] ++ rest) := by rw [hpending', hbody]; simp
    have hbodyLast : (line ++ front).dropLast = body := by rw [hbody]; simp
    rw [if_pos (hcr.mpr hlast), hlen, Nat.add_sub_cancel, Decoder.emit_eq hsplit (by simp)]
    simp only [hlast, if_true, hbodyLast, bind_assoc, pure_bind]
  · have hsplit : d.pending = (line ++ front) ++ ([lf] ++ rest) := by rw [hpending']; simp
    rw [if_neg (mt hcr.mp hlast), ← List.length_append, Decoder.emit_eq hsplit (by simp)]
    simp only [hlast, if_false, bind_assoc, pure_bind]

/-- A scan that meets no end of a line. -/
theorem prepareLine_open {d : Decoder} {line rest : Bytes}
    (hpending : d.pending = line ++ rest) (hoffset : d.scanOffset = line.length)
    (hrest : lf ∉ rest) :
    d.prepareLine P false = do
      rejectIf (d.limits.maxRecordBytes < (line ++ rest).length)
        (limitError .recordTooLarge "record" (line ++ rest).length d.limits.maxRecordBytes)
      return { d with scanOffset := (line ++ rest).length } := by
  have hfind : (d.pending.drop d.scanOffset).findIdx? (· == lf) = none := by
    rw [hpending, hoffset, List.drop_left, List.findIdx?_eq_none_iff]
    intro byte hbyte
    simpa using fun heq : byte = lf => hrest (heq ▸ hbyte)
  rw [Decoder.prepareLine, hfind]
  simp only [Decoder.ensurePendingLimit, hpending, Bool.false_eq_true, false_and, if_false]

/-- Draining reads what has not been scanned yet. -/
theorem drain_line (hformat : format.isLine = true) {n : ℕ} {d : Decoder} {line rest : Bytes}
    (hn : rest.length < n) (hd : d.format = format) (hready : d.ready = none)
    (hcomplete : d.complete = false) (hfinished : d.finished = false)
    (hpending : d.pending = line ++ rest) (hoffset : d.scanOffset = line.length) :
    Decoder.drain P n d =
      (rest.foldlM (lineFeed P d.limits) ⟨[], line⟩ >>= fun s =>
        lineCheck d.limits s >>= fun _ =>
          .ok (s.records, { d with
            pending := s.line
            scanOffset := s.line.length
            recordsEmitted := d.recordsEmitted + s.records.length })) := by
  induction n generalizing d line rest with
  | zero => omega
  | succ n ih =>
      have hprepare : d.prepareNext P d.finished = d.prepareLine P false := by
        rw [hfinished, Decoder.prepareNext_line hformat hd hready hcomplete]
      rw [Decoder.drain_succ hready, hprepare]
      by_cases hmem : lf ∈ rest
      · obtain ⟨front, back, rfl, hfront⟩ := List.eq_append_cons_of_mem hmem
        rw [prepareLine_cut hpending hoffset hfront, foldlM_lineFeed_cut hfront]
        cases hclose : closeLine P d.limits (line ++ front) with
        | error e => rfl
        | ok record =>
            simp only [ok_bind, pure_ok, Decoder.taken, List.nil_append]
            set d' : Decoder := { d with
              pending := back
              ready := none
              scanOffset := 0
              recordsEmitted := d.recordsEmitted + 1 }
            rw [@ih d' [] back (by simp at hn; omega) hd rfl hcomplete hfinished rfl rfl,
              @foldlM_lineFeed_records P d.limits [record] [] back]
            change (back.foldlM (lineFeed P d.limits) ⟨[], []⟩ >>= _) >>= _ = _
            cases back.foldlM (lineFeed P d.limits) ⟨[], []⟩ with
            | error e => rfl
            | ok s =>
                simp only [ok_bind, pure_ok, lineCheck]
                cases rejectIf (d.limits.maxRecordBytes < s.line.length) (limitError .recordTooLarge
                  "record" s.line.length d.limits.maxRecordBytes) with
                | error e => rfl
                | ok u => simp [d', hready, Nat.add_comm, Nat.add_left_comm]
      · rw [prepareLine_open hpending hoffset hmem, foldlM_lineFeed_of_not_mem hmem]
        simp only [ok_bind, lineCheck]
        cases rejectIf (d.limits.maxRecordBytes < (line ++ rest).length) (limitError .recordTooLarge
          "record" (line ++ rest).length d.limits.maxRecordBytes) with
        | error e => rfl
        | ok u => simp [pure_ok, hready, hpending]

/-- One frame: its bytes are read, and the open line is checked. -/
theorem pushFrame_line (hformat : format.isLine = true) {frame : Bytes}
    (hframe : frame.length ≤ limits.maxSourceFrameBytes) :
    pushFrame P (s.records, lineDecoder format limits seen s) frame =
      (feedChunk (lineFeed P limits) (lineCheck limits) s frame >>= fun t =>
        .ok (t.records, lineDecoder format limits (seen || !frame.isEmpty) t)) := by
  set d : Decoder := { lineDecoder format limits seen s with
    inputSeen := seen || !frame.isEmpty
    pending := s.line ++ frame } with hd
  have hpush : (lineDecoder format limits seen s).push P frame = d.prepareLine P false := by
    rw [Decoder.push, ← Decoder.prepareNext_line hformat (show d.format = format from rfl) rfl rfl]
    simp [lineDecoder, rejectIf, Nat.not_lt.mpr hframe, hd]
  have hadd : frame.foldlM (lineFeed P limits) s = _ :=
    @foldlM_lineFeed_records P limits s.records s.line frame
  rw [pushFrame, hpush, feedChunk, hadd]
  by_cases hmem : lf ∈ frame
  · -- the record that is ready is taken first, and what is behind it is read then
    obtain ⟨front, back, rfl, hfront⟩ := List.eq_append_cons_of_mem hmem
    rw [prepareLine_cut (show d.pending = s.line ++ (front ++ lf :: back) from rfl) rfl hfront,
      foldlM_lineFeed_cut hfront]
    change closeLine P limits (s.line ++ front) >>= _ >>= _ = _
    cases hclose : closeLine P limits (s.line ++ front) with
    | error e => rfl
    | ok record =>
        simp only [ok_bind, pure_ok, Decoder.drainAll, List.nil_append]
        rw [Decoder.drain_succ_of_ready rfl]
        set d' : Decoder := { d with
          pending := back
          ready := none
          scanOffset := 0
          recordsEmitted := d.recordsEmitted + 1 }
        change (Decoder.drain P (back.length + 1) d' >>= _) >>= _ = _
        rw [@drain_line P format hformat (back.length + 1) d' [] back (by omega) rfl rfl rfl rfl rfl
          rfl, @foldlM_lineFeed_records P limits [record] [] back]
        change ((back.foldlM (lineFeed P limits) ⟨[], []⟩ >>= _) >>= _) >>= _ = _
        cases back.foldlM (lineFeed P limits) ⟨[], []⟩ with
        | error e => rfl
        | ok t =>
            by_cases hlong : limits.maxRecordBytes < t.line.length
            · simp [d', hd, lineDecoder, lineCheck, rejectIf, hlong, pure_ok]
            · simp only [d', hd, lineDecoder, lineCheck, rejectIf, hlong, pure_ok, ok_bind,
                if_false, List.length_append, List.length_cons, List.nil_append, List.cons_append,
                Nat.add_assoc, Nat.add_comm 1]
  · rw [prepareLine_open (show d.pending = s.line ++ frame from rfl) rfl hmem,
      foldlM_lineFeed_of_not_mem hmem]
    by_cases hlong : limits.maxRecordBytes < (s.line ++ frame).length
    · have hlong' : d.limits.maxRecordBytes < (s.line ++ frame).length := hlong
      simp only [lineCheck, rejectIf, hlong, hlong', if_true, ok_bind, error_bind, pure_ok]
      rfl
    · set d' : Decoder := { d with scanOffset := (s.line ++ frame).length }
      have hidle := @drain_line P format hformat (d'.pending.length + 2) d' (s.line ++ frame) []
        (by simp) rfl rfl rfl rfl (by simp [d', hd]) rfl
      have hlong' : ¬ d.limits.maxRecordBytes < (s.line ++ frame).length := hlong
      have hlong'' : ¬ d'.limits.maxRecordBytes < (s.line ++ frame).length := hlong
      simp only [List.foldlM_nil, lineCheck, rejectIf, hlong'', if_false, pure_ok,
        ok_bind] at hidle
      simp only [rejectIf, hlong', if_false, ok_bind, pure_ok, Decoder.drainAll]
      change Decoder.drain P (d'.pending.length + 2) d' >>= _ = _
      rw [hidle]
      simp only [d', hd, lineDecoder, lineCheck, rejectIf, hlong, if_false, ok_bind, List.append_nil,
        List.length_nil, Nat.add_zero]

end Maskura.Records
