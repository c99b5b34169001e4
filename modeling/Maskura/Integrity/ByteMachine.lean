import Maskura.Integrity.Chunked

/-!
The decoder byte by byte. `push` takes lines, data and line ends in the largest
pieces that a frame has; each of these rounds is what a machine over single
bytes does, so the frames in which a body arrives make no difference.
-/

namespace Maskura.Integrity

open Maskura.Lib
open Maskura.Persistence (Bytes)

/-- One byte of a line: the line, if it is complete now, and what is buffered. -/
def lineByte (limit : ℕ) (buffer : Bytes) (byte : UInt8) :
    Except IntegrityError (Option Bytes × Bytes) :=
  if crlf <:+ buffer ++ [byte] then
    .ok (some ((buffer ++ [byte]).take ((buffer ++ [byte]).length - 2)), [])
  else if limit < (buffer ++ [byte]).length ∧
      ((buffer ++ [byte]).length ≠ limit + 1 ∨ byte ≠ cr) then
    .error .oversizedFraming
  else .ok (none, buffer ++ [byte])

namespace AwsChunkedDecoder

variable (crypto : Crypto)

/-- One byte in a state that reads lines. -/
def feedLine (limit : ℕ) (onLine : AwsChunkedDecoder → Bytes → Except IntegrityError AwsChunkedDecoder)
    (d : AwsChunkedDecoder) (byte : UInt8) : Except IntegrityError (AwsChunkedDecoder × Bytes) :=
  (lineByte limit d.line byte).bind fun
    | (none, line) => .ok ({ d with line := line }, [])
    | (some line, buffer) => (onLine { d with line := buffer } line).map (·, [])

/-- One byte of a line end, with the state behind it. -/
def feedCrlf (message : String) (d : AwsChunkedDecoder) (matched : ℕ)
    (partly : ℕ → DecodeState) (behind : DecodeState) (byte : UInt8) :
    Except IntegrityError (AwsChunkedDecoder × Bytes) :=
  if byte ≠ (if matched = 0 then cr else lf) then .error (.framing message)
  else .ok ({ d with state := if matched + 1 = 2 then behind else partly (matched + 1) }, [])

/-- The machine over single bytes: the decoder and what is put out. -/
def feed (d : AwsChunkedDecoder) (byte : UInt8) :
    Except IntegrityError (AwsChunkedDecoder × Bytes) :=
  match d.state with
  | .header => feedLine maxChunkHeaderBytes (startChunk crypto) d byte
  | .data => (d.takeData crypto [byte]).map (·, [byte])
  | .dataCrlf matched => feedCrlf "chunk data lacks CRLF" d matched .dataCrlf .header byte
  | .finalCrlf matched => feedCrlf "final chunk lacks CRLF" d matched .finalCrlf .done byte
  | .trailers => feedLine maxTrailerLineBytes (trailerLine crypto) d byte
  | .done => .error .trailingData

/-- Data is left of the chunk, and a line end is not complete. -/
def Valid (d : AwsChunkedDecoder) : Prop :=
  match d.state with
  | .data => 0 < d.chunkRemaining
  | .dataCrlf matched | .finalCrlf matched => matched < 2
  | .header | .trailers | .done => True

variable {crypto} {d t : AwsChunkedDecoder}
  {byte : UInt8} {input rest : Bytes} {message : String} {pieces : List Bytes}

/-! ### The valid states -/

theorem valid_enterChunk {size : ℕ} (hsize : d.chunkRemaining = size)
    (h : d.enterChunk crypto size = .ok t) : t.Valid := by
  unfold enterChunk at h
  split at h
  · rw [bind_eq_ok] at h
    obtain ⟨e, -, h⟩ := h
    obtain rfl := Except.ok.inj h
    cases e.mode <;> simp [Valid]
  · next hne =>
    simp only [bind_eq_ok, rejectIf_eq_ok] at h
    obtain ⟨-, -, -, -, h⟩ := h
    obtain rfl := Except.ok.inj h
    simp only [Valid, hsize]
    omega

theorem valid_startChunk {line : Bytes} (h : d.startChunk crypto line = .ok t) : t.Valid := by
  simp only [startChunk, bind_eq_ok] at h
  obtain ⟨-, -, -, -, -, -, -, -, signature, -, h⟩ := h
  exact valid_enterChunk rfl h

theorem parseTrailer_state {line : Bytes} (h : d.parseTrailer line = .ok t) : t.state = d.state := by
  simp only [parseTrailer, bind_eq_ok] at h
  obtain ⟨-, -, -, -, ⟨name, value⟩, -, -, -, h⟩ := h
  split at h
  · simp only [bind_eq_ok] at h
    obtain ⟨-, -, -, -, h⟩ := h
    obtain rfl := Except.ok.inj h
    rfl
  · simp only [bind_eq_ok] at h
    obtain ⟨-, -, -, -, h⟩ := h
    obtain rfl := Except.ok.inj h
    rfl

theorem valid_trailerLine {line : Bytes} (hstate : d.state = .trailers)
    (h : d.trailerLine crypto line = .ok t) : t.Valid := by
  simp only [trailerLine, bind_eq_ok] at h
  obtain ⟨-, -, -, -, h⟩ := h
  split at h
  · simp only [bind_eq_ok] at h
    obtain ⟨-, -, h⟩ := h
    obtain rfl := Except.ok.inj h
    trivial
  · simp [Valid, parseTrailer_state h, hstate]

theorem valid_takeData {bytes : Bytes} (hstate : d.state = .data)
    (h : d.takeData crypto bytes = .ok t) : t.Valid := by
  unfold takeData at h
  dsimp only at h
  split at h
  · rw [bind_eq_ok] at h
    obtain ⟨e, -, h⟩ := h
    obtain rfl := Except.ok.inj h
    simp [Valid]
  · next hne =>
    obtain rfl := Except.ok.inj h
    simp only [Valid, hstate]
    omega

theorem valid_feedLine {limit : ℕ}
    {onLine : AwsChunkedDecoder → Bytes → Except IntegrityError AwsChunkedDecoder}
    {out : Bytes} (hline : ∀ buffer, ({ d with line := buffer } : AwsChunkedDecoder).Valid)
    (honLine : ∀ buffer line t, onLine { d with line := buffer } line = .ok t → t.Valid)
    (h : feedLine limit onLine d byte = .ok (t, out)) : t.Valid := by
  unfold feedLine at h
  match hbyte : lineByte limit d.line byte with
  | .error e => simp [hbyte, Except.bind] at h
  | .ok (none, line) =>
      simp only [hbyte, Except.bind, Except.ok.injEq, Prod.mk.injEq] at h
      obtain ⟨rfl, -⟩ := h
      exact hline line
  | .ok (some line, buffer) =>
      simp only [hbyte, Except.bind] at h
      cases hdone : onLine { d with line := buffer } line with
      | error e => simp [hdone, Except.map] at h
      | ok u =>
          simp only [hdone, Except.map, Except.ok.injEq, Prod.mk.injEq] at h
          obtain ⟨rfl, -⟩ := h
          exact honLine buffer line _ hdone

theorem feedCrlf_eq_ok {matched : ℕ} {partly : ℕ → DecodeState} {behind : DecodeState} {out : Bytes}
    (h : feedCrlf message d matched partly behind byte = .ok (t, out)) :
    t = { d with state := if matched + 1 = 2 then behind else partly (matched + 1) } := by
  unfold feedCrlf at h
  obtain ⟨-, h⟩ := ite_error_eq_ok.mp h
  exact (Prod.mk.inj (Except.ok.inj h)).1.symm

theorem valid_feed {out : Bytes} (hd : d.Valid) (h : feed crypto d byte = .ok (t, out)) :
    t.Valid := by
  unfold feed at h
  split at h
  case h_1 hstate =>
    exact valid_feedLine (fun _ => by simp [Valid, hstate]) (fun _ _ _ => valid_startChunk) h
  case h_2 hstate =>
    cases hdata : d.takeData crypto [byte] with
    | error e => simp [hdata, Except.map] at h
    | ok u =>
        simp only [hdata, Except.map, Except.ok.injEq, Prod.mk.injEq] at h
        obtain ⟨rfl, -⟩ := h
        exact valid_takeData hstate hdata
  case h_3 matched hstate | h_4 matched hstate =>
    simp only [Valid, hstate] at hd
    obtain rfl := feedCrlf_eq_ok h
    by_cases hlast : matched + 1 = 2
    · simp [Valid, hlast]
    · simp only [Valid, if_neg hlast]
      omega
  case h_5 hstate =>
    exact valid_feedLine (fun _ => by simp [Valid, hstate])
      (fun _ _ _ => valid_trailerLine (by simpa using hstate)) h
  case h_6 => cases h

/-! ### Rounds -/

/-- The loop over the bytes of a line. -/
theorem feeds_takeLine {limit : ℕ}
    {onLine : AwsChunkedDecoder → Bytes → Except IntegrityError AwsChunkedDecoder}
    (hfeed : ∀ buffer byte, feed crypto { d with line := buffer } byte =
      feedLine limit onLine { d with line := buffer } byte) (buffer input : Bytes) :
    Batch.feeds (feed crypto) { d with line := buffer } input =
      (takeLine limit buffer input).bind fun
        | (none, line, _) => .ok ({ d with line := line }, [])
        | (some line, buffer, rest) =>
            (onLine { d with line := buffer } line).bind fun e =>
              Batch.feeds (feed crypto) e rest := by
  induction input generalizing buffer with
  | nil => rfl
  | cons byte rest ih =>
      rw [Batch.feeds, hfeed, feedLine, lineByte, takeLine]
      dsimp only
      split_ifs with hend hlong
      · simp only [Except.bind]
        cases onLine _ _ with
        | error e => rfl
        | ok e => exact Batch.map_emit_nil _
      · rfl
      · simp only [Except.bind, Batch.map_emit_nil, ih]

theorem takeLine_rest {limit : ℕ} {buffer input line buffer' rest : Bytes}
    (h : takeLine limit buffer input = .ok (some line, buffer', rest)) :
    rest.length < input.length := by
  induction input generalizing buffer with
  | nil => simp [takeLine] at h
  | cons byte input ih =>
      rw [takeLine] at h
      split_ifs at h
      · simp only [Except.ok.injEq, Prod.mk.injEq] at h
        obtain ⟨-, -, rfl⟩ := h
        simp
      · exact (ih h).trans (by simp)

theorem takeLine_none {limit : ℕ} {buffer input buffer' rest : Bytes}
    (h : takeLine limit buffer input = .ok (none, buffer', rest)) : rest = [] := by
  induction input generalizing buffer with
  | nil =>
      simp only [takeLine, Except.ok.injEq, Prod.mk.injEq] at h
      exact h.2.2.symm
  | cons byte input ih =>
      rw [takeLine] at h
      split_ifs at h
      · simp at h
      · exact ih h

/-- Data taken at once is data taken byte by byte. -/
theorem feeds_takeData {bytes : Bytes} (hstate : d.state = .data)
    (hlength : (byte :: bytes).length ≤ d.chunkRemaining) :
    Batch.feeds (feed crypto) d (byte :: bytes) =
      (d.takeData crypto (byte :: bytes)).map (·, byte :: bytes) := by
  induction bytes generalizing d byte with
  | nil =>
      rw [Batch.feeds, feed, hstate]
      dsimp only
      cases d.takeData crypto [byte] <;> rfl
  | cons next bytes ih =>
      have hmore : d.takeData crypto [byte] =
          .ok { d with
            chunkHasher := d.chunkHasher ++ [byte], chunkRemaining := d.chunkRemaining - 1 } := by
        rw [takeData]
        dsimp only
        rw [if_neg]
        · rfl
        · simp only [List.length_cons, List.length_nil] at hlength ⊢
          omega
      rw [Batch.feeds, feed, hstate]
      dsimp only
      rw [hmore]
      simp only [Except.map, Except.bind]
      have hrest := @ih { d with
        chunkHasher := d.chunkHasher ++ [byte], chunkRemaining := d.chunkRemaining - 1 } next hstate
        (by simp only [List.length_cons] at hlength ⊢; omega)
      rw [hrest]
      have hsame : takeData crypto { d with
            chunkHasher := d.chunkHasher ++ [byte], chunkRemaining := d.chunkRemaining - 1 }
            (next :: bytes) = d.takeData crypto (byte :: next :: bytes) := by
        have hrest : d.chunkRemaining - 1 - (next :: bytes).length =
            d.chunkRemaining - (byte :: next :: bytes).length := by
          simp only [List.length_cons]
          omega
        simp only [takeData, List.append_assoc, List.singleton_append, hrest]
      rw [hsame]
      cases d.takeData crypto (byte :: next :: bytes) <;> rfl

/-- A line end taken at once. -/
theorem feeds_matchCrlf {partly : ℕ → DecodeState} {behind : DecodeState}
    (hfeed : ∀ m byte, feed crypto { d with state := partly m } byte =
      feedCrlf message d m partly behind byte)
    {matched : ℕ} (hmatched : matched < 2) (byte : UInt8) (input : Bytes) :
    Batch.feeds (feed crypto) { d with state := partly matched } (byte :: input) =
      (matchCrlf message matched (byte :: input)).bind fun (m, rest) =>
        Batch.feeds (feed crypto) { d with state := if m = 2 then behind else partly m } rest := by
  have hlast : ∀ rest, matchCrlf message 2 rest = .ok (2, rest) := by
    intro rest
    cases rest <;> simp [matchCrlf]
  have hsecond : ∀ byte rest, Batch.feeds (feed crypto) { d with state := partly 1 } (byte :: rest) =
      (matchCrlf message 1 (byte :: rest)).bind fun (m, rest) =>
        Batch.feeds (feed crypto) { d with state := if m = 2 then behind else partly m } rest := by
    intro byte rest
    rw [Batch.feeds, hfeed, feedCrlf, matchCrlf]
    simp only [Nat.one_ne_zero, if_false, Nat.one_lt_ofNat, if_true, Nat.reduceAdd, hlast]
    split_ifs with hbyte
    · rfl
    · simp [Except.bind]
  obtain rfl | rfl : matched = 0 ∨ matched = 1 := by omega
  · rw [Batch.feeds, hfeed, feedCrlf, matchCrlf]
    simp only [if_true, zero_lt_two, zero_add, OfNat.one_ne_ofNat, if_false]
    split_ifs with hbyte
    · rfl
    · simp only [Except.bind, Batch.map_emit_nil]
      cases input with
      | nil => simp [matchCrlf]
      | cons second rest => exact hsecond second rest
  · exact hsecond byte input

theorem matchCrlf_rest {matched m : ℕ} (h : matchCrlf message matched input = .ok (m, rest)) :
    rest.length ≤ input.length ∧ matched ≤ m ∧ (matched ≤ 2 → m ≤ 2) ∧ (m < 2 → rest = []) := by
  induction input generalizing matched with
  | nil =>
      simp only [matchCrlf, Except.ok.injEq, Prod.mk.injEq] at h
      obtain ⟨rfl, rfl⟩ := h
      simp
  | cons byte input ih =>
      rw [matchCrlf] at h
      by_cases hlow : matched < 2
      · rw [if_pos hlow] at h
        obtain ⟨hlength, hle, htwo, hrest⟩ := ih (ite_error_eq_ok.mp h).2
        simp only [List.length_cons]
        exact ⟨by omega, by omega, fun _ => htwo (by omega), hrest⟩
      · rw [if_neg hlow, Except.ok.injEq, Prod.mk.injEq] at h
        obtain ⟨rfl, rfl⟩ := h
        exact ⟨le_rfl, le_rfl, id, fun hlt => absurd hlt hlow⟩

/-- A line end that is not complete takes a byte. -/
theorem matchCrlf_takes {matched m : ℕ} (hmatched : matched < 2)
    (h : matchCrlf message matched (byte :: input) = .ok (m, rest)) :
    rest.length ≤ input.length ∧ m ≤ 2 := by
  rw [matchCrlf, if_pos hmatched] at h
  obtain ⟨hlength, -, htwo, -⟩ := matchCrlf_rest (ite_error_eq_ok.mp h).2
  exact ⟨hlength, htwo (by omega)⟩

theorem feed_of_header (hstate : d.state = .header) (byte : UInt8) :
    feed crypto d byte = feedLine maxChunkHeaderBytes (startChunk crypto) d byte := by
  simp [feed, hstate]

theorem feed_of_trailers (hstate : d.state = .trailers) (byte : UInt8) :
    feed crypto d byte = feedLine maxTrailerLineBytes (trailerLine crypto) d byte := by
  simp [feed, hstate]

/-- What the machine makes of the input from where a round has left it. -/
def continued (crypto : Crypto) (result : AwsChunkedDecoder × Bytes × List Bytes) :
    Except IntegrityError (AwsChunkedDecoder × Bytes) :=
  (Batch.feeds (feed crypto) result.1 result.2.1).map (Batch.emit result.2.2.flatten)

/-- At the end of the body nothing is left to take. -/
theorem feeds_endOfBody (input : Bytes) :
    Batch.feeds (feed crypto) d input = (d.endOfBody input).bind (continued crypto) := by
  by_cases hend : d.state = .done ∧ input ≠ []
  · obtain ⟨byte, rest, rfl⟩ := List.exists_cons_of_ne_nil hend.2
    rw [endOfBody, rejectIf_pos hend, Batch.feeds, feed, hend.1]
    rfl
  · rw [endOfBody, rejectIf_neg hend]
    exact (Batch.map_emit_nil _).symm

theorem feeds_advance_line {limit : ℕ}
    {onLine : AwsChunkedDecoder → Bytes → Except IntegrityError AwsChunkedDecoder}
    {after : AwsChunkedDecoder → Bytes →
      Except IntegrityError (AwsChunkedDecoder × Bytes × List Bytes)}
    (hfeed : ∀ buffer byte, feed crypto { d with line := buffer } byte =
      feedLine limit onLine { d with line := buffer } byte)
    (hafter : ∀ e rest, Batch.feeds (feed crypto) e rest = (after e rest).bind (continued crypto))
    (input : Bytes) :
    Batch.feeds (feed crypto) d input =
      ((takeLine limit d.line input).bind fun
        | (none, line, rest) => .ok ({ d with line := line }, rest, [])
        | (some line, buffer, rest) =>
            (onLine { d with line := buffer } line).bind fun e => after e rest).bind
        (continued crypto) := by
  have hline := feeds_takeLine hfeed d.line input
  change Batch.feeds (feed crypto) d input = _ at hline
  rw [hline]
  match htake : takeLine limit d.line input with
  | .error e => rfl
  | .ok (none, line, rest) =>
      obtain rfl := takeLine_none htake
      rfl
  | .ok (some line, buffer, rest) =>
      simp only [Except.bind]
      cases onLine { d with line := buffer } line with
      | error e => rfl
      | ok e => exact hafter e rest

theorem feeds_advance_crlf {partly : ℕ → DecodeState} {behind : DecodeState}
    {after : AwsChunkedDecoder → Bytes →
      Except IntegrityError (AwsChunkedDecoder × Bytes × List Bytes)}
    (hfeed : ∀ m byte, feed crypto { d with state := partly m } byte =
      feedCrlf message d m partly behind byte)
    (hafter : ∀ e rest, Batch.feeds (feed crypto) e rest = (after e rest).bind (continued crypto))
    {matched : ℕ} (hstate : d.state = partly matched) (hmatched : matched < 2) (byte : UInt8)
    (input : Bytes) :
    Batch.feeds (feed crypto) d (byte :: input) =
      ((matchCrlf message matched (byte :: input)).bind fun (m, rest) =>
        after { d with state := if m = 2 then behind else partly m } rest).bind
        (continued crypto) := by
  have hcrlf := feeds_matchCrlf hfeed hmatched byte input
  rw [← hstate] at hcrlf
  change Batch.feeds (feed crypto) d (byte :: input) = _ at hcrlf
  rw [hcrlf]
  match matchCrlf message matched (byte :: input) with
  | .error e => rfl
  | .ok (m, rest) => exact hafter _ rest

/-- A round is the machine on the bytes that it takes. -/
theorem feeds_advance {input : Bytes} (hd : d.Valid) :
    Batch.feeds (feed crypto) d (byte :: input) =
      (d.advance crypto (byte :: input)).bind (continued crypto) := by
  have hgo : ∀ (e : AwsChunkedDecoder) (rest : Bytes), Batch.feeds (feed crypto) e rest =
      (Except.ok (e, rest, []) : Except IntegrityError _).bind (continued crypto) :=
    fun e rest => (Batch.map_emit_nil _).symm
  unfold Valid at hd
  cases hstate : d.state with
  | header =>
      rw [feeds_advance_line (fun _ => feed_of_header hstate) hgo, advance, hstate]
      rfl
  | data =>
      simp only [hstate] at hd
      obtain ⟨k, hk⟩ : ∃ k, min d.chunkRemaining (byte :: input).length = k + 1 :=
        Nat.exists_eq_add_one.mpr (lt_min hd (by simp))
      have hlength : (byte :: input.take k).length ≤ d.chunkRemaining := by
        have hle : k + 1 ≤ d.chunkRemaining := hk ▸ min_le_left _ _
        rw [List.length_cons, List.length_take]
        omega
      rw [advance, hstate]
      dsimp only
      rw [hk, List.take_succ_cons, List.drop_succ_cons]
      conv_lhs => rw [← List.take_append_drop k input, ← List.cons_append]
      rw [Batch.feeds_append, feeds_takeData hstate hlength]
      cases d.takeData crypto (byte :: input.take k) with
      | error e => rfl
      | ok e =>
          change (Batch.feeds (feed crypto) e (input.drop k)).map (Batch.emit (byte :: input.take k)) =
            continued crypto (e, input.drop k, if byte :: input.take k = [] then [] else
              [byte :: input.take k])
          rw [if_neg (List.cons_ne_nil _ _), continued, List.flatten_cons, List.flatten_nil,
            List.append_nil]
  | dataCrlf matched =>
      simp only [hstate] at hd
      rw [feeds_advance_crlf (fun _ _ => rfl) hgo hstate hd, advance, hstate]
      rfl
  | finalCrlf matched =>
      simp only [hstate] at hd
      rw [feeds_advance_crlf (fun _ _ => rfl) (fun _ => feeds_endOfBody) hstate hd, advance, hstate]
      rfl
  | trailers =>
      rw [feeds_advance_line (fun _ => feed_of_trailers hstate) (fun _ => feeds_endOfBody), advance,
        hstate]
      rfl
  | done =>
      rw [Batch.feeds, feed, advance, hstate]
      rfl

theorem endOfBody_eq_ok (h : d.endOfBody input = .ok (t, rest, pieces)) : t = d ∧ rest = input := by
  simp only [endOfBody, bind_eq_ok, rejectIf_eq_ok] at h
  obtain ⟨-, -, h⟩ := h
  simp only [pure_eq_ok, Prod.mk.injEq] at h
  exact ⟨h.1.symm, h.2.1.symm⟩

theorem valid_advance_line {limit : ℕ}
    {onLine : AwsChunkedDecoder → Bytes → Except IntegrityError AwsChunkedDecoder}
    {after : AwsChunkedDecoder → Bytes →
      Except IntegrityError (AwsChunkedDecoder × Bytes × List Bytes)}
    (hline : ∀ buffer, ({ d with line := buffer } : AwsChunkedDecoder).Valid)
    (honLine : ∀ buffer line e, onLine { d with line := buffer } line = .ok e → e.Valid)
    (hafter : ∀ {e left t rest pieces}, after e left = .ok (t, rest, pieces) → t = e ∧ rest = left)
    {byte : UInt8} {input rest : Bytes} {pieces : List Bytes}
    (h : ((takeLine limit d.line (byte :: input)).bind fun
        | (none, line, rest) => .ok ({ d with line := line }, rest, [])
        | (some line, buffer, rest) =>
            (onLine { d with line := buffer } line).bind fun e => after e rest) =
      .ok (t, rest, pieces)) :
    t.Valid ∧ rest.length ≤ input.length := by
  match htake : takeLine limit d.line (byte :: input) with
  | .error e =>
      rw [htake] at h
      cases h
  | .ok (none, line, left) =>
      rw [htake] at h
      obtain ⟨rfl, hrest⟩ := Prod.mk.inj (Except.ok.inj h)
      obtain ⟨rfl, -⟩ := Prod.mk.inj hrest
      exact ⟨hline line, by simp [takeLine_none htake]⟩
  | .ok (some line, buffer, left) =>
      rw [htake] at h
      change (onLine { d with line := buffer } line).bind (after · left) = _ at h
      obtain ⟨e, he, h⟩ := bind_eq_ok.1 h
      obtain ⟨rfl, rfl⟩ := hafter h
      have hshorter := takeLine_rest htake
      rw [List.length_cons] at hshorter
      exact ⟨honLine buffer line _ he, by omega⟩

theorem valid_advance_crlf {partly : ℕ → DecodeState} {behind : DecodeState}
    {after : AwsChunkedDecoder → Bytes →
      Except IntegrityError (AwsChunkedDecoder × Bytes × List Bytes)}
    (hpartly : ∀ m < 2, ({ d with state := partly m } : AwsChunkedDecoder).Valid)
    (hbehind : ({ d with state := behind } : AwsChunkedDecoder).Valid)
    (hafter : ∀ {e left t rest pieces}, after e left = .ok (t, rest, pieces) → t = e ∧ rest = left)
    {matched : ℕ} (hmatched : matched < 2) {byte : UInt8} {input rest : Bytes} {pieces : List Bytes}
    (h : ((matchCrlf message matched (byte :: input)).bind fun (m, rest) =>
        after { d with state := if m = 2 then behind else partly m } rest) =
      .ok (t, rest, pieces)) :
    t.Valid ∧ rest.length ≤ input.length := by
  obtain ⟨⟨m, left⟩, hmatch, h⟩ := bind_eq_ok.1 h
  obtain ⟨rfl, rfl⟩ := hafter h
  obtain ⟨hlength, htwo⟩ := matchCrlf_takes hmatched hmatch
  refine ⟨?_, hlength⟩
  by_cases hlast : m = 2
  · rw [if_pos hlast]
    exact hbehind
  · rw [if_neg hlast]
    exact hpartly m (by omega)

/-- A round takes something, and leaves a valid decoder. -/
theorem valid_advance (hd : d.Valid)
    (h : d.advance crypto (byte :: input) = .ok (t, rest, pieces)) :
    t.Valid ∧ rest.length ≤ input.length := by
  have hgo : ∀ {e : AwsChunkedDecoder} {left : Bytes} {t : AwsChunkedDecoder} {rest : Bytes}
      {pieces : List Bytes}, (Except.ok (e, left, []) : Except IntegrityError _) =
        .ok (t, rest, pieces) → t = e ∧ rest = left := by
    intro e left t rest pieces heq
    obtain ⟨rfl, hrest⟩ := Prod.mk.inj (Except.ok.inj heq)
    exact ⟨rfl, (Prod.mk.inj hrest).1.symm⟩
  unfold Valid at hd
  rw [advance] at h
  split at h
  case h_1 hstate =>
    exact valid_advance_line (fun _ => by simp [Valid, hstate]) (fun _ _ _ => valid_startChunk) hgo h
  case h_2 hstate =>
    simp only [hstate] at hd
    obtain ⟨e, he, h⟩ := bind_eq_ok.1 h
    obtain ⟨rfl, hrest⟩ := Prod.mk.inj (Except.ok.inj h)
    obtain ⟨rfl, -⟩ := Prod.mk.inj hrest
    refine ⟨valid_takeData hstate he, ?_⟩
    rw [List.length_drop, List.length_cons]
    omega
  case h_3 matched hstate =>
    simp only [hstate] at hd
    refine valid_advance_crlf ?_ ?_ hgo hd h
    · exact fun m hm => hm
    · trivial
  case h_4 matched hstate =>
    simp only [hstate] at hd
    refine valid_advance_crlf ?_ ?_ endOfBody_eq_ok hd h
    · exact fun m hm => hm
    · trivial
  case h_5 hstate =>
    exact valid_advance_line (fun _ => by simp [Valid, hstate])
      (fun _ _ _ => valid_trailerLine (by simpa using hstate)) endOfBody_eq_ok h
  case h_6 => cases h

theorem batches : Batch.Batches (feed crypto) (advance crypto) Valid where
  feeds_eq hd := feeds_advance hd
  valid hd h := valid_advance hd h

/-! ### Frames -/

/-- `push` is the machine on the bytes of the frame. -/
theorem push_eq_feeds (hd : d.Valid) {frame : Bytes} :
    (d.push crypto frame).map (Except.map Batch.joined) =
      some (Batch.feeds (feed crypto) d frame) := by
  unfold push
  split
  next hend =>
    obtain ⟨byte, rest, rfl⟩ := List.exists_cons_of_ne_nil hend.2
    rw [Batch.feeds, feed, hend.1]
    rfl
  next => exact batches.loop_eq hd le_rfl

theorem valid_new {mode : StreamingMode} {length : ℕ} {declaredTrailer : Option Bytes}
    {signing : StreamingSigning} : (new mode length declaredTrailer signing).Valid := trivial

/-- What the machine makes of a whole body. -/
def decodeBytes (crypto : Crypto) (mode : StreamingMode) (expectedDecodedLength : ℕ)
    (declaredTrailer : Option Bytes) (signing : StreamingSigning) (body : Bytes) :
    Except IntegrityError (Bytes × Option (Bytes × Bytes)) := do
  let (d, out) ← Batch.feeds (feed crypto)
    (new mode expectedDecodedLength declaredTrailer signing) body
  d.finish
  return (out, d.checksumTrailer)

theorem decode_eq_decodeBytes {mode : StreamingMode} {length : ℕ} {declaredTrailer : Option Bytes}
    {signing : StreamingSigning} {frames : List Bytes} :
    decode crypto mode length declaredTrailer signing frames =
      some (decodeBytes crypto mode length declaredTrailer signing frames.flatten) := by
  have hframes : (Batch.pushAll (push crypto) (new mode length declaredTrailer signing) frames).map
      (Except.map Batch.joined) = some (Batch.feeds (feed crypto) _ frames.flatten) :=
    Batch.pushAll_eq valid_feed (fun hd => push_eq_feeds hd) valid_new
  obtain ⟨result, hresult, hjoined⟩ := Option.map_eq_some_iff.1 hframes
  rw [decode, hresult, decodeBytes, ← hjoined]
  cases result <;> rfl

/-- However the body is cut into frames, the decoder comes to the same end: the
same bytes and trailer, or the same error. -/
theorem decode_independent_of_frames (crypto : Crypto) (mode : StreamingMode) (length : ℕ)
    (declaredTrailer : Option Bytes) (signing : StreamingSigning) (frames frames' : List Bytes)
    (h : frames.flatten = frames'.flatten) :
    ∃ result, decode crypto mode length declaredTrailer signing frames = some result ∧
      decode crypto mode length declaredTrailer signing frames' = some result :=
  ⟨_, decode_eq_decodeBytes, by rw [decode_eq_decodeBytes, h]⟩

section Samples

/-- A key and a digest that are all zeros. -/
def zeroCrypto : Crypto where
  sha256 _ := List.replicate 32 0
  hmac _ _ := List.replicate 32 0

def zeroSigning : StreamingSigning := ⟨[], [], [], []⟩

/-- Three bytes of data, and their CRC-32 behind the last chunk. -/
def trailerBody : Bytes :=
  utf8Bytes "3\r\nabc\r\n0\r\nx-amz-checksum-crc32:NSRBwg==\r\n\r\n"

theorem decode_trailer_body_bytewise :
    let decoded := decode zeroCrypto .unsignedTrailer 3 (some (utf8Bytes "x-amz-checksum-crc32"))
      zeroSigning
    decoded [trailerBody] = some (.ok (utf8Bytes "abc",
        some (utf8Bytes "x-amz-checksum-crc32", utf8Bytes "NSRBwg=="))) ∧
      ∃ result, decoded [trailerBody] = some result ∧
        decoded (trailerBody.map ([·])) = some result :=
  ⟨by decide +kernel, decode_independent_of_frames _ _ _ _ _ _ _ (by decide +kernel)⟩

end Samples

end AwsChunkedDecoder

end Maskura.Integrity
