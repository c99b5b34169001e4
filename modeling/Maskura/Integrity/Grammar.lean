import Maskura.Integrity.ByteMachine

/-!
The signed chunk grammar. A body that the decoder accepts in the signed mode is
a sequence of frames, each with its size in hexadecimal, its signature and its
data, the last one empty; each signature covers the one before it. And every
such body is accepted, with the data of its frames for the result.
-/

namespace Maskura.Integrity

open Maskura.Lib
open Maskura.Persistence (Bytes)
open Maskura.Policy (hexDigit hexEncode utf8Bytes_ofList)

/-! ### Bytes -/

/-- A property of bytes that holds of all 256. -/
theorem forall_byte {p : UInt8 → Prop} (h : ∀ n < 256, p (UInt8.ofNat n)) (byte : UInt8) :
    p byte := by
  have hbyte := h byte.toNat byte.toNat_lt
  rwa [UInt8.ofNat_toNat] at hbyte

/-- Hexadecimal digits are ASCII, and neither a CR nor a semicolon. -/
theorem isHexDigit_plain : ∀ byte : UInt8, isHexDigit byte = true →
    byte ≠ cr ∧ byte ≠ semicolon ∧ byte < 128 :=
  forall_byte (by decide +kernel)

theorem hexValue_lowercase : ∀ byte : UInt8,
    hexValue (if 65 ≤ byte ∧ byte ≤ 90 then byte + 32 else byte) = hexValue byte :=
  forall_byte (by decide +kernel)

theorem hexDecode_toAsciiLowercase : ∀ text : Bytes,
    hexDecode (toAsciiLowercase text) = hexDecode text
  | [] => rfl
  | [_] => rfl
  | high :: low :: rest => by
      have ih := hexDecode_toAsciiLowercase rest
      simp only [toAsciiLowercase, List.map_cons] at ih ⊢
      simp only [hexDecode, hexValue_lowercase, ih]

/-- The two digits of a byte. -/
theorem hexDigits_byte : ∀ byte : UInt8,
    ∃ high low, String.utf8EncodeChar (hexDigit (byte.toNat / 16)) = [high] ∧
      String.utf8EncodeChar (hexDigit (byte.toNat % 16)) = [low] ∧
      hexValue high = some (byte.toNat / 16) ∧ hexValue low = some (byte.toNat % 16) := by
  have hdigit : ∀ n < 16, ∃ byte, String.utf8EncodeChar (hexDigit n) = [byte] ∧
      hexValue byte = some n := by
    intro n hn
    have hall : ∀ n < 16, (String.utf8EncodeChar (hexDigit n)).length = 1 ∧
        (String.utf8EncodeChar (hexDigit n)).map hexValue = [some n] := by decide +kernel
    obtain ⟨hlength, hvalue⟩ := hall n hn
    obtain ⟨byte, hbyte⟩ := List.length_eq_one_iff.mp hlength
    exact ⟨byte, hbyte, by simpa [hbyte] using hvalue⟩
  intro byte
  have hlt := byte.toNat_lt
  obtain ⟨high, hhigh, hhighValue⟩ := hdigit (byte.toNat / 16) (by omega)
  obtain ⟨low, hlow, hlowValue⟩ := hdigit (byte.toNat % 16) (by omega)
  exact ⟨high, low, hhigh, hlow, hhighValue, hlowValue⟩

theorem hexDecode_hexBytes (bytes : Bytes) : hexDecode (hexBytes bytes) = some bytes := by
  rw [hexBytes, hexEncode, utf8Bytes_ofList]
  induction bytes with
  | nil => rfl
  | cons byte bytes ih =>
      obtain ⟨high, low, hhigh, hlow, hhighValue, hlowValue⟩ := hexDigits_byte byte
      simp only [List.flatMap_cons, hhigh, hlow, List.cons_append, List.nil_append, hexDecode,
        hhighValue, hlowValue, ih]
      rw [Nat.div_add_mod, UInt8.ofNat_toNat]

theorem constantTimeEq_eq_true {left right : Bytes} :
    constantTimeEq left right = true ↔ left = right := by
  have hfold : ∀ (pairs : List (UInt8 × UInt8)) (acc : UInt8),
      pairs.foldl (fun difference pair => difference ||| (pair.1 ^^^ pair.2)) acc = 0 ↔
        acc = 0 ∧ ∀ pair ∈ pairs, pair.1 = pair.2 := by
    intro pairs
    induction pairs with
    | nil => simp
    | cons pair pairs ih =>
        intro acc
        rw [List.foldl_cons, ih, UInt8.or_eq_zero_iff, UInt8.xor_eq_zero_iff, List.forall_mem_cons,
          and_assoc]
  simp only [constantTimeEq, Bool.and_eq_true, beq_iff_eq, hfold, true_and]
  constructor
  · rintro ⟨hlength, hpairs⟩
    refine List.ext_getElem hlength fun i hleft hright => ?_
    have hmem : (left[i], right[i]) ∈ left.zip right := by
      rw [List.mem_iff_getElem]
      exact ⟨i, by simp; omega, by simp⟩
    exact hpairs _ hmem
  · rintro rfl
    refine ⟨rfl, fun pair hpair => ?_⟩
    rw [List.zip_eq_zipWith, List.zipWith_self, List.mem_map] at hpair
    obtain ⟨a, -, rfl⟩ := hpair
    rfl

/-- A digest in hexadecimal compared with a signature of either case. -/
theorem constantTimeHexEq_eq_true {digest signature : Bytes} :
    constantTimeHexEq (hexBytes digest) (toAsciiLowercase signature) = true ↔
      hexDecode signature = some digest := by
  unfold constantTimeHexEq
  rw [hexDecode_hexBytes, hexDecode_toAsciiLowercase]
  cases hexDecode signature with
  | none => simp
  | some bytes =>
      simp only [constantTimeEq_eq_true, Option.some.injEq]
      exact eq_comm

/-- ASCII is UTF-8. -/
theorem isUtf8_of_ascii {bytes : Bytes} (h : ∀ byte ∈ bytes, byte < 128) :
    Utf8.isUtf8 bytes = true := by
  have hchar : ∀ byte : UInt8, byte < 128 →
      String.utf8EncodeChar (Char.ofNat byte.toNat) = [byte] :=
    forall_byte (by decide +kernel)
  rw [Utf8.isUtf8_iff]
  refine ⟨bytes.map fun byte => Char.ofNat byte.toNat, ?_⟩
  induction bytes with
  | nil => rfl
  | cons byte bytes ih =>
      rw [List.forall_mem_cons] at h
      rw [List.map_cons, List.flatMap_cons, hchar byte h.1, ← ih h.2, List.singleton_append]

/-! ### The grammar -/

/-- One chunk frame: `hexsize;chunk-signature=sig`, CRLF, the data, CRLF. -/
structure Frame where
  size : Bytes
  signature : Bytes
  data : Bytes
  size_digits : 1 ≤ size.length ∧ size.length ≤ 16 ∧ size.all isHexDigit = true
  size_value : parseHex size = data.length
  size_le : data.length ≤ maxChunkBytes
  signature_digits : signature.length = 64 ∧ signature.all isHexDigit = true

def signatureKey : Bytes := utf8Bytes "chunk-signature="

namespace Frame

def header (frame : Frame) : Bytes :=
  frame.size ++ semicolon :: (signatureKey ++ frame.signature)

def bytes (frame : Frame) : Bytes := frame.header ++ crlf ++ frame.data ++ crlf

end Frame

/-- The signature is the one of the data behind the signature before it. -/
def Signs (crypto : Crypto) (signing : StreamingSigning) (previous signature data : Bytes) : Prop :=
  hexDecode signature = some (crypto.hmac signing.signingKey
    (AwsChunkedDecoder.chunkStringToSign signing previous (hexBytes (crypto.sha256 data))))

/-- The signatures of the frames are a chain. -/
def Chain (crypto : Crypto) (signing : StreamingSigning) : Bytes → List Frame → Prop
  | _, [] => True
  | previous, frame :: frames =>
      Signs crypto signing previous frame.signature frame.data ∧
        Chain crypto signing (toAsciiLowercase frame.signature) frames

/-- The input is a signed body: frames with data, then an empty one. -/
structure IsBody (crypto : Crypto) (signing : StreamingSigning) (length : ℕ) (input : Bytes)
    (frames : List Frame) (last : Frame) : Prop where
  input_eq : input = (frames ++ [last]).flatMap Frame.bytes
  nonempty : ∀ frame ∈ frames, frame.data ≠ []
  empty : last.data = []
  count : frames.length + 1 ≤ maxChunks
  chain : Chain crypto signing signing.seedSignature (frames ++ [last])
  total : (frames.map (·.data.length)).sum = length

/-! ### Lines -/

/-- A complete line is what stands before the first CRLF. -/
theorem takeLine_eq_some {limit : ℕ} {buffer input line buffer' rest : Bytes}
    (h : takeLine limit buffer input = .ok (some line, buffer', rest)) :
    buffer ++ input = line ++ crlf ++ rest ∧ buffer' = [] := by
  induction input generalizing buffer with
  | nil => simp [takeLine] at h
  | cons byte input ih =>
      rw [takeLine] at h
      split_ifs at h with hend
      · simp only [Except.ok.injEq, Prod.mk.injEq, Option.some.injEq] at h
        obtain ⟨rfl, rfl, rfl⟩ := h
        obtain ⟨front, hfront⟩ := hend
        refine ⟨?_, rfl⟩
        rw [← hfront, List.length_append]
        simp [crlf, ← hfront, List.append_cons buffer]
      · obtain ⟨happend, hbuffer⟩ := ih h
        exact ⟨by rw [← happend, List.append_assoc, List.singleton_append], hbuffer⟩

/-- A line that has no CR and is not too long is read up to its end. -/
theorem takeLine_of_line {limit : ℕ} {buffer line rest : Bytes} (hbuffer : cr ∉ buffer)
    (hline : cr ∉ line) (hlength : (buffer ++ line).length ≤ limit) :
    takeLine limit buffer (line ++ crlf ++ rest) = .ok (some (buffer ++ line), [], rest) := by
  have hnotEnd : ∀ {text : Bytes}, cr ∉ text → ¬crlf <:+ text := by
    rintro text htext ⟨front, rfl⟩
    exact htext (by simp [crlf])
  induction line generalizing buffer with
  | nil =>
      have hcr : ¬crlf <:+ buffer ++ [cr] := by
        rintro ⟨front, hfront⟩
        have hlast := congrArg List.getLast? hfront
        simp [crlf, lf, cr] at hlast
      have hshort : ¬(limit < (buffer ++ [cr]).length ∧
          ((buffer ++ [cr]).length ≠ limit + 1 ∨ cr ≠ cr)) := by
        simp only [List.length_append, List.append_nil, List.length_singleton, ne_eq,
          not_true_eq_false, or_false] at hlength ⊢
        omega
      change takeLine limit buffer (cr :: lf :: rest) = _
      rw [takeLine, if_neg hcr, if_neg hshort, takeLine, if_pos ⟨buffer, by simp [crlf]⟩]
      simp
  | cons byte line ih =>
      rw [List.mem_cons, not_or] at hline
      have hnext : cr ∉ buffer ++ [byte] := by simp [hbuffer, hline.1]
      have hshort : ¬(limit < (buffer ++ [byte]).length ∧
          ((buffer ++ [byte]).length ≠ limit + 1 ∨ byte ≠ cr)) := by
        simp only [List.length_append, List.length_cons, List.length_nil] at hlength ⊢
        omega
      rw [List.cons_append, List.cons_append, takeLine, if_neg (hnotEnd hnext), if_neg hshort,
        ih hnext hline.2 (by simpa using hlength), List.append_assoc, List.singleton_append]

namespace AwsChunkedDecoder

variable {crypto : Crypto} {d e t : AwsChunkedDecoder}

/-! ### Headers -/

theorem splitHeader_of_header {size extension : Bytes} (h : semicolon ∉ size) :
    splitHeader (size ++ semicolon :: extension) = (size, some extension) := by
  rw [splitHeader, Text.splitOnce_eq_some.mpr ⟨rfl, h⟩]

theorem chunkSignature_eq_ok {mode : StreamingMode} (hmode : mode = .signed)
    {extension expected signature : Option Bytes} :
    chunkSignature mode expected extension = .ok signature ↔
      ∃ value, extension = some (signatureKey ++ value) ∧ value.length = 64 ∧
        value.all isHexDigit = true ∧ signature = some (toAsciiLowercase value) := by
  subst hmode
  simp only [chunkSignature, bind_eq_ok, okOr_eq_ok, Option.bind_eq_some_iff, parseSha256,
    rejectIf_eq_ok, List.dropPrefix?_eq_some_iff, not_or, not_not, pure_eq_ok, beq_iff_eq,
    Bool.not_eq_false]
  constructor
  · rintro ⟨value, ⟨_, rfl, front, rfl, rfl⟩, ⟨⟩, ⟨hlength, hdigits⟩, rfl⟩
    exact ⟨value, rfl, hlength, hdigits, rfl⟩
  · rintro ⟨value, rfl, hlength, hdigits, rfl⟩
    exact ⟨value, ⟨_, rfl, signatureKey, rfl, rfl⟩, (), ⟨hlength, hdigits⟩, rfl⟩

/-- The decoder behind the header of a chunk. -/
def headed (d : AwsChunkedDecoder) (size signature : Bytes) : AwsChunkedDecoder :=
  { d with
    chunks := d.chunks + 1, expectedChunkSignature := some (toAsciiLowercase signature),
    chunkRemaining := parseHex size, chunkHasher := [] }

/-- The header of a frame. -/
structure IsHeader (line size signature : Bytes) : Prop where
  line_eq : line = size ++ semicolon :: (signatureKey ++ signature)
  size_digits : 1 ≤ size.length ∧ size.length ≤ 16 ∧ size.all isHexDigit = true
  size_le : parseHex size ≤ maxChunkBytes
  signature_digits : signature.length = 64 ∧ signature.all isHexDigit = true

theorem IsHeader.plain {line size signature : Bytes} (h : IsHeader line size signature) :
    cr ∉ line ∧ semicolon ∉ size ∧ ∀ byte ∈ line, byte < 128 := by
  have hkey : ∀ byte ∈ signatureKey, byte ≠ cr ∧ byte < 128 := by decide +kernel
  have hsize := fun byte (hb : byte ∈ size) =>
    isHexDigit_plain byte (List.all_eq_true.mp h.size_digits.2.2 byte hb)
  have hsignature := fun byte (hb : byte ∈ signature) =>
    isHexDigit_plain byte (List.all_eq_true.mp h.signature_digits.2 byte hb)
  have hbyte : ∀ byte ∈ line, byte ≠ cr ∧ byte < 128 := by
    intro byte hb
    rw [h.line_eq, List.mem_append, List.mem_cons, List.mem_append] at hb
    rcases hb with hb | rfl | hb | hb
    · exact ⟨(hsize byte hb).1, (hsize byte hb).2.2⟩
    · decide
    · exact hkey byte hb
    · exact ⟨(hsignature byte hb).1, (hsignature byte hb).2.2⟩
  exact ⟨fun hcr => (hbyte cr hcr).1 rfl, fun hs => (hsize _ hs).2.1 rfl, fun byte hb => (hbyte byte hb).2⟩

theorem startChunk_eq_ok (hmode : d.mode = .signed) {line : Bytes} :
    d.startChunk crypto line = .ok e ↔ ∃ size signature, IsHeader line size signature ∧
      d.chunks + 1 ≤ maxChunks ∧ enterChunk crypto (d.headed size signature) (parseHex size) = .ok e := by
  constructor
  · intro h
    rcases hsplit : splitHeader line with ⟨size, extension⟩
    simp only [startChunk, hsplit, bind_eq_ok, rejectIf_eq_ok,
      chunkSignature_eq_ok hmode, not_or,
      not_lt, Bool.not_eq_false] at h
    obtain ⟨-, -, -, ⟨hne, hlength, hdigits⟩, -, hle, -, hcount, _,
      ⟨signature, rfl, hsignature, hhex, rfl⟩, h⟩ := h
    have hline : line = size ++ semicolon :: (signatureKey ++ signature) := by
      unfold splitHeader at hsplit
      split at hsplit
      next before after hfound =>
        obtain ⟨rfl, hafter⟩ := Prod.mk.inj hsplit
        obtain rfl := Option.some.inj hafter
        exact (Text.splitOnce_eq_some.mp hfound).1
      next => cases (Prod.mk.inj hsplit).2
    exact ⟨size, signature, ⟨hline, ⟨List.length_pos_of_ne_nil hne, hlength, hdigits⟩, hle,
      hsignature, hhex⟩, hcount, h⟩
  · rintro ⟨size, signature, hheader, hcount, h⟩
    obtain ⟨-, hsemicolon, hascii⟩ := hheader.plain
    obtain ⟨hpos, hlength, hdigits⟩ := hheader.size_digits
    have hsplit : splitHeader line = (size, some (signatureKey ++ signature)) := by
      rw [hheader.line_eq, splitHeader_of_header hsemicolon]
    simp only [startChunk, hsplit, bind_eq_ok, rejectIf_eq_ok,
      chunkSignature_eq_ok hmode, not_or,
      not_lt, Bool.not_eq_false, fromUtf8]
    exact ⟨(), isUtf8_of_ascii hascii, (), ⟨List.ne_nil_of_length_pos hpos, hlength, hdigits⟩, (),
      hheader.size_le, (), hcount, _,
      ⟨signature, rfl, hheader.signature_digits.1, hheader.signature_digits.2, rfl⟩, h⟩

/-- The decoder with all the data of a chunk and its signature. -/
def taken (d : AwsChunkedDecoder) (size signature data : Bytes) : AwsChunkedDecoder :=
  { d.headed size signature with
    expectedChunkSignature := none, previousSignature := toAsciiLowercase signature,
    chunkHasher := data, chunkRemaining := 0, decodedLength := d.decodedLength + parseHex size }

theorem verifyChunkSignature_eq_ok {signature : Bytes}
    (h : d.expectedChunkSignature = some (toAsciiLowercase signature)) :
    d.verifyChunkSignature crypto = .ok e ↔
      Signs crypto d.signing d.previousSignature signature d.chunkHasher ∧
        e = { d with
          expectedChunkSignature := none, previousSignature := toAsciiLowercase signature } := by
  simp only [verifyChunkSignature, h, bind_eq_ok, rejectIf_eq_ok, exists_const, Bool.not_eq_false,
    constantTimeHexEq_eq_true, Signs, pure_eq_ok]
  exact and_congr_right fun _ => eq_comm

/-! ### Behind the header -/

/-- A line end that is there is taken. -/
theorem feeds_crlf {message : String} {partly : ℕ → DecodeState} {behind : DecodeState}
    (hfeed : ∀ m byte, feed crypto { d with state := partly m } byte =
      feedCrlf message d m partly behind byte) (rest : Bytes) :
    Batch.feeds (feed crypto) { d with state := partly 0 } (crlf ++ rest) =
      Batch.feeds (feed crypto) { d with state := behind } rest := by
  change Batch.feeds _ _ (cr :: lf :: rest) = _
  rw [feeds_matchCrlf hfeed (by decide) cr (lf :: rest)]
  have hmatch : matchCrlf message 0 (cr :: lf :: rest) = .ok (2, rest) := by
    cases rest <;> simp [matchCrlf]
  rw [hmatch]
  rfl

/-- Nothing else leads behind a line end. -/
theorem crlf_of_feeds {message : String} {partly : ℕ → DecodeState} {behind : DecodeState}
    (hfeed : ∀ m byte, feed crypto { d with state := partly m } byte =
      feedCrlf message d m partly behind byte) {input out : Bytes}
    (h : Batch.feeds (feed crypto) { d with state := partly 0 } input = .ok (t, out))
    (hbehind : ∀ m, t.state ≠ partly m) : ∃ rest, input = crlf ++ rest := by
  have hnil : ∀ {m : ℕ} {out : Bytes},
      Batch.feeds (feed crypto) { d with state := partly m } [] ≠ .ok (t, out) := by
    intro m out heq
    obtain ⟨rfl, -⟩ := Prod.mk.inj (Except.ok.inj heq)
    exact hbehind m rfl
  cases input with
  | nil => exact absurd h hnil
  | cons first input =>
      rw [Batch.feeds, hfeed, feedCrlf] at h
      by_cases hfirst : first = cr
      · subst hfirst
        simp only [if_true, ne_eq, not_true_eq_false, if_false, Except.bind, zero_add,
          OfNat.one_ne_ofNat, Batch.map_emit_nil] at h
        cases input with
        | nil => exact absurd h hnil
        | cons second rest =>
            rw [Batch.feeds, hfeed, feedCrlf] at h
            by_cases hsecond : second = lf
            · subst hsecond
              exact ⟨rest, rfl⟩
            · simp [hsecond, Except.bind] at h
      · simp [hfirst, Except.bind] at h

theorem feed_finalCrlf (d : AwsChunkedDecoder) (m : ℕ) (byte : UInt8) :
    feed crypto { d with state := .finalCrlf m } byte =
      feedCrlf "final chunk lacks CRLF" d m .finalCrlf .done byte := rfl

theorem feed_dataCrlf (d : AwsChunkedDecoder) (m : ℕ) (byte : UInt8) :
    feed crypto { d with state := .dataCrlf m } byte =
      feedCrlf "chunk data lacks CRLF" d m .dataCrlf .header byte := rfl

/-- In front of the data of a chunk: all of it comes, or the decoder stays there. -/
theorem data_of_feeds (hstate : d.state = .data) {input out : Bytes}
    (h : Batch.feeds (feed crypto) d input = .ok (t, out)) (hdone : t.state = .done) :
    ∃ data rest, input = data ++ rest ∧ data.length = d.chunkRemaining := by
  rcases Nat.lt_or_ge input.length d.chunkRemaining with hshort | hlong
  · exfalso
    have ht : t.state = .data := by
      match input with
      | [] =>
          obtain ⟨rfl, -⟩ := Prod.mk.inj (Except.ok.inj h)
          exact hstate
      | byte :: input =>
          rw [feeds_takeData hstate hshort.le, takeData] at h
          dsimp only at h
          rw [if_neg (Nat.sub_ne_zero_of_lt hshort)] at h
          obtain ⟨rfl, -⟩ := Prod.mk.inj (Except.ok.inj h)
          exact hstate
    rw [hdone] at ht
    cases ht
  · exact ⟨input.take d.chunkRemaining, input.drop d.chunkRemaining, by simp, by simp [hlong]⟩

/-- All the data of a chunk, with its line end. -/
theorem feeds_data {signature data rest out : Bytes} (hstate : d.state = .data)
    (hexpected : d.expectedChunkSignature = some (toAsciiLowercase signature))
    (hhasher : d.chunkHasher = []) (hlength : data.length = d.chunkRemaining) (hne : data ≠ []) :
    Batch.feeds (feed crypto) d (data ++ rest) = .ok (t, out) ↔
      Signs crypto d.signing d.previousSignature signature data ∧
      ∃ out', out = data ++ out' ∧ Batch.feeds (feed crypto)
        { d with
          expectedChunkSignature := none, previousSignature := toAsciiLowercase signature,
          chunkHasher := data, chunkRemaining := 0, state := .dataCrlf 0 } rest = .ok (t, out') := by
  obtain ⟨byte, bytes, rfl⟩ := List.exists_cons_of_ne_nil hne
  rw [Batch.feeds_append, feeds_takeData hstate hlength.le, takeData]
  dsimp only
  rw [hhasher, List.nil_append, hlength, Nat.sub_self, if_pos rfl]
  have hverify := fun e => @verifyChunkSignature_eq_ok crypto { d with
    chunkHasher := byte :: bytes, chunkRemaining := 0 } e signature hexpected
  by_cases hsigns : Signs crypto d.signing d.previousSignature signature (byte :: bytes)
  · rw [(hverify _).mpr ⟨hsigns, rfl⟩]
    exact Batch.map_emit_eq_ok.trans (and_iff_right hsigns).symm
  · cases hresult : verifyChunkSignature crypto { d with
      chunkHasher := byte :: bytes, chunkRemaining := 0 } with
    | ok e => exact absurd ((hverify e).mp hresult).1 hsigns
    | error e => simp [hsigns, Except.map, Except.bind]

/-! ### Frames -/

/-- The decoder is between two frames of a signed body. -/
structure AtHeader (d : AwsChunkedDecoder) : Prop where
  mode : d.mode = .signed
  state : d.state = .header
  line : d.line = []
  trailer : d.checksumTrailer = none
  length : d.expectedDecodedLength < 2 ^ 64
  total : d.decodedLength ≤ d.expectedDecodedLength

/-- The decoder takes the frame. -/
structure Admits (crypto : Crypto) (d : AwsChunkedDecoder) (frame : Frame) : Prop where
  count : d.chunks + 1 ≤ maxChunks
  total : d.decodedLength + frame.data.length ≤ d.expectedDecodedLength
  signs : Signs crypto d.signing d.previousSignature frame.signature frame.data

/-- The decoder behind the frame. -/
def behind (d : AwsChunkedDecoder) (frame : Frame) : AwsChunkedDecoder :=
  { d.taken frame.size frame.signature frame.data with state := .header }

@[simp] theorem behind_chunks (d : AwsChunkedDecoder) (frame : Frame) :
    (d.behind frame).chunks = d.chunks + 1 := rfl

@[simp] theorem behind_expectedDecodedLength (d : AwsChunkedDecoder) (frame : Frame) :
    (d.behind frame).expectedDecodedLength = d.expectedDecodedLength := rfl

@[simp] theorem behind_decodedLength (d : AwsChunkedDecoder) (frame : Frame) :
    (d.behind frame).decodedLength = d.decodedLength + frame.data.length := by
  simp [behind, taken, frame.size_value]

theorem AtHeader.behind (h : d.AtHeader) {frame : Frame} (hadmits : Admits crypto d frame) :
    (d.behind frame).AtHeader :=
  ⟨h.mode, rfl, h.line, h.trailer, h.length, (behind_decodedLength d frame).trans_le hadmits.total⟩

theorem isHeader_header (frame : Frame) : IsHeader frame.header frame.size frame.signature where
  line_eq := rfl
  size_digits := frame.size_digits
  size_le := frame.size_value ▸ frame.size_le
  signature_digits := frame.signature_digits

theorem IsHeader.length_le {line size signature : Bytes} (h : IsHeader line size signature) :
    line.length ≤ maxChunkHeaderBytes := by
  have hkey : signatureKey.length = 16 := by decide +kernel
  have hsize := h.size_digits.2.1
  have hsignature := h.signature_digits.1
  rw [h.line_eq, List.length_append, List.length_cons, List.length_append, maxChunkHeaderBytes]
  omega

/-- From a header on, the decoder is done if and only if the header is that of a
chunk and what follows takes it from there. -/
theorem feeds_header (hd : d.AtHeader) {input out : Bytes} :
    (Batch.feeds (feed crypto) d input = .ok (t, out) ∧ t.state = .done) ↔
      ∃ line rest size signature e, input = line ++ crlf ++ rest ∧ IsHeader line size signature ∧
        d.chunks + 1 ≤ maxChunks ∧
        enterChunk crypto (d.headed size signature) (parseHex size) = .ok e ∧
        Batch.feeds (feed crypto) e rest = .ok (t, out) ∧ t.state = .done := by
  have hfeeds := feeds_takeLine (fun _ => @feed_of_header crypto { d with line := _ } hd.state) [] input
  have hd' : ({ d with line := [] } : AwsChunkedDecoder) = d := by rw [← hd.line]
  rw [hd'] at hfeeds
  constructor
  · rintro ⟨h, hdone⟩
    rw [hfeeds] at h
    match htake : takeLine maxChunkHeaderBytes [] input with
    | .error e =>
        rw [htake] at h
        cases h
    | .ok (none, line, rest) =>
        rw [htake] at h
        obtain ⟨rfl, -⟩ := Prod.mk.inj (Except.ok.inj h)
        rw [hd.state] at hdone
        cases hdone
    | .ok (some line, buffer, rest) =>
        obtain ⟨hinput, rfl⟩ := takeLine_eq_some htake
        rw [htake] at h
        change (startChunk crypto { d with line := [] } line).bind _ = _ at h
        rw [hd'] at h
        obtain ⟨e, he, h⟩ := bind_eq_ok.1 h
        obtain ⟨size, signature, hheader, hcount, henter⟩ := (startChunk_eq_ok hd.mode).mp he
        exact ⟨line, rest, size, signature, e, hinput, hheader, hcount, henter, h, hdone⟩
  · rintro ⟨line, rest, size, signature, e, rfl, hheader, hcount, henter, h, hdone⟩
    refine ⟨?_, hdone⟩
    have htake : takeLine maxChunkHeaderBytes [] (line ++ crlf ++ rest) = .ok (some line, [], rest) :=
      takeLine_of_line List.not_mem_nil hheader.plain.1 hheader.length_le
    rw [hfeeds, htake]
    change (startChunk crypto { d with line := [] } line).bind _ = _
    rw [hd', (startChunk_eq_ok hd.mode).mpr ⟨size, signature, hheader, hcount, henter⟩]
    exact h

theorem enterChunk_zero (hmode : d.mode = .signed) {size signature : Bytes}
    (hzero : parseHex size = 0) :
    enterChunk crypto (d.headed size signature) (parseHex size) = .ok e ↔
      Signs crypto d.signing d.previousSignature signature [] ∧
        e = { d.taken size signature [] with state := .finalCrlf 0 } := by
  have hverify := fun e => @verifyChunkSignature_eq_ok crypto (d.headed size signature) e signature rfl
  rw [enterChunk, if_pos hzero, bind_eq_ok]
  constructor
  · rintro ⟨f, hf, h⟩
    obtain ⟨hsigns, rfl⟩ := (hverify f).mp hf
    obtain rfl := Except.ok.inj h
    refine ⟨hsigns, ?_⟩
    simp [taken, headed, hmode, hzero]
  · rintro ⟨hsigns, rfl⟩
    refine ⟨_, (hverify _).mpr ⟨hsigns, rfl⟩, ?_⟩
    simp [taken, headed, hmode, hzero, pure_ok]

theorem enterChunk_data (hlength : d.expectedDecodedLength < 2 ^ 64) {size signature : Bytes} {n : ℕ}
    (hn : n ≠ 0) :
    enterChunk crypto (d.headed size signature) n = .ok e ↔
      d.decodedLength + n ≤ d.expectedDecodedLength ∧
        e = { d.headed size signature with
          decodedLength := d.decodedLength + n, state := .data } := by
  rw [enterChunk, if_neg hn]
  simp only [bind_eq_ok, rejectIf_eq_ok]
  constructor
  · rintro ⟨⟨⟩, -, ⟨⟩, htotal, h⟩
    exact ⟨not_lt.mp htotal, (Except.ok.inj h).symm⟩
  · rintro ⟨htotal, rfl⟩
    exact ⟨(), not_le.mpr (htotal.trans_lt hlength), (), not_lt.mpr htotal, rfl⟩

/-- Behind the end nothing is taken. -/
theorem feeds_done (hstate : d.state = .done) {input out : Bytes} :
    Batch.feeds (feed crypto) d input = .ok (t, out) ↔ input = [] ∧ t = d ∧ out = [] := by
  cases input with
  | nil => simp [Batch.feeds, eq_comm]
  | cons byte rest => simp [Batch.feeds, feed, hstate, Except.bind]

/-- From a header on, the decoder is done if and only if it takes the frame that
comes: one with data and what follows it, or the last one. -/
theorem feeds_eq_done (hd : d.AtHeader) {input out : Bytes} :
    (Batch.feeds (feed crypto) d input = .ok (t, out) ∧ t.state = .done) ↔
      ∃ frame : Frame, Admits crypto d frame ∧
        ((frame.data ≠ [] ∧ ∃ rest out', input = frame.bytes ++ rest ∧ out = frame.data ++ out' ∧
            Batch.feeds (feed crypto) (d.behind frame) rest = .ok (t, out') ∧ t.state = .done) ∨
          (frame.data = [] ∧ input = frame.bytes ∧ out = [] ∧
            t = { d.behind frame with state := .done })) := by
  rw [feeds_header hd]
  constructor
  · rintro ⟨line, rest, size, signature, e, rfl, hheader, hcount, henter, h, hdone⟩
    by_cases hzero : parseHex size = 0
    · obtain ⟨hsigns, rfl⟩ := (enterChunk_zero hd.mode hzero).mp henter
      have hfinal := @feed_finalCrlf crypto (d.taken size signature [])
      obtain ⟨rest, rfl⟩ := crlf_of_feeds hfinal h (by simp [hdone])
      rw [feeds_crlf hfinal, feeds_done rfl] at h
      obtain ⟨rfl, rfl, rfl⟩ := h
      let frame : Frame := ⟨size, signature, [], hheader.size_digits, hzero, Nat.zero_le _,
        hheader.signature_digits⟩
      refine ⟨frame, ⟨hcount, hd.total, hsigns⟩, .inr ⟨rfl, ?_, rfl, rfl⟩⟩
      simp [frame, Frame.bytes, Frame.header, hheader.line_eq]
    · obtain ⟨htotal, rfl⟩ := (enterChunk_data hd.length hzero).mp henter
      obtain ⟨data, rest, rfl, hlength⟩ := data_of_feeds rfl h hdone
      have hsize : data.length = parseHex size := hlength
      have hne : data ≠ [] := by
        rintro rfl
        exact hzero hsize.symm
      have hcrlf := @feed_dataCrlf crypto (d.taken size signature data)
      obtain ⟨hsigns, out, rfl, hdata⟩ := (feeds_data rfl rfl rfl hlength hne).mp h
      obtain ⟨rest, rfl⟩ := crlf_of_feeds hcrlf hdata (by simp [hdone])
      let frame : Frame := ⟨size, signature, data, hheader.size_digits, hsize.symm,
        hsize ▸ hheader.size_le, hheader.signature_digits⟩
      refine ⟨frame, ⟨hcount, hsize ▸ htotal, hsigns⟩, .inl ⟨hne, rest, out, ?_, rfl, ?_, hdone⟩⟩
      · simp [frame, Frame.bytes, Frame.header, hheader.line_eq]
      · exact (feeds_crlf hcrlf rest).symm.trans hdata
  · rintro ⟨frame, hadmits, ⟨hne, rest, out, rfl, rfl, h, hdone⟩ | ⟨hempty, rfl, rfl, rfl⟩⟩
    · have hsize : frame.data.length = parseHex frame.size := frame.size_value.symm
      have hnonzero : parseHex frame.size ≠ 0 := by
        rw [← hsize]
        exact fun hzero => hne (List.length_eq_zero_iff.mp hzero)
      have hcrlf := @feed_dataCrlf crypto (d.taken frame.size frame.signature frame.data)
      have hdata := (feeds_crlf hcrlf rest).trans h
      exact ⟨frame.header, frame.data ++ (crlf ++ rest), frame.size, frame.signature, _,
        by simp [Frame.bytes], isHeader_header frame, hadmits.count,
        (enterChunk_data hd.length hnonzero).mpr ⟨hsize ▸ hadmits.total, rfl⟩,
        (feeds_data rfl rfl rfl hsize hne).mpr ⟨hadmits.signs, out, rfl, hdata⟩, hdone⟩
    · have hzero : parseHex frame.size = 0 := by rw [frame.size_value, hempty, List.length_nil]
      have hsigns := hadmits.signs
      rw [hempty] at hsigns
      have hfinal := @feed_finalCrlf crypto (d.taken frame.size frame.signature [])
      have hend := feeds_crlf hfinal []
      rw [List.append_nil] at hend
      refine ⟨frame.header, crlf, frame.size, frame.signature, _, by simp [Frame.bytes, hempty],
        isHeader_header frame, hadmits.count, (enterChunk_zero hd.mode hzero).mpr ⟨hsigns, rfl⟩,
        hend.trans ?_, rfl⟩
      rw [behind, hempty]
      rfl

/-- The frames from a header on. -/
structure IsRest (crypto : Crypto) (d : AwsChunkedDecoder) (input out : Bytes) (frames : List Frame)
    (last : Frame) : Prop where
  input_eq : input = (frames ++ [last]).flatMap Frame.bytes
  nonempty : ∀ frame ∈ frames, frame.data ≠ []
  empty : last.data = []
  count : d.chunks + (frames.length + 1) ≤ maxChunks
  chain : Chain crypto d.signing d.previousSignature (frames ++ [last])
  total : d.decodedLength + (frames.map (·.data.length)).sum = d.expectedDecodedLength
  out_eq : out = frames.flatMap Frame.data

/-- The decoder accepts what is left, and ends in `t`. No trailer is read in the
signed mode. -/
structure Accepts (crypto : Crypto) (d : AwsChunkedDecoder) (input out : Bytes)
    (t : AwsChunkedDecoder) : Prop where
  feeds : Batch.feeds (feed crypto) d input = .ok (t, out)
  finish : t.finish = .ok ()

theorem finish_eq_ok : t.finish = .ok () ↔
    t.state = .done ∧ t.decodedLength = t.expectedDecodedLength := by
  simp only [finish, bind_eq_ok, rejectIf_eq_ok, exists_const, not_not]

/-- By induction on the frames: each one moves the decoder to the next header. -/
theorem accepts_of_isRest (hd : d.AtHeader) {input out : Bytes} {frames : List Frame} {last : Frame}
    (h : IsRest crypto d input out frames last) :
    ∃ t, Accepts crypto d input out t ∧ t.checksumTrailer = none := by
  induction frames generalizing d input out with
  | nil =>
      obtain ⟨rfl, -, hempty, hcount, ⟨hsigns, -⟩, htotal, rfl⟩ := h
      have hadmits : Admits crypto d last :=
        ⟨by simpa using hcount, by simpa [hempty] using hd.total, hsigns⟩
      obtain ⟨hfeeds, -⟩ := (feeds_eq_done hd).mpr ⟨last, hadmits, .inr ⟨hempty, rfl, rfl, rfl⟩⟩
      have hlength := behind_decodedLength d last
      simp only [hempty, List.length_nil, Nat.add_zero, List.map_nil, List.sum_nil] at hlength htotal
      refine ⟨{ d.behind last with state := .done }, ⟨?_, finish_eq_ok.mpr ⟨rfl, ?_⟩⟩, hd.trailer⟩
      · simpa using hfeeds
      · exact hlength.trans htotal
  | cons frame frames ih =>
      obtain ⟨rfl, hnonempty, hempty, hcount, ⟨hsigns, hchain⟩, htotal, rfl⟩ := h
      rw [List.forall_mem_cons] at hnonempty
      rw [List.map_cons, List.sum_cons] at htotal
      rw [List.length_cons] at hcount
      have hadmits : Admits crypto d frame := ⟨by omega, by omega, hsigns⟩
      have hrest : IsRest crypto (d.behind frame) ((frames ++ [last]).flatMap Frame.bytes)
          (frames.flatMap Frame.data) frames last :=
        ⟨rfl, hnonempty.2, hempty, by rw [behind_chunks]; omega, hchain,
          by rw [behind_decodedLength, behind_expectedDecodedLength]; omega, rfl⟩
      obtain ⟨t, haccepts, htrailer⟩ := ih (hd.behind hadmits) hrest
      refine ⟨t, ⟨?_, haccepts.finish⟩, htrailer⟩
      refine ((feeds_eq_done hd).mpr ⟨frame, hadmits, .inl ⟨hnonempty.1, _, _, ?_, ?_,
        haccepts.feeds, (finish_eq_ok.mp haccepts.finish).1⟩⟩).1
      · simp
      · simp

/-- By induction on the length of the input: every frame has bytes. -/
theorem isRest_of_accepts (hd : d.AtHeader) {input out : Bytes} (h : Accepts crypto d input out t) :
    t.checksumTrailer = none ∧ ∃ frames last, IsRest crypto d input out frames last := by
  induction hn : input.length using Nat.strong_induction_on generalizing d input out with
  | _ n ih =>
      obtain ⟨hdone, hlength⟩ := finish_eq_ok.mp h.finish
      obtain ⟨frame, hadmits, ⟨hne, rest, out, rfl, rfl, hrest, -⟩ | ⟨hempty, rfl, rfl, rfl⟩⟩ :=
        (feeds_eq_done hd).mp ⟨h.feeds, hdone⟩
      · have hshorter : rest.length < n := by
          rw [← hn, List.length_append, Frame.bytes]
          simp [crlf]
        obtain ⟨htrailer, frames, last, h⟩ := ih _ hshorter (hd.behind hadmits) ⟨hrest, h.finish⟩ rfl
        have hcount := h.count
        have htotal := h.total
        simp only [behind_chunks, behind_decodedLength, behind_expectedDecodedLength] at hcount htotal
        refine ⟨htrailer, frame :: frames, last, ?_, ?_, h.empty, ?_, ⟨hadmits.signs, h.chain⟩, ?_, ?_⟩
        · simp [h.input_eq]
        · exact List.forall_mem_cons.mpr ⟨hne, h.nonempty⟩
        · rw [List.length_cons]
          omega
        · rw [List.map_cons, List.sum_cons]
          omega
        · simp [h.out_eq]
      · refine ⟨hd.trailer, [], frame, by simp, by simp, hempty, by simpa using hadmits.count,
          ⟨hadmits.signs, trivial⟩, ?_, rfl⟩
        change (d.behind frame).decodedLength = d.expectedDecodedLength at hlength
        simpa [hempty] using hlength

theorem atHeader_new {length : ℕ} {declaredTrailer : Option Bytes} {signing : StreamingSigning}
    (h : length < 2 ^ 64) : (new .signed length declaredTrailer signing).AtHeader :=
  ⟨rfl, rfl, rfl, rfl, h, Nat.zero_le _⟩

theorem isBody_iff_isRest {length : ℕ} {declaredTrailer : Option Bytes} {signing : StreamingSigning}
    {input out : Bytes} {frames : List Frame} {last : Frame} :
    (IsBody crypto signing length input frames last ∧ out = frames.flatMap Frame.data) ↔
      IsRest crypto (new .signed length declaredTrailer signing) input out frames last := by
  constructor
  · rintro ⟨⟨hinput, hnonempty, hempty, hcount, hchain, htotal⟩, hout⟩
    exact ⟨hinput, hnonempty, hempty, by simpa [new] using hcount, hchain, by simpa [new] using htotal,
      hout⟩
  · rintro ⟨hinput, hnonempty, hempty, hcount, hchain, htotal, hout⟩
    exact ⟨⟨hinput, hnonempty, hempty, by simpa [new] using hcount, hchain,
      by simpa [new] using htotal⟩, hout⟩

/-- The decoder accepts a signed body exactly when it is one, and what it puts
out is the data of the frames. -/
theorem decode_signed_iff (crypto : Crypto) (signing : StreamingSigning) (length : UInt64)
    (declaredTrailer : Option Bytes) (input out : Bytes) (trailer : Option (Bytes × Bytes)) :
    decode crypto .signed length.toNat declaredTrailer signing [input] = some (.ok (out, trailer)) ↔
      trailer = none ∧ ∃ frames last, IsBody crypto signing length.toNat input frames last ∧
        out = frames.flatMap Frame.data := by
  have hheader : (new .signed length.toNat declaredTrailer signing).AtHeader :=
    atHeader_new length.toNat_lt
  rw [decode_eq_decodeBytes, List.flatten_singleton, Option.some.injEq, decodeBytes]
  simp only [@isBody_iff_isRest crypto _ declaredTrailer, bind_eq_ok]
  constructor
  · rintro ⟨⟨t, _⟩, hfeeds, ⟨⟩, hfinish, h⟩
    obtain ⟨rfl, rfl⟩ := Prod.mk.inj (Except.ok.inj h)
    exact isRest_of_accepts hheader ⟨hfeeds, hfinish⟩
  · rintro ⟨rfl, frames, last, h⟩
    obtain ⟨t, haccepts, htrailer⟩ := accepts_of_isRest hheader h
    refine ⟨(t, out), haccepts.feeds, (), haccepts.finish, ?_⟩
    rw [htrailer]
    rfl

/-- A frame of the decoder's grammar is told by its bytes, whatever follows. -/
theorem bytes_append_inj {a b : Frame} {s t : Bytes} (h : a.bytes ++ s = b.bytes ++ t) :
    a.data = b.data ∧ s = t := by
  have hline : ∀ (frame : Frame) rest, takeLine maxChunkHeaderBytes [] (frame.bytes ++ rest) =
      .ok (some frame.header, [], frame.data ++ (crlf ++ rest)) := fun frame rest => by
    have := @takeLine_of_line _ _ _ (frame.data ++ (crlf ++ rest)) List.not_mem_nil
      (isHeader_header frame).plain.1 (isHeader_header frame).length_le
    simpa [Frame.bytes] using this
  have hsplit : ∀ frame : Frame, splitHeader frame.header =
      (frame.size, some (signatureKey ++ frame.signature)) := fun frame =>
    splitHeader_of_header (isHeader_header frame).plain.2.1
  have hsame := (hline a s).symm.trans (h ▸ hline b t)
  simp only [Except.ok.injEq, Prod.mk.injEq, Option.some.injEq, true_and] at hsame
  obtain ⟨hheader, hrest⟩ := hsame
  have hsize : a.size = b.size := congrArg Prod.fst ((hsplit a).symm.trans (hheader ▸ hsplit b))
  have hlength : a.data.length = b.data.length := by rw [← a.size_value, hsize, b.size_value]
  obtain ⟨hdata, hrest⟩ := List.append_inj hrest hlength
  exact ⟨hdata, List.append_cancel_left hrest⟩

/-- By induction on the frames: the header of the last one is counted, too. -/
theorem not_accepts_of_count (hd : d.AtHeader) {out : Bytes} {frames : List Frame} {last : Frame}
    (hnonempty : ∀ frame ∈ frames, frame.data ≠ [])
    (hcount : maxChunks < d.chunks + (frames.length + 1)) :
    ¬ Accepts crypto d ((frames ++ [last]).flatMap Frame.bytes) out t := by
  intro h
  induction frames generalizing d out with
  | nil =>
      obtain ⟨frame, hadmits, -⟩ := (feeds_eq_done hd).mp ⟨h.feeds, (finish_eq_ok.mp h.finish).1⟩
      exact absurd hadmits.count (not_le.mpr hcount)
  | cons first frames ih =>
      rw [List.forall_mem_cons] at hnonempty
      rw [List.length_cons] at hcount
      obtain ⟨frame, hadmits, ⟨-, rest, out, hinput, -, hrest, -⟩ | ⟨hempty, hinput, -⟩⟩ :=
        (feeds_eq_done hd).mp ⟨h.feeds, (finish_eq_ok.mp h.finish).1⟩
      · obtain ⟨-, rfl⟩ := bytes_append_inj hinput
        exact ih (hd.behind hadmits) hnonempty.2 (by rw [behind_chunks]; omega) ⟨hrest, h.finish⟩
      · obtain ⟨hdata, -⟩ := bytes_append_inj (hinput.trans (List.append_nil _).symm)
        exact hnonempty.1 (hdata.trans hempty)

/-- The header of a chunk under the keys and digests above. -/
def zeroHeader (size : Bytes) : Bytes :=
  size ++ utf8Bytes ";chunk-signature=" ++ List.replicate 64 48 ++ crlf

/-- A frame that `zeroCrypto` signs. -/
def zeroFrame (size data : Bytes) (hdigits : 1 ≤ size.length ∧ size.length ≤ 16 ∧
    size.all isHexDigit = true) (hvalue : parseHex size = data.length)
    (hle : data.length ≤ maxChunkBytes) : Frame :=
  ⟨size, List.replicate 64 48, data, hdigits, hvalue, hle, by decide +kernel⟩

theorem zeroCrypto_signs (previous data : Bytes) :
    Signs zeroCrypto zeroSigning previous (List.replicate 64 48) data := by
  have hzero : hexDecode (List.replicate 64 48) = some (List.replicate 32 0) := by decide +kernel
  exact hzero

def byteFrame : Frame := zeroFrame [49] [42] (by decide) (by decide) (by decide)

def endFrame : Frame := zeroFrame [48] [] (by decide) (by decide) (by decide)

theorem byteFrames_chain (previous : Bytes) (n : ℕ) :
    Chain zeroCrypto zeroSigning previous (List.replicate n byteFrame ++ [endFrame]) := by
  induction n generalizing previous with
  | zero => exact ⟨zeroCrypto_signs _ _, trivial⟩
  | succ n ih => exact ⟨zeroCrypto_signs _ _, ih _⟩

/-- The body is one empty frame whose size is written with seventeen digits, or it has
100000 frames with data before the empty one. The signatures are right, and both are refused. -/
theorem decode_refuses_long_size_and_count :
    (parseHex (List.replicate 17 48) = 0 ∧
      Signs zeroCrypto zeroSigning zeroSigning.seedSignature (List.replicate 64 48) [] ∧
      decode zeroCrypto .signed 0 none zeroSigning [zeroHeader (List.replicate 17 48) ++ crlf] =
        some (.error (.framing "invalid chunk size"))) ∧
    let frames := List.replicate 100000 byteFrame
    (∀ frame ∈ frames, frame.data ≠ []) ∧ endFrame.data = [] ∧
      Chain zeroCrypto zeroSigning zeroSigning.seedSignature (frames ++ [endFrame]) ∧
      (frames.map (·.data.length)).sum = 100000 ∧
      ∀ result, decode zeroCrypto .signed 100000 none zeroSigning
        [(frames ++ [endFrame]).flatMap Frame.bytes] ≠ some (.ok result) := by
  have hnonempty : ∀ frame ∈ List.replicate 100000 byteFrame, frame.data ≠ [] := by
    intro frame hframe
    rw [List.eq_of_mem_replicate hframe]
    exact List.cons_ne_nil _ _
  refine ⟨⟨by decide +kernel, zeroCrypto_signs _ _, by decide +kernel⟩, hnonempty, rfl,
    byteFrames_chain _ _, ?_, fun result hresult => ?_⟩
  · rw [List.map_replicate, List.sum_replicate_nat]
    rfl
  · rw [decode_eq_decodeBytes, List.flatten_singleton, Option.some.injEq, decodeBytes] at hresult
    obtain ⟨⟨t, out⟩, hfeeds, hrest⟩ := bind_eq_ok.mp hresult
    obtain ⟨_, hfinish, -⟩ := bind_eq_ok.mp hrest
    refine not_accepts_of_count (atHeader_new (by decide)) hnonempty ?_ ⟨hfeeds, hfinish⟩
    rw [List.length_replicate]
    decide

end AwsChunkedDecoder

end Maskura.Integrity
