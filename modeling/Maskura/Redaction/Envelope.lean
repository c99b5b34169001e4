import Maskura.Redaction.Replace

/-!
The envelope filter: with a key, the personal data of a record is replaced by
envelopes that hold it encrypted. It sorts the spans and passes over the
overlapping ones by itself; it hides exactly what the redaction hides.

Encryption is a parameter. It draws from a random generator, so it runs on a
state, and it may fail for a field.
-/

namespace Maskura.Redaction

open Lib Lib.Run Lib.Utf8

inductive TransformError
  | invalidUtf8
  deriving DecidableEq

variable {σ : Type}

/-- What stands in the place of a field: its envelope, or the marker when the
encryption failed, so that no plaintext is left. -/
def sealedField (kind : PiiKind) : Except String Bytes → Bytes
  | .ok envelope => envelope
  | .error _ => kind.marker

def transformRecord (hasKey : Bool) (encryptField : σ → Bytes → PiiKind → Except String Bytes × σ)
    (rng : σ) (payload : Bytes) : Except TransformError Bytes :=
  if isUtf8 payload then
    if !hasKey then .ok (redactPii payload)
    else
      let spans := findAllSpans payload
      if spans.isEmpty then .ok payload
      else
        let write := fun rng span =>
          let (envelope, rng') := encryptField rng (slice payload span.start span.stop) span.kind
          (sealedField span.kind envelope, rng')
        .ok (rewrite write payload rng 0 (sortSpans spans))
  else .error .invalidUtf8

/-- The spans of a list of pieces. -/
def hiddenParts (parts : List Piece) : List Span :=
  parts.filterMap fun
    | .clear _ _ => none
    | .hidden span => some span

/-- What the encryption returns for the fields of spans, one after the other. -/
def encryptAll (encryptField : σ → Bytes → PiiKind → Except String Bytes × σ) (x : Bytes) :
    σ → List Span → List (Except String Bytes)
  | _, [] => []
  | rng, span :: rest =>
      (encryptField rng (slice x span.start span.stop) span.kind).1 ::
        encryptAll encryptField x (encryptField rng (slice x span.start span.stop) span.kind).2 rest

/-- The text of pieces with the clear ones copied and each span replaced by what
the encryption of its field gave. -/
def sealedText (x : Bytes) : List Piece → List (Except String Bytes) → Bytes
  | [], _ => []
  | .clear start stop :: parts, outcomes => slice x start stop ++ sealedText x parts outcomes
  | .hidden span :: parts, outcome :: outcomes =>
      sealedField span.kind outcome ++ sealedText x parts outcomes
  | .hidden span :: parts, [] => span.kind.marker ++ sealedText x parts []

variable {x : Bytes}

theorem hiddenParts_pieces {len pos : ℕ} {spans : List Span} :
    hiddenParts (pieces len pos spans) = spans := by
  induction spans generalizing pos with
  | nil => rfl
  | cons span rest ih => exact congrArg (span :: ·) ih

/-- The loop of the filter over spans that do not overlap. -/
theorem rewrite_sealed (encryptField : σ → Bytes → PiiKind → Except String Bytes × σ) {rng : σ}
    {pos : ℕ} {spans : List Span} (hordered : ∀ span ∈ spans, pos ≤ span.start)
    (hpairwise : spans.Pairwise (fun a b => a.stop ≤ b.start)) :
    rewrite (fun rng span =>
        let (envelope, rng') := encryptField rng (slice x span.start span.stop) span.kind
        (sealedField span.kind envelope, rng')) x rng pos spans =
      sealedText x (pieces x.length pos spans) (encryptAll encryptField x rng spans) := by
  induction spans generalizing rng pos with
  | nil => simp [rewrite, pieces, sealedText]
  | cons head rest ih =>
      obtain ⟨hhead, hrest⟩ := List.pairwise_cons.mp hpairwise
      have := hordered head List.mem_cons_self
      rw [rewrite, if_neg (by omega), ih hhead hrest, pieces, sealedText, encryptAll, sealedText,
        List.append_assoc]

/-- For every text there is one way to cut it into pieces such that redaction
copies the clear ones and writes markers for the others, and the envelope filter
copies the clear ones and writes what encryption gives for the others: an
envelope, or the marker where it fails. Put back for its envelope, each field
gives the text again. -/
theorem envelope_hides_what_redaction_hides (x : Bytes) (hx : isUtf8 x = true) :
    ∃ parts : List Piece, Tiles x.length 0 parts ∧ parts.flatMap (Piece.source x) = x ∧
      redactPii x = parts.flatMap (Piece.redacted x) ∧
      ∀ (σ : Type) (encryptField : σ → Bytes → PiiKind → Except String Bytes × σ) (rng : σ),
        transformRecord true encryptField rng x =
          .ok (sealedText x parts (encryptAll encryptField x rng (hiddenParts parts))) := by
  have hsource : (pieces x.length 0 (hiddenSpans x)).flatMap (Piece.source x) = x := by
    rw [flatMap_source tiles_hidden]
    simp [slice]
  refine ⟨pieces x.length 0 (hiddenSpans x), tiles_hidden, hsource, redactPii_eq, ?_⟩
  intro σ encryptField rng
  have hrewrite := @rewrite_sealed σ x encryptField rng 0 (hiddenSpans x) (fun _ _ => Nat.zero_le _)
    hiddenSpans_pairwise
  rw [hiddenParts_pieces, transformRecord, if_pos hx, ← hrewrite]
  simp only [Bool.not_true, Bool.false_eq_true, if_false]
  split
  next hempty =>
    -- without a span the record is returned as it is
    have hnone : hiddenSpans x = [] := by
      rw [hiddenSpans_eq, List.isEmpty_iff.mp hempty]
      rfl
    simp [hnone, rewrite, slice]
  next => rw [rewrite_eq, hiddenSpans_eq]

def sampleRecord : Bytes := utf8Bytes "a@b.c 123456789"

/-- An encryption that works once. -/
def sampleEncryptField (calls : ℕ) (field : Bytes) (_ : PiiKind) : Except String Bytes × ℕ :=
  if calls = 0 then (.ok (utf8Bytes "\x7b" ++ field.reverse ++ utf8Bytes "\x7d"), 1)
  else (.error "no entropy seed", calls + 1)

theorem sample_envelope_hides_what_redaction_hides :
    isUtf8 sampleRecord = true ∧
      transformRecord true sampleEncryptField 0 sampleRecord =
        .ok (utf8Bytes "\x7bc.b@a\x7d " ++ PiiKind.ssn.marker) ∧
      ∃ parts : List Piece, parts.flatMap (Piece.source sampleRecord) = sampleRecord ∧
        redactPii sampleRecord = parts.flatMap (Piece.redacted sampleRecord) ∧
        transformRecord true sampleEncryptField 0 sampleRecord =
          .ok (sealedText sampleRecord parts
            (encryptAll sampleEncryptField sampleRecord 0 (hiddenParts parts))) := by
  have hutf8 : isUtf8 sampleRecord = true := by decide +kernel
  obtain ⟨parts, -, hsource, hredacted, hsealed⟩ :=
    envelope_hides_what_redaction_hides sampleRecord hutf8
  exact ⟨hutf8, by decide +kernel, parts, hsource, hredacted, hsealed ℕ sampleEncryptField 0⟩

end Maskura.Redaction
