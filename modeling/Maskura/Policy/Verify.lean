import Maskura.Policy.Authority
import Maskura.Policy.Evidence
import Mathlib.Data.List.Dedup

/-!
Verification of an exported artifact against what the customer pinned and
retained, as `maskura policy verify` runs it. Once it succeeds, all checkpoints
of the artifact are retained and may anchor later verifications.
-/

namespace Maskura.Policy

open Maskura.Lib
open Maskura.Persistence (Bytes u64Bound saturatingAdd)

variable {ρ : Type}

/-! ### Data -/

structure TrustPin where
  workspaceId : String
  rootFingerprint : String
  bundle : Option TrustBundle
  deriving DecidableEq, Repr

structure TrustState where
  pin : Option TrustPin
  retained : List Checkpoint
  deriving DecidableEq, Repr

inductive VerificationStep
  | container | digest | receipt | chain | approval | signerTransition | checkpoint | validity
  | witness
  deriving DecidableEq, Repr

inductive FindingCode
  | parseError | schemaRejected | kindRejected | unknownField | boundsExceeded
  | digestMismatch | receiptInvalid
  | chainInvalid | genesisInvalid
  | unpinnedRoot | approvalInvalid | approvalMismatch
  | transitionInvalid | discontinuity | discontinuityNewRootNotAccepted
  | firstRun | extendedOk | gap | rollbackSuspect
  | valid | notYetValid | expired
  | notWitnessVerified
  deriving DecidableEq, Repr

structure Finding where
  step : VerificationStep
  code : FindingCode
  fatal : Bool
  message : String
  deriving DecidableEq, Repr

inductive Verdict
  | verified
  | failed
  deriving DecidableEq, Repr

inductive Completeness
  | unverified (reason : String)
  | compared (fromSeq toSeq retainedHeadSeq : ℕ)
  deriving DecidableEq, Repr

inductive WitnessStatus
  | notWitnessVerified
  deriving DecidableEq, Repr

structure ArtifactSummary where
  kind : Option EvidenceKind
  workspaceId : Option String
  headSeq : Option ℕ
  headReceiptSha256 : Option String
  deriving DecidableEq, Repr

structure VerificationReport where
  schemaVersion : ℕ
  artifact : ArtifactSummary
  evaluatedAt : ℕ
  clockSkewSeconds : ℕ
  verdict : Verdict
  findings : List Finding
  completeness : Completeness
  witness : WitnessStatus
  deriving DecidableEq, Repr

def verificationReportSchemaVersion : ℕ := 1
def clockSkewSeconds : ℕ := 60
def noPriorCheckpoint : String := "no prior checkpoint"
def unverifiedLabel : String := "UNVERIFIED (no prior checkpoint)"

/-- How the segment hangs together with what the customer holds. -/
inductive Linkage
  | pinnedGenesis
  | retained (atSeq : ℕ)
  | reconfirmed (atSeq : ℕ)
  | selfContained
  deriving DecidableEq, Repr

structure SegmentOutcome where
  head : ChainReport
  linkage : Linkage
  deriving DecidableEq, Repr

/-- `SegmentError`: what a stage that fails reports. -/
abbrev Failure := VerificationStep × FindingCode × String

/-- The environment, and how the text of an artifact is read. -/
structure ArtifactEnvironment (ρ : Type) extends ReceiptEnvironment ρ where
  /-- The JSON part of `EvidenceBundle::from_json`. -/
  parseEvidence : String → Except ConfigError (EvidenceBundle ρ)

/-! ### The report builder -/

structure Builder where
  evaluatedAt : ℕ
  findings : List Finding
  fatal : Bool
  summary : ArtifactSummary
  completeness : Completeness
  deriving DecidableEq, Repr

namespace Builder

def new (evaluatedAt : ℕ) : Builder :=
  ⟨evaluatedAt, [], false, ⟨none, none, none, none⟩, .unverified noPriorCheckpoint⟩

def push (self : Builder) (finding : Finding) : Builder :=
  { self with fatal := self.fatal || finding.fatal, findings := self.findings ++ [finding] }

def pushAll (self : Builder) (findings : List Finding) : Builder := findings.foldl push self

def fail (self : Builder) (failure : Failure) : Builder :=
  self.push ⟨failure.1, failure.2.1, true, failure.2.2⟩

def finish (self : Builder) : VerificationReport where
  schemaVersion := verificationReportSchemaVersion
  artifact := self.summary
  evaluatedAt := self.evaluatedAt
  clockSkewSeconds := clockSkewSeconds
  verdict := if self.fatal then .failed else .verified
  findings := self.findings
  completeness := self.completeness
  witness := .notWitnessVerified

/-- Go on with the result of a stage, or return early with its failure. -/
def orFail {α : Type} (self : Builder) : Except Failure α → Except Builder α
  | .ok value => .ok value
  | .error failure => .error (self.fail failure)

end Builder

/-! ### Container and links -/

def contains (text part : String) : Prop := part.toList <:+: text.toList

instance (text part : String) : Decidable (contains text part) :=
  inferInstanceAs (Decidable (_ <:+: _))

def containerCode (detail : String) : FindingCode :=
  if contains detail "unknown fields" then .unknownField
  else if contains detail "schema_version" ∨ contains detail "cose_alg" ∨
      contains detail "ES256" then .schemaRejected
  else if contains detail "unknown evidence kind" ∨ contains detail "must carry kind" then
    .kindRejected
  else if contains detail "size limit" ∨ contains detail "exceeds" then .boundsExceeded
  else .parseError

def shortFp (value : String) : String := .ofList (value.toList.take 12) ++ "…"

section Stages

variable (env : ArtifactEnvironment ρ)

/-- `EvidenceBundle::validate`, with its outcome kept beside the bundle. -/
def checkShape (bundle : EvidenceBundle ρ) :
    Except ConfigError (ValidBundle ρ env.toTrustEnvironment) :=
  match h : bundle.validate env.toTrustEnvironment with
  | .ok () => .ok ⟨bundle, h⟩
  | .error error => .error error

def fromJson (json : String) : Except ConfigError (ValidBundle ρ env.toTrustEnvironment) := do
  rejectIf (json.utf8ByteSize > maxEvidenceJsonLen)
    (.invalid ("evidence exceeds size limit of " ++ toString maxEvidenceJsonLen ++ " bytes"))
  let bundle ← env.parseEvidence json
  checkShape env bundle

def readContainer (input : String) :
    Except Failure (ValidBundle ρ env.toTrustEnvironment) :=
  (fromJson env input).mapError fun error =>
    (.container, containerCode error.display, "container rejected: " ++ error.display)

def bodyDigest (receipt : SignedReceipt ρ) : Except ConfigError String :=
  digestOf env.sha256 (env.bodyCbor receipt.body)

def digestFailure (receipt : SignedReceipt ρ) : Option Failure :=
  match bodyDigest env receipt with
  | .ok _ => none
  | .error error =>
      some (.digest, .digestMismatch, "canonical-CBOR digest re-derivation failed for seq " ++
        toString receipt.body.seq ++ ": " ++ error.display)

/-- All receipts are tried before the stage returns. -/
def checkDigests (builder : Builder) (receipts : List (SignedReceipt ρ)) :
    Except Builder Unit :=
  match receipts.filterMap (digestFailure env) with
  | [] => .ok ()
  | failures => .error (failures.foldl Builder.fail builder)

def seqDigests (receipts : List (SignedReceipt ρ)) : SeqDigests :=
  receipts.filterMap fun receipt =>
    (bodyDigest env receipt).toOption.map fun digest => (receipt.body.seq, digest)

def checkBody (receipt : SignedReceipt ρ) : Except Failure Unit :=
  (receipt.body.validate env.toReceiptEnvironment).mapError fun error =>
    (.receipt, .receiptInvalid, "receipt body invalid at seq " ++ toString receipt.body.seq ++
      ": " ++ error.display)

/-- As many digests as receipts, so no two of them share a sequence. -/
def checkDuplicates (receipts : List (SignedReceipt ρ)) (digests : SeqDigests) :
    Except Failure Unit :=
  rejectIf ((digests.map (·.1)).dedup.length ≠ receipts.length)
    (.chain, .chainInvalid, "artifact presents duplicate receipt sequences")

def checkedSucc (n : ℕ) : Option ℕ := if n + 1 < u64Bound then some (n + 1) else none

def checkSegment (digests : SeqDigests) : List (SignedReceipt ρ) → Except Failure Unit
  | [] | [_] => .ok ()
  | current :: next :: rest => do
      rejectIf (checkedSucc current.body.seq ≠ some next.body.seq ∨
          digests.get current.body.seq ≠ some next.body.prevReceiptSha256)
        (.chain, .chainInvalid, "chain link broken between seq " ++ toString current.body.seq ++
          " and seq " ++ toString next.body.seq ++ " (sequence or predecessor mismatch)")
      checkSegment digests (next :: rest)

def checkGenesis (first : SignedReceipt ρ) : Except Failure Unit :=
  rejectIf (first.body.seq = 1 ∧ first.body.prevReceiptSha256 ≠ genesisPrev)
    (.chain, .genesisInvalid, "genesis receipt must link to the all-zero predecessor digest")

def checkLinks (artifact : ValidBundle ρ env.toTrustEnvironment) (digests : SeqDigests) :
    Except Failure Unit :=
  (checkContainerLinks env.toTrustEnvironment artifact.bundle artifact.bundle.segment artifact.head
    digests).mapError fun error => (.chain, .chainInvalid, error.display)

/-! ### Trust -/

def checkPin (state : TrustState) (bundle : EvidenceBundle ρ) : Except Failure TrustPin := do
  let pin ← okOr state.pin
    (.approval, .unpinnedRoot, "unpinned: no local trust root for workspace " ++
      env.debug bundle.workspaceId ++ "; approval verification refused " ++
      "(establish a pin with \x60maskura policy trust import\x60 on your own artifact)")
  rejectIf (pin.workspaceId ≠ bundle.workspaceId)
    (.approval, .unpinnedRoot, "unpinned: the local pin covers workspace " ++
      env.debug pin.workspaceId ++ ", not " ++ env.debug bundle.workspaceId)
  rejectIf (pin.rootFingerprint ≠ bundle.trustRootFingerprint)
    (.signerTransition, .discontinuityNewRootNotAccepted,
      "discontinuity: new root not accepted (artifact root " ++
      shortFp bundle.trustRootFingerprint ++ " does not match pinned root " ++
      shortFp pin.rootFingerprint ++
      "; accept it explicitly with \x60maskura policy trust import --force\x60 or " ++
      "\x60maskura policy trust add\x60)")
  return pin

/-- The retained checkpoints of this lineage. -/
def TrustState.lineage (self : TrustState) (pin : TrustPin) : List Checkpoint :=
  self.retained.filter fun checkpoint =>
    checkpoint.workspaceId = pin.workspaceId ∧
      checkpoint.initialBundleSha256 = pin.rootFingerprint

def resetSources (pin : TrustPin) (retained : List Checkpoint) (bundle : EvidenceBundle ρ) :
    List (String × TrustBundle) :=
  (pin.bundle.toList.map fun root => ("pinned root", root)) ++
    (retained.map fun checkpoint =>
      ("retained checkpoint " ++ toString checkpoint.receiptSeq, checkpoint.authorization)) ++
    bundle.chainCheckpoints.map fun checkpoint =>
      ("checkpoint " ++ toString checkpoint.receiptSeq, checkpoint.authorization)

/-- Recorded trust resets, shown before any claim of continuity. -/
def resetFindings (sources : List (String × TrustBundle)) : List Finding :=
  sources.flatMap fun (source, state) => state.trustResets.map fun reset =>
    ⟨.signerTransition, .discontinuity, false, "discontinuity: trust reset recorded at epoch " ++
      toString reset.epoch ++ " (" ++ reset.reason ++ "); history is not continuous across a " ++
      "trust reset (" ++ source ++ ")"⟩

/-- The pinned bundle, if it is the root itself and not a later snapshot. -/
def TrustPin.genesisRoot (self : TrustPin) : Option TrustBundle :=
  self.bundle.filter fun root =>
    root.signerEpoch = 1 ∧
      (root.digest env.toTrustEnvironment).toOption = some self.rootFingerprint

def verifySelfContained (head : SignedReceipt ρ) (authority : TrustBundle) :
    Except ConfigError ReceiptStanding := do
  rejectIf (head.body.action = .replaceSigner ∨ head.body.action = .addSigner ∨
      head.body.replacement.isSome = true)
    (.approval "signer transitions require a link to retained history or the pinned root")
  verifyReceipt env.toReceiptEnvironment head authority

def checkpointReport (checkpoint : Checkpoint) : ChainReport where
  headSeq := checkpoint.receiptSeq
  headReceiptSha256 := checkpoint.receiptSha256
  envelopeDigest := checkpoint.envelopeDigest
  envelopeVersion := checkpoint.envelopeVersion
  effectiveStateDigest := checkpoint.effectiveStateDigest
  initialBundleSha256 := checkpoint.initialBundleSha256
  authorization := checkpoint.authorization
  receiptCount := 0
  extendsCheckpoint := true

def selfContainedReport (head : SignedReceipt ρ) (authority : TrustBundle) (pin : TrustPin) :
    ChainReport where
  headSeq := head.body.seq
  headReceiptSha256 := (head.body.receiptDigest env.toReceiptEnvironment).toOption.getD ""
  envelopeDigest := head.body.envelopeDigest
  envelopeVersion := head.body.envelopeVersion
  effectiveStateDigest := head.body.effectiveStateDigest
  initialBundleSha256 := pin.rootFingerprint
  authorization := authority
  receiptCount := 1
  extendsCheckpoint := false

/-! ### The segment -/

def approvalFailure (against : String) (error : ConfigError) : Failure :=
  (.approval, .approvalInvalid, "approval verification failed " ++ against ++ ": " ++
    error.display)

/-- Verify `receipts` behind a retained checkpoint. -/
def verifyFromRetained (pin : TrustPin) (receipts : List (SignedReceipt ρ))
    (checkpoint : Checkpoint) : Except Failure SegmentOutcome := do
  let chain ← (match pin.genesisRoot env with
    | some root => verifyReceiptChain env.toReceiptEnvironment receipts root (some checkpoint)
    | none => verifyReceiptSuffix env.toReceiptEnvironment receipts checkpoint
        pin.rootFingerprint).mapError
      (approvalFailure ("against retained checkpoint " ++ toString checkpoint.receiptSeq))
  return ⟨chain, .retained checkpoint.receiptSeq⟩

def verifyFromGenesis (receipts : List (SignedReceipt ρ)) (root : TrustBundle) :
    Except Failure SegmentOutcome := do
  let chain ← (verifyReceiptChain env.toReceiptEnvironment receipts root none).mapError
    (approvalFailure "from the pinned root")
  return ⟨chain, .pinnedGenesis⟩

/-- `max_by_key`, which returns the last of several maxima. -/
def maxBySeq : List Checkpoint → Option Checkpoint
  | [] => none
  | checkpoint :: rest =>
      match maxBySeq rest with
      | some best => if best.receiptSeq < checkpoint.receiptSeq then some checkpoint else some best
      | none => some checkpoint

/-- The last retained checkpoint inside the segment, before its head. -/
def interiorCheckpoint (first head : SignedReceipt ρ) (digests : SeqDigests)
    (retained : List Checkpoint) : Option Checkpoint :=
  maxBySeq <| retained.filter fun checkpoint =>
    checkpoint.receiptSeq ≥ first.body.seq ∧ checkpoint.receiptSeq < head.body.seq ∧
      digests.get checkpoint.receiptSeq = some checkpoint.receiptSha256

/-- A retained checkpoint of the head, under which the head verifies. -/
def reconfirmedHead (head : SignedReceipt ρ) (digests : SeqDigests) (retained : List Checkpoint) :
    Option Checkpoint :=
  (retained.find? fun checkpoint => checkpoint.receiptSeq = head.body.seq ∧
      checkpoint.receiptSha256 = (digests.get head.body.seq).getD "").filter fun checkpoint =>
    (verifySelfContained env head checkpoint.authorization).isOk

def verifyCarried (pin : TrustPin) (bundle : EvidenceBundle ρ) (head : SignedReceipt ρ) :
    Except Failure SegmentOutcome :=
  match carriedAuthority head.body.seq bundle with
  | some authority => do
      let _ ← (verifySelfContained env head authority).mapError
        (approvalFailure "against the artifact-carried authority")
      return ⟨selfContainedReport env head authority pin, .selfContained⟩
  | none =>
      .error (.approval, .approvalInvalid, "no verifiable authority state for receipt seq " ++
        toString head.body.seq ++ ": nothing links it to the pinned root and the artifact does " ++
        "not carry its post-state")

/-- The cases of `verify_segment` without a way to the pinned root. -/
def verifyInterior (pin : TrustPin) (retained : List Checkpoint) (digests : SeqDigests)
    (bundle : EvidenceBundle ρ) (segment : List (SignedReceipt ρ)) (first head : SignedReceipt ρ) :
    Except Failure SegmentOutcome :=
  match interiorCheckpoint first head digests retained with
  | some checkpoint =>
      verifyFromRetained env pin
        (segment.filter fun receipt => receipt.body.seq > checkpoint.receiptSeq) checkpoint
  | none =>
      match reconfirmedHead env head digests retained with
      | some checkpoint => .ok ⟨checkpointReport checkpoint, .reconfirmed checkpoint.receiptSeq⟩
      | none => verifyCarried env pin bundle head

/-- The retained checkpoint right before the segment. -/
def previousCheckpoint (first : SignedReceipt ρ) (retained : List Checkpoint) :
    Option Checkpoint :=
  if first.body.seq = 0 then none
  else retained.find? fun checkpoint => checkpoint.receiptSeq = first.body.seq - 1

def verifySegment (pin : TrustPin) (retained : List Checkpoint) (digests : SeqDigests)
    (artifact : ValidBundle ρ env.toTrustEnvironment) : Except Failure SegmentOutcome :=
  match previousCheckpoint artifact.first retained with
  | some checkpoint => verifyFromRetained env pin artifact.bundle.segment checkpoint
  | none =>
      match (pin.genesisRoot env).filter fun _ => artifact.first.body.seq = 1 with
      | some root => verifyFromGenesis env artifact.bundle.segment root
      | none => verifyInterior env pin retained digests artifact.bundle artifact.bundle.segment
          artifact.first artifact.head

/-- The carried authority of the head is the verified one. -/
def checkCarried (bundle : EvidenceBundle ρ) (head : SignedReceipt ρ) (report : ChainReport) :
    Except Failure Unit :=
  match carriedAuthority head.body.seq bundle with
  | none => .ok ()
  | some carried =>
      rejectIf (¬∃ digest ∈ (carried.digest env.toTrustEnvironment).toOption,
          report.authorization.digest env.toTrustEnvironment = .ok digest)
        (.signerTransition, .transitionInvalid,
          "checkpoint authority does not match the verified post-transition state")

def checkApproval : EvidenceBundle ρ → Except Failure Unit
  | .evidence artifact =>
      (approvalMatches artifact.approval artifact.receipt.proof).mapError fun error =>
        (.approval, .approvalMismatch, error.display)
  | .chain _ => .ok ()

end Stages

/-! ### Findings about an artifact that verified -/

/-- A retained checkpoint that contradicts a presented receipt, with the digest
of that receipt. -/
def divergent (digests : SeqDigests) (retained : List Checkpoint) : Option (Checkpoint × String) :=
  retained.findSome? fun checkpoint =>
    ((digests.get checkpoint.receiptSeq).filter (· ≠ checkpoint.receiptSha256)).map
      (checkpoint, ·)

def retainedHead (retained : List Checkpoint) : Option ℕ := (retained.map (·.receiptSeq)).max?

def linkageFindings (firstSeq headSeq reportSeq : ℕ) (retained : List Checkpoint) :
    Linkage → List Finding
  | .pinnedGenesis | .retained _ =>
      [⟨.checkpoint, .extendedOk, false, "extended-ok: verified seq " ++ toString firstSeq ++
        "..=" ++ toString headSeq ++ " extends retained history (new head seq " ++
        toString reportSeq ++ ")"⟩]
  | .reconfirmed atSeq =>
      [⟨.checkpoint, .extendedOk, false, "extended-ok: seq " ++ toString firstSeq ++ "..=" ++
        toString headSeq ++ " re-confirms retained checkpoint " ++ toString atSeq ++
        " (no new head)"⟩]
  | .selfContained =>
      (retainedHead retained).toList.map fun headRetained =>
        if headSeq < headRetained then
          ⟨.checkpoint, .rollbackSuspect, true, "rollback-suspect: artifact head seq " ++
            toString headSeq ++ " is below retained head seq " ++ toString headRetained ++
            " and does not match a retained record at its position"⟩
        else
          ⟨.checkpoint, .gap, true, "gap: retained head seq " ++ toString headRetained ++
            " does not link to artifact range " ++ toString firstSeq ++ "..=" ++
            toString headSeq ++ " (missing intermediate receipts)"⟩

def consistencyFindings (digests : SeqDigests) (retained : List Checkpoint)
    (firstSeq headSeq : ℕ) (outcome : SegmentOutcome) : List Finding :=
  match divergent digests retained with
  | some (checkpoint, digest) =>
      [⟨.checkpoint, .rollbackSuspect, true, "rollback-suspect: divergent history at seq " ++
        toString checkpoint.receiptSeq ++ " (retained " ++ shortFp checkpoint.receiptSha256 ++
        " vs artifact " ++ shortFp digest ++ ")"⟩]
  | none =>
      if retained = [] then
        [⟨.checkpoint, .firstRun, false, "first-run: no prior checkpoint retained locally; " ++
          "nothing yet links this artifact to pinned history (completeness " ++
          unverifiedLabel ++ ")"⟩]
      else linkageFindings firstSeq headSeq outcome.head.headSeq retained outcome.linkage

def completenessOf (retained : List Checkpoint) (firstSeq headSeq : ℕ) : Completeness :=
  match retainedHead retained with
  | none => .unverified noPriorCheckpoint
  | some retainedHeadSeq => .compared firstSeq headSeq retainedHeadSeq

def validityFindings (segment : List (SignedReceipt ρ)) (evaluatedAt : ℕ) : List Finding :=
  match segment.filter fun receipt =>
      receipt.body.issuedAt > saturatingAdd evaluatedAt clockSkewSeconds with
  | [] =>
      [⟨.validity, .valid, false, "valid: the approval was established at or before evaluated " ++
        "instant " ++ toString evaluatedAt ++ " (±" ++ toString clockSkewSeconds ++ "s skew)"⟩]
  | late => late.map fun receipt =>
      ⟨.validity, .notYetValid, true, "not-yet-valid: receipt seq " ++ toString receipt.body.seq ++
        " was issued at " ++ toString receipt.body.issuedAt ++ ", after the evaluated instant " ++
        toString evaluatedAt ++ " (+" ++ toString clockSkewSeconds ++ "s skew)"⟩

def witnessFinding (records : List WitnessAcknowledgement) : Finding :=
  ⟨.witness, .notWitnessVerified, false,
    if records = [] then
      "witness: no acknowledgement records present (absence is never blocking); " ++
        "not-witness-verified"
    else "witness: " ++ toString records.length ++ " acknowledgement record(s) parsed but the " ++
      "external witness program is gated; not-witness-verified"⟩

/-! ### The pipeline -/

section Pipeline

variable (env : ArtifactEnvironment ρ)

/-- The stages in order. An early return is an error. -/
def pipeline (input : String) (state : TrustState) (evaluatedAt : ℕ) :
    Except Builder Builder := do
  let builder := Builder.new evaluatedAt
  let artifact ← builder.orFail (readContainer env input)
  let bundle := artifact.bundle
  let builder := { builder with
    summary := ⟨some bundle.kind, some bundle.workspaceId, none, none⟩ }
  checkDigests env builder bundle.receipts
  let digests := seqDigests env bundle.receipts
  builder.orFail (bundle.receipts.forM (checkBody env))
  builder.orFail (checkDuplicates bundle.receipts digests)
  let segment := bundle.segment
  builder.orFail (checkSegment digests segment)
  let first := artifact.first
  let head := artifact.head
  builder.orFail (checkGenesis first)
  builder.orFail (checkLinks env artifact digests)
  let builder := { builder with
    summary := ⟨some bundle.kind, some bundle.workspaceId, some head.body.seq,
      digests.get head.body.seq⟩ }
  let pin ← builder.orFail (checkPin env state bundle)
  let retained := state.lineage pin
  let builder := builder.pushAll (resetFindings (resetSources pin retained bundle))
  let outcome ← builder.orFail (verifySegment env pin retained digests artifact)
  builder.orFail (checkCarried env bundle head outcome.head)
  builder.orFail (checkApproval bundle)
  let builder := builder.pushAll
    (consistencyFindings digests retained first.body.seq head.body.seq outcome)
  let builder := { builder with
    completeness := completenessOf retained first.body.seq head.body.seq }
  let builder := builder.pushAll (validityFindings segment evaluatedAt)
  return builder.push (witnessFinding bundle.witness)

structure VerifyOptions where
  at? : Option ℕ
  deriving DecidableEq, Repr

def verifyArtifact (now : ℕ) (input : String) (state : TrustState) (opts : VerifyOptions) :
    VerificationReport :=
  match pipeline env input state (opts.at?.getD now) with
  | .ok builder | .error builder => builder.finish

end Pipeline

/-! ### What a verified artifact passed -/

section Inversion

variable {env : ArtifactEnvironment ρ} {α β : Type}

/-- Returns early only with a fatal finding. -/
def FailsFatally (x : Except Builder α) : Prop :=
  ∀ builder, x = .error builder → builder.fatal = true

theorem FailsFatally.bind {x : Except Builder α} {f : α → Except Builder β} (hx : FailsFatally x)
    (hf : ∀ a, FailsFatally (f a)) : FailsFatally (x >>= f) := by
  intro builder h
  cases x with
  | error failed =>
      obtain rfl : failed = builder := Except.error.inj h
      exact hx failed rfl
  | ok a => exact hf a builder h

theorem FailsFatally.ok (a : α) : FailsFatally (.ok a) := by
  rintro builder ⟨⟩

theorem fail_fatal (builder : Builder) (failure : Failure) : (builder.fail failure).fatal = true := by
  simp [Builder.fail, Builder.push]

theorem orFail_failsFatally (builder : Builder) (x : Except Failure α) :
    FailsFatally (builder.orFail x) := by
  cases x with
  | error failure =>
      rintro _ ⟨⟩
      exact fail_fatal builder failure
  | ok a => exact .ok a

@[simp] theorem orFail_eq_ok {builder : Builder} {x : Except Failure α} {a : α} :
    builder.orFail x = .ok a ↔ x = .ok a := by
  cases x <;> simp [Builder.orFail]

theorem checkDigests_failsFatally (builder : Builder) (receipts : List (SignedReceipt ρ)) :
    FailsFatally (checkDigests env builder receipts) := by
  rw [checkDigests]
  split
  case h_1 => exact .ok ()
  case h_2 hne =>
    rintro _ ⟨⟩
    obtain ⟨front, last, hlast⟩ := (List.eq_nil_or_concat' _).resolve_left hne
    rw [hlast, List.foldl_append]
    exact fail_fatal _ _

theorem pipeline_failsFatally (input : String) (state : TrustState) (evaluatedAt : ℕ) :
    FailsFatally (pipeline env input state evaluatedAt) := by
  refine (orFail_failsFatally _ _).bind fun artifact => ?_
  refine (checkDigests_failsFatally _ _).bind fun _ => ?_
  -- All stages but the last one, which always goes on.
  repeat' refine (orFail_failsFatally _ _).bind fun _ => ?_
  exact .ok _

/-- What the stages established about an artifact that verified. -/
structure Passed (env : ArtifactEnvironment ρ) (state : TrustState)
    (artifact : ValidBundle ρ env.toTrustEnvironment) (pin : TrustPin) (outcome : SegmentOutcome) :
    Prop where
  digests : ∀ receipt ∈ artifact.bundle.receipts, ∃ digest, bodyDigest env receipt = .ok digest
  distinct : (artifact.bundle.receipts.map (·.body.seq)).Nodup
  links : checkContainerLinks env.toTrustEnvironment artifact.bundle artifact.bundle.segment
    artifact.head (seqDigests env artifact.bundle.receipts) = .ok ()
  pinned : state.pin = some pin
  root : pin.rootFingerprint = artifact.bundle.trustRootFingerprint
  segment : verifySegment env pin (state.lineage pin) (seqDigests env artifact.bundle.receipts)
    artifact = .ok outcome
  carried : checkCarried env artifact.bundle artifact.head outcome.head = .ok ()

theorem checkDigests_ok {builder : Builder} {receipts : List (SignedReceipt ρ)}
    (h : checkDigests env builder receipts = .ok ()) :
    ∀ receipt ∈ receipts, ∃ digest, bodyDigest env receipt = .ok digest := by
  rw [checkDigests] at h
  split at h
  case h_2 => cases h
  case h_1 hnone =>
    intro receipt hmem
    have hpassed := List.filterMap_eq_nil_iff.mp hnone receipt hmem
    rw [digestFailure] at hpassed
    split at hpassed
    case h_1 digest hdigest => exact ⟨digest, hdigest⟩
    case h_2 => cases hpassed

/-- Where every digest could be derived, there is one for each receipt. -/
theorem seqDigests_keys {receipts : List (SignedReceipt ρ)}
    (h : ∀ receipt ∈ receipts, ∃ digest, bodyDigest env receipt = .ok digest) :
    (seqDigests env receipts).map (·.1) = receipts.map (·.body.seq) := by
  induction receipts with
  | nil => rfl
  | cons receipt rest ih =>
      obtain ⟨⟨digest, hdigest⟩, hrest⟩ := List.forall_mem_cons.mp h
      have hcons : seqDigests env (receipt :: rest) =
          (receipt.body.seq, digest) :: seqDigests env rest := by
        simp [seqDigests, hdigest, Except.toOption]
      rw [hcons, List.map_cons, ih hrest, List.map_cons]

theorem checkDuplicates_ok {receipts : List (SignedReceipt ρ)}
    (hdigests : ∀ receipt ∈ receipts, ∃ digest, bodyDigest env receipt = .ok digest)
    (h : checkDuplicates receipts (seqDigests env receipts) = .ok ()) :
    (receipts.map (·.body.seq)).Nodup := by
  have hlength := not_not.mp ((rejectIf_eq_ok ..).mp h)
  rw [seqDigests_keys hdigests] at hlength
  have hsame := (List.dedup_sublist (receipts.map (·.body.seq))).eq_of_length
    (by rw [hlength, List.length_map])
  rw [← hsame]
  exact List.nodup_dedup _

theorem push_fatal (builder : Builder) (finding : Finding) :
    (builder.push finding).fatal = (builder.fatal || finding.fatal) := rfl

theorem pushAll_fatal (builder : Builder) (findings : List Finding) :
    (builder.pushAll findings).fatal = (builder.fatal || findings.any Finding.fatal) := by
  induction findings generalizing builder with
  | nil => simp [Builder.pushAll]
  | cons finding rest ih =>
      rw [show builder.pushAll (finding :: rest) = (builder.push finding).pushAll rest from rfl,
        ih, push_fatal, List.any_cons, Bool.or_assoc]

/-- The stages passed, and no finding about the retained checkpoints is fatal
if none at all is. -/
theorem pipeline_ok {input : String} {state : TrustState} {evaluatedAt : ℕ} {builder : Builder}
    (h : pipeline env input state evaluatedAt = .ok builder) :
    ∃ artifact pin outcome, fromJson env input = .ok artifact ∧
      Passed env state artifact pin outcome ∧ (builder.fatal = false →
        (consistencyFindings (seqDigests env artifact.bundle.receipts) (state.lineage pin)
          artifact.first.body.seq artifact.head.body.seq outcome).any Finding.fatal = false) := by
  simp only [pipeline, bind_eq_ok, orFail_eq_ok, pure_eq_ok] at h
  obtain ⟨artifact, hread, _, hdigests, _, -, _, hduplicates, _, -, _, -, _, hlinks, pin, hpin,
    outcome, hsegment, _, hcarried, _, -, rfl⟩ := h
  simp only [checkPin, bind_eq_ok, okOr_eq_ok, rejectIf_eq_ok, exists_const, pure_eq_ok] at hpin
  obtain ⟨pin', hpinned, -, hroot, rfl⟩ := hpin
  refine ⟨artifact, pin', outcome, mapError_eq_ok.mp hread, ⟨checkDigests_ok hdigests,
    checkDuplicates_ok (checkDigests_ok hdigests) hduplicates, mapError_eq_ok.mp hlinks, hpinned,
    not_not.mp hroot, hsegment, hcarried⟩, fun hfatal => ?_⟩
  rw [push_fatal, pushAll_fatal, Bool.or_eq_false_iff, Bool.or_eq_false_iff] at hfatal
  have hconsistency := hfatal.1.1
  rw [pushAll_fatal, Bool.or_eq_false_iff] at hconsistency
  exact hconsistency.2

theorem verified_passed {now : ℕ} {input : String} {state : TrustState} {opts : VerifyOptions}
    (h : (verifyArtifact env now input state opts).verdict = .verified) :
    ∃ artifact pin outcome, fromJson env input = .ok artifact ∧
      Passed env state artifact pin outcome ∧
      (consistencyFindings (seqDigests env artifact.bundle.receipts) (state.lineage pin)
        artifact.first.body.seq artifact.head.body.seq outcome).any Finding.fatal = false := by
  rw [verifyArtifact] at h
  split at h
  case h_1 builder hpipeline =>
    have hfatal : builder.fatal = false := by
      cases hbuilder : builder.fatal with
      | false => rfl
      | true => simp [Builder.finish, hbuilder] at h
    obtain ⟨artifact, pin, outcome, hread, hpassed, hconsistent⟩ := pipeline_ok hpipeline
    exact ⟨artifact, pin, outcome, hread, hpassed, hconsistent hfatal⟩
  case h_2 builder hpipeline =>
    have hfatal := pipeline_failsFatally _ _ _ builder hpipeline
    simp [Builder.finish, hfatal] at h

end Inversion

/-! ### Carried checkpoints against the verified chain -/

section Carried

variable {env : ArtifactEnvironment ρ} {artifact : ChainArtifact ρ} {g : TrustBundle}
  {receipts : List (SignedReceipt ρ)} {receipt : SignedReceipt ρ} {checkpoint : Checkpoint}

/-- No two of these bundles share a digest. -/
def NoCollision (env : TrustEnvironment) (bundles : TrustBundle → Prop) : Prop :=
  ∀ a b digest, bundles a → bundles b → a.digest env = .ok digest → b.digest env = .ok digest →
    a = b

/-- The bundles that verification compares: those carried by the artifact, and
those derived from its receipts. -/
def ComparedBundle (env : ReceiptEnvironment ρ) (root : TrustBundle) (bundle : EvidenceBundle ρ)
    (a : TrustBundle) : Prop :=
  (∃ checkpoint ∈ bundle.chainCheckpoints, checkpoint.authorization = a) ∨
    ∃ front, front <+: bundle.segment ∧ derivedAuthority env root front = .ok a

/-- The checkpoint, apart from when it was made, is the one behind its receipt
in the chain from the pinned root. -/
def DerivedCheckpoint (env : ReceiptEnvironment ρ) (root : TrustBundle)
    (bundle : EvidenceBundle ρ) (checkpoint : Checkpoint) : Prop :=
  (∃ receipt ∈ bundle.receipts, receipt.body.seq = checkpoint.receiptSeq) ∧
    ∃ report,
      verifyReceiptChain env
        (bundle.segment.filter fun receipt => receipt.body.seq ≤ checkpoint.receiptSeq) root none =
        .ok report ∧
      report.checkpoint checkpoint.verifiedAt = checkpoint

/-- No checkpoint is numbered beyond the presented receipts, and one behind a
change of signers has the authority that the next receipt names. -/
def ChainArtifact.Anchored (env : TrustEnvironment) (self : ChainArtifact ρ) : Prop :=
  ∀ checkpoint ∈ self.checkpoints, checkpoint.receiptSeq ≤ self.receipts.length ∧
    ∀ receipt ∈ self.receipts, ∀ next ∈ self.receipts,
      receipt.body.seq = checkpoint.receiptSeq → receipt.body.replacement.isSome = true →
      next.body.seq = checkpoint.receiptSeq + 1 →
      checkpoint.authorization.digest env = .ok next.body.authorityDigest

/-- The sequences of a verified run are consecutive. -/
theorem chain_seq {env : ReceiptEnvironment ρ} {s t : ChainStart}
    (hloop : receipts.foldlM (advanceReceipt env) s = .ok t) :
    t.seq = s.seq + receipts.length ∧
      ∀ receipt ∈ receipts, s.seq < receipt.body.seq ∧ receipt.body.seq ≤ t.seq := by
  induction receipts generalizing s with
  | nil =>
      obtain rfl : s = t := Except.ok.inj hloop
      simp
  | cons receipt rest ih =>
      obtain ⟨m, hm, hrest⟩ := foldlM_cons_eq_ok.mp hloop
      obtain ⟨hlength, hseqs⟩ := ih hrest
      have hadvance := advanceReceipt_ok hm
      have hseq := hadvance.seq
      have hseq' := hadvance.seq'
      refine ⟨by rw [hlength, List.length_cons]; omega, ?_⟩
      intro r hr
      rcases List.mem_cons.mp hr with rfl | hr
      · omega
      · have := hseqs r hr
        omega

/-- Up to the sequence of a receipt come those before it, and itself. -/
theorem filter_seq_le {env : ReceiptEnvironment ρ} {front back : List (SignedReceipt ρ)}
    {s m t : ChainStart} {start : ChainStart}
    (hfront : front.foldlM (advanceReceipt env) start = .ok s)
    (hreceipt : advanceReceipt env s receipt = .ok m)
    (hback : back.foldlM (advanceReceipt env) m = .ok t) :
    (front ++ receipt :: back).filter (fun r => r.body.seq ≤ receipt.body.seq) =
      front ++ [receipt] := by
  have hadvance := advanceReceipt_ok hreceipt
  have hseq := hadvance.seq
  have hseq' := hadvance.seq'
  rw [List.filter_append, List.filter_cons_of_pos (by simp), List.filter_eq_self.mpr,
    List.filter_eq_nil_iff.mpr]
  · intro r hr
    have := (chain_seq hback).2 r hr
    simp only [decide_eq_true_eq]
    omega
  · intro r hr
    have := (chain_seq hfront).2 r hr
    simp only [decide_eq_true_eq]
    omega

/-- A checkpoint before the first receipt is never valid, so a segment that
starts there is verified from the root. -/
theorem verifySegment_from_genesis {pin : TrustPin} {retained : List Checkpoint}
    {digests : SeqDigests} {valid : ValidBundle ρ env.toTrustEnvironment}
    {outcome : SegmentOutcome} (hg : pin.genesisRoot env = some g)
    (hfirst : valid.first.body.seq = 1)
    (h : verifySegment env pin retained digests valid = .ok outcome) :
    verifyReceiptChain env.toReceiptEnvironment valid.bundle.segment g none =
      .ok outcome.head := by
  rw [verifySegment] at h
  split at h
  case h_1 checkpoint hprevious =>
    exfalso
    have hseq : checkpoint.receiptSeq = 0 := by
      rw [previousCheckpoint, if_neg (by omega), hfirst] at hprevious
      simpa using List.find?_some hprevious
    rw [verifyFromRetained, hg] at h
    obtain ⟨chain, hchain, -⟩ := bind_eq_ok.mp h
    obtain ⟨-, -, -, -, hvalid, -⟩ :=
      verifyReceiptChain_some_eq_ok.mp (mapError_eq_ok.mp hchain)
    simp [Checkpoint.validate, bind_eq_ok, hseq] at hvalid
  case h_2 =>
    have hroot : (pin.genesisRoot env).filter (fun _ => valid.first.body.seq = 1) = some g := by
      simp [hg, hfirst, Option.filter]
    rw [hroot] at h
    obtain ⟨chain, hchain, houtcome⟩ := bind_eq_ok.mp h
    obtain rfl := Except.ok.inj houtcome
    exact mapError_eq_ok.mp hchain

theorem seqDigests_get {digest : String}
    (hdigests : ∀ receipt ∈ receipts, ∃ digest, bodyDigest env receipt = .ok digest)
    (hnodup : (receipts.map (·.body.seq)).Nodup) (hmem : receipt ∈ receipts)
    (hdigest : bodyDigest env receipt = .ok digest) :
    (seqDigests env receipts).get receipt.body.seq = some digest := by
  induction receipts with
  | nil => cases hmem
  | cons r rest ih =>
      obtain ⟨⟨d, hd⟩, hrest⟩ := List.forall_mem_cons.mp hdigests
      obtain ⟨hfresh, hnodup⟩ := List.nodup_cons.mp hnodup
      have hcons : seqDigests env (r :: rest) = (r.body.seq, d) :: seqDigests env rest := by
        simp [seqDigests, hd, Except.toOption]
      rw [hcons, SeqDigests.get, List.lookup_cons]
      rcases List.mem_cons.mp hmem with rfl | hmem
      · rw [beq_self_eq_true]
        exact congrArg some (Except.ok.inj (hd.symm.trans hdigest))
      · have hne : receipt.body.seq ≠ r.body.seq :=
          fun heq => hfresh (List.mem_map.mpr ⟨receipt, hmem, heq⟩)
        rw [beq_eq_false_iff_ne.mpr hne]
        exact ih hrest hnodup hmem

/-- Where each receipt of a verified run stands. -/
theorem run_at {env : ReceiptEnvironment ρ} {t : ChainStart} (hmem : receipt ∈ receipts)
    (hloop : receipts.foldlM (advanceReceipt env) (.genesis g) = .ok t) :
    ∃ front back s m, receipts = front ++ receipt :: back ∧
      front.foldlM (advanceReceipt env) (.genesis g) = .ok s ∧
      advanceReceipt env s receipt = .ok m ∧ back.foldlM (advanceReceipt env) m = .ok t := by
  obtain ⟨front, back, hsplit⟩ := List.append_of_mem hmem
  obtain ⟨s, m, hfront, hreceipt, hback⟩ := chain_split hloop hsplit
  exact ⟨front, back, s, m, hsplit, hfront, hreceipt, hback⟩

/-- The receipt with the next sequence is the next receipt. -/
theorem run_next {env : ReceiptEnvironment ρ} {front back : List (SignedReceipt ρ)}
    {receipt next : SignedReceipt ρ} {start s m t : ChainStart}
    (hfront : front.foldlM (advanceReceipt env) start = .ok s)
    (hreceipt : advanceReceipt env s receipt = .ok m)
    (hback : back.foldlM (advanceReceipt env) m = .ok t)
    (hmem : next ∈ front ++ receipt :: back) (hseq : next.body.seq = receipt.body.seq + 1) :
    ∃ n, advanceReceipt env m next = .ok n := by
  have hadvance := advanceReceipt_ok hreceipt
  have hseqs := hadvance.seq
  have hseqs' := hadvance.seq'
  rcases List.mem_append.mp hmem with hmem | hmem
  · have := (chain_seq hfront).2 next hmem
    omega
  rcases List.mem_cons.mp hmem with rfl | hmem
  · omega
  cases back with
  | nil => cases hmem
  | cons b rest =>
      obtain ⟨n, hn, hrest⟩ := foldlM_cons_eq_ok.mp hback
      rcases List.mem_cons.mp hmem with rfl | hmem
      · exact ⟨n, hn⟩
      · have hb := (advanceReceipt_ok hn).seq
        have hb' := (advanceReceipt_ok hn).seq'
        have := (chain_seq hrest).2 next hmem
        omega

/-- A checkpoint that agrees with its receipt, and with the authority behind
it, is the one of the chain. -/
theorem linked_checkpoint {env : ReceiptEnvironment ρ} {s m : ChainStart} {root : String}
    {count : ℕ} (hadvance : Advances env s receipt m)
    (hlinked : Linked env.toTrustEnvironment checkpoint receipt m.head)
    (hvalid : checkpoint.validate env.toTrustEnvironment = .ok ())
    (hroot : checkpoint.initialBundleSha256 = root)
    (hauthority : checkpoint.authorization = m.authority) :
    (m.report root count false).checkpoint checkpoint.verifiedAt = checkpoint := by
  simp only [Checkpoint.validate, bind_eq_ok, rejectIf_eq_ok, exists_const, not_or, ne_eq,
    not_not] at hvalid
  obtain ⟨hversion, -, -, -, -, ⟨-, -, -, hworkspace⟩, -⟩ := hvalid
  have hseq := hlinked.seq
  have hdigest := hlinked.digest
  have henvelope := hlinked.envelopeDigest
  have henvelopeVersion := hlinked.envelopeVersion
  have hstate := hlinked.state
  cases checkpoint
  simp only at hversion hworkspace hseq hdigest henvelope henvelopeVersion hstate hroot hauthority
  subst hauthority
  simp only [ChainReport.checkpoint, ChainStart.report, hversion, hworkspace, hseq, hdigest,
    henvelope, henvelopeVersion, hstate, hroot, hadvance.seq', hadvance.envelope',
    hadvance.version', hadvance.state']

/-- What verification from the root leaves to use: the run over the segment,
and how the carried checkpoints were compared with it. -/
structure VerifiedChain (env : ArtifactEnvironment ρ) (artifact : ChainArtifact ρ)
    (g : TrustBundle) (root : String) (t : ChainStart) : Prop where
  genesis : g.IsGenesis
  digest : g.digest env.toTrustEnvironment = .ok root
  run : (EvidenceBundle.chain artifact).segment.foldlM
    (advanceReceipt env.toReceiptEnvironment) (.genesis g) = .ok t
  valid : ∀ c ∈ artifact.checkpoints, c.validate env.toTrustEnvironment = .ok ()
  bound : ∀ c ∈ artifact.checkpoints, c.initialBundleSha256 = root
  linked : ∀ c ∈ artifact.checkpoints, ∀ receipt ∈ artifact.receipts,
    receipt.body.seq = c.receiptSeq → ∀ digest, bodyDigest env receipt = .ok digest →
      Linked env.toTrustEnvironment c receipt digest
  head : ∀ c ∈ artifact.checkpoints, c.receiptSeq = t.seq →
    ∃ digest, c.authorization.digest env.toTrustEnvironment = .ok digest ∧
      t.authority.digest env.toTrustEnvironment = .ok digest

theorem mem_segment {bundle : EvidenceBundle ρ} :
    receipt ∈ bundle.segment ↔ receipt ∈ bundle.receipts :=
  (List.perm_insertionSort _ _).mem_iff

theorem head_mem (artifact : ValidBundle ρ env.toTrustEnvironment) :
    artifact.head ∈ artifact.bundle.receipts :=
  mem_segment.mp (List.getLast_mem artifact.segment_ne_nil)

theorem length_segment (bundle : EvidenceBundle ρ) :
    bundle.segment.length = bundle.receipts.length :=
  (List.perm_insertionSort _ _).length_eq

/-- The link of a presented receipt was checked against that receipt. -/
theorem presentedLink_linked {digests : SeqDigests} {workspaceId fingerprint digest : String}
    {receipts segment : List (SignedReceipt ρ)} (hnodup : (receipts.map (·.body.seq)).Nodup)
    (hsegment : ∀ r, r ∈ segment ↔ r ∈ receipts) (hmem : receipt ∈ receipts)
    (hseq : receipt.body.seq = checkpoint.receiptSeq)
    (hdigest : digests.get checkpoint.receiptSeq = some digest)
    (h : checkPresentedLink env.toTrustEnvironment segment digests workspaceId fingerprint
      checkpoint = .ok ()) :
    Linked env.toTrustEnvironment checkpoint receipt digest := by
  rw [checkPresentedLink] at h
  split at h
  case h_1 found hfound =>
    have hfoundSeq : found.body.seq = checkpoint.receiptSeq := by
      simpa using List.find?_some hfound
    have hsame : found = receipt :=
      List.inj_on_of_nodup_map hnodup ((hsegment found).mp (List.mem_of_find?_eq_some hfound)) hmem
        (hfoundSeq.trans hseq.symm)
    rw [hdigest, Option.getD_some, hsame] at h
    exact checkCheckpointLink_ok h
  case h_2 hnone =>
    have := List.find?_eq_none.mp hnone receipt ((hsegment receipt).mpr hmem)
    simp [hseq] at this

/-- With distinct sequences, the carried authority is that of the checkpoint. -/
theorem carriedAuthority_of_mem (hnodup : (artifact.checkpoints.map (·.receiptSeq)).Nodup)
    (hmem : checkpoint ∈ artifact.checkpoints) :
    carriedAuthority checkpoint.receiptSeq (.chain artifact) = some checkpoint.authorization := by
  obtain ⟨found, hfound⟩ : ∃ found, artifact.checkpoints.find?
      (fun c => c.receiptSeq = checkpoint.receiptSeq) = some found := by
    rw [← Option.isSome_iff_exists, List.find?_isSome]
    exact ⟨checkpoint, hmem, by simp⟩
  have hseq : found.receiptSeq = checkpoint.receiptSeq := by simpa using List.find?_some hfound
  obtain rfl := List.inj_on_of_nodup_map hnodup (List.mem_of_find?_eq_some hfound) hmem hseq
  rw [carriedAuthority, hfound, Option.map_some]

theorem checkCarried_ok {bundle : EvidenceBundle ρ} {head : SignedReceipt ρ} {report : ChainReport}
    {carried : TrustBundle} (hcarried : carriedAuthority head.body.seq bundle = some carried)
    (h : checkCarried env bundle head report = .ok ()) :
    ∃ digest, carried.digest env.toTrustEnvironment = .ok digest ∧
      report.authorization.digest env.toTrustEnvironment = .ok digest := by
  rw [checkCarried, hcarried] at h
  obtain ⟨digest, hdigest, hreport⟩ := not_not.mp ((rejectIf_eq_ok ..).mp h)
  refine ⟨digest, ?_, hreport⟩
  cases hc : carried.digest env.toTrustEnvironment with
  | error error => simp [hc, Except.toOption] at hdigest
  | ok d =>
      rw [hc] at hdigest
      exact congrArg Except.ok (Option.some.inj hdigest)

/-- The head of the segment is the receipt the run ends with. -/
theorem head_seq {valid : ValidBundle ρ env.toTrustEnvironment} {t : ChainStart}
    (hrun : valid.bundle.segment.foldlM (advanceReceipt env.toReceiptEnvironment) (.genesis g) =
      .ok t) : valid.head.body.seq = t.seq := by
  obtain ⟨front, last, hsplit⟩ := (List.eq_nil_or_concat' _).resolve_left valid.segment_ne_nil
  have hlast : valid.head = last := by
    simp [ValidBundle.head, hsplit]
  rw [hsplit] at hrun
  obtain ⟨m, -, hstep⟩ := foldlM_concat_eq_ok.mp hrun
  rw [hlast, (advanceReceipt_ok hstep).seq']

theorem Passed.verifiedChain {state : TrustState} {pin : TrustPin} {outcome : SegmentOutcome}
    {hvalid : (EvidenceBundle.chain artifact).validate env.toTrustEnvironment = .ok ()}
    (h : Passed env state ⟨.chain artifact, hvalid⟩ pin outcome)
    (hg : pin.genesisRoot env = some g)
    (hfirst : ((EvidenceBundle.chain artifact).segment.head?).map (·.body.seq) = some 1) :
    ∃ root t, VerifiedChain env artifact g root t := by
  set valid : ValidBundle ρ env.toTrustEnvironment := ⟨.chain artifact, hvalid⟩ with hvalidDef
  have hne : (EvidenceBundle.chain artifact).segment ≠ [] := valid.segment_ne_nil
  have hone : valid.first.body.seq = 1 := by
    rw [List.head?_eq_some_head hne] at hfirst
    exact Option.some.inj hfirst
  have hchain := verifySegment_from_genesis hg hone h.segment
  obtain ⟨-, hgenesis, root, t, hroot, hrun, hreport⟩ := verifyReceiptChain_none_eq_ok.mp hchain
  obtain ⟨hnodup, -, hlinks⟩ := checkChainLinks_ok h.links
  -- The pinned root is the digest of the genesis bundle.
  have hpinned : pin.rootFingerprint = root := by
    have hfilter := (Option.filter_eq_some_iff.mp hg).2
    simp only [hroot, Except.toOption, decide_eq_true_eq, Option.some.injEq] at hfilter
    exact hfilter.2.symm
  refine ⟨root, t, hgenesis, hroot, hrun, (chainValidate_ok hvalid).2, ?_, ?_, ?_⟩
  · intro c hc
    rw [(hlinks c hc).1, ← hpinned]
    exact h.root.symm
  · intro c hc receipt hreceipt hseq digest hdigest
    refine presentedLink_linked h.distinct (fun _ => mem_segment) hreceipt hseq ?_ (hlinks c hc).2
    rw [← hseq]
    exact seqDigests_get h.digests h.distinct hreceipt hdigest
  · intro c hc hseq
    have hhead : valid.head.body.seq = c.receiptSeq := (head_seq hrun).trans hseq.symm
    have hcarried : carriedAuthority valid.head.body.seq (.chain artifact) =
        some c.authorization := hhead ▸ carriedAuthority_of_mem hnodup hc
    obtain ⟨digest, hc, ht⟩ := checkCarried_ok hcarried h.carried
    rw [← hreport] at ht
    exact ⟨digest, hc, ht⟩

section Verified

variable {root : String} {t : ChainStart}

/-- The receipts of the run are numbered from 1 to their number. -/
theorem VerifiedChain.presented (h : VerifiedChain env artifact g root t)
    (hmem : checkpoint ∈ artifact.checkpoints) :
    (∃ receipt ∈ artifact.receipts, receipt.body.seq = checkpoint.receiptSeq) ↔
      checkpoint.receiptSeq ≤ artifact.receipts.length := by
  have hlength : (EvidenceBundle.chain artifact).segment.length = artifact.receipts.length :=
    length_segment (.chain artifact)
  obtain ⟨hcount, hseqs⟩ := chain_seq h.run
  have hstart : (ChainStart.genesis g).seq = 0 := rfl
  constructor
  · rintro ⟨receipt, hreceipt, hseq⟩
    have := hseqs receipt (mem_segment.mpr hreceipt)
    omega
  · intro hle
    have hone : 1 ≤ checkpoint.receiptSeq := by
      have hvalid := h.valid checkpoint hmem
      simp only [Checkpoint.validate, bind_eq_ok, rejectIf_eq_ok, exists_const] at hvalid
      exact Nat.le_of_not_lt hvalid.2.2.1
    have hlt : checkpoint.receiptSeq - 1 < (EvidenceBundle.chain artifact).segment.length := by
      omega
    -- The receipt with this sequence stands one place before it.
    have hsplit := (List.take_append_drop (checkpoint.receiptSeq - 1)
      (EvidenceBundle.chain artifact).segment).symm
    rw [List.drop_eq_getElem_cons hlt] at hsplit
    obtain ⟨s, m, hfront, hreceipt, -⟩ := chain_split h.run hsplit
    refine ⟨_, mem_segment.mp (List.getElem_mem hlt), ?_⟩
    rw [(advanceReceipt_ok hreceipt).seq, (chain_seq hfront).1, hstart, List.length_take]
    omega

/-- Where the authority of a checkpoint is compared with that of the chain, it
is the same. -/
theorem VerifiedChain.authority (h : VerifiedChain env artifact g root t)
    (hanchored : artifact.Anchored env.toTrustEnvironment)
    (hcollision : NoCollision env.toTrustEnvironment
      (ComparedBundle env.toReceiptEnvironment g (.chain artifact)))
    (hmem : checkpoint ∈ artifact.checkpoints) {front back : List (SignedReceipt ρ)}
    {s m : ChainStart} (hsplit : (EvidenceBundle.chain artifact).segment = front ++ receipt :: back)
    (hfront : front.foldlM (advanceReceipt env.toReceiptEnvironment) (.genesis g) = .ok s)
    (hreceipt : advanceReceipt env.toReceiptEnvironment s receipt = .ok m)
    (hback : back.foldlM (advanceReceipt env.toReceiptEnvironment) m = .ok t)
    (hseq : receipt.body.seq = checkpoint.receiptSeq) :
    checkpoint.authorization = m.authority := by
  have hadvance := advanceReceipt_ok hreceipt
  have hpresented : receipt ∈ artifact.receipts :=
    mem_segment.mp (hsplit ▸ List.mem_append_right front List.mem_cons_self)
  have hm : ComparedBundle env.toReceiptEnvironment g (.chain artifact) m.authority :=
    .inr ⟨front ++ [receipt], ⟨back, by rw [hsplit, List.append_assoc]; rfl⟩,
      derivedAuthority_eq_ok.mpr ⟨m, foldlM_concat_eq_ok.mpr ⟨s, hfront, hreceipt⟩, rfl⟩⟩
  -- It is enough to find a digest that both of them have.
  suffices ∃ digest, checkpoint.authorization.digest env.toTrustEnvironment = .ok digest ∧
      m.authority.digest env.toTrustEnvironment = .ok digest by
    obtain ⟨digest, hc, hd⟩ := this
    exact hcollision _ _ digest (.inl ⟨checkpoint, hmem, rfl⟩) hm hc hd
  cases hreplacement : receipt.body.replacement with
  | none =>
      obtain ⟨_, -, hdigest⟩ := bind_eq_ok.mp hadvance.digest
      have hlinked := h.linked checkpoint hmem receipt hpresented hseq m.head hdigest
      have hsame : m.authority = s.authority := by
        have hnext := hadvance.authority
        rw [nextAuthority, hreplacement] at hnext
        exact (Except.ok.inj hnext).symm
      refine ⟨_, hlinked.authority hreplacement, ?_⟩
      rw [hsame]
      exact hadvance.approved.authorityDigest
  | some new =>
      cases back with
      | nil =>
          obtain rfl : m = t := Except.ok.inj hback
          exact h.head checkpoint hmem (hseq.symm.trans hadvance.seq'.symm)
      | cons next rest =>
          obtain ⟨n, hn, -⟩ := foldlM_cons_eq_ok.mp hback
          have hnext := advanceReceipt_ok hn
          have hnextMem : next ∈ artifact.receipts :=
            mem_segment.mp (hsplit ▸ List.mem_append_right front
              (List.mem_cons_of_mem receipt List.mem_cons_self))
          refine ⟨_, (hanchored checkpoint hmem).2 receipt hpresented next hnextMem hseq
            (by simp [hreplacement]) ?_, hnext.approved.authorityDigest⟩
          rw [hnext.seq, hadvance.seq', hseq]

theorem VerifiedChain.derived (h : VerifiedChain env artifact g root t)
    (hanchored : artifact.Anchored env.toTrustEnvironment)
    (hcollision : NoCollision env.toTrustEnvironment
      (ComparedBundle env.toReceiptEnvironment g (.chain artifact)))
    (hmem : checkpoint ∈ artifact.checkpoints) :
    DerivedCheckpoint env.toReceiptEnvironment g (.chain artifact) checkpoint := by
  obtain ⟨receipt, hpresented, hseq⟩ := (h.presented hmem).mpr (hanchored checkpoint hmem).1
  obtain ⟨front, back, s, m, hsplit, hfront, hreceipt, hback⟩ :=
    run_at (mem_segment.mpr hpresented) h.run
  refine ⟨⟨receipt, hpresented, hseq⟩, m.report root (front ++ [receipt]).length false, ?_, ?_⟩
  · rw [← hseq, hsplit, filter_seq_le hfront hreceipt hback, verifyReceiptChain_none_eq_ok]
    exact ⟨by simp, h.genesis, root, m, h.digest, foldlM_concat_eq_ok.mpr ⟨s, hfront, hreceipt⟩, rfl⟩
  · have hadvance := advanceReceipt_ok hreceipt
    obtain ⟨_, -, hdigest⟩ := bind_eq_ok.mp hadvance.digest
    exact linked_checkpoint hadvance (h.linked checkpoint hmem receipt hpresented hseq _ hdigest)
      (h.valid checkpoint hmem) (h.bound checkpoint hmem)
      (h.authority hanchored hcollision hmem hsplit hfront hreceipt hback hseq)

theorem VerifiedChain.anchored (h : VerifiedChain env artifact g root t)
    (hderived : ∀ checkpoint ∈ artifact.checkpoints,
      DerivedCheckpoint env.toReceiptEnvironment g (.chain artifact) checkpoint) :
    artifact.Anchored env.toTrustEnvironment := by
  intro checkpoint hmem
  obtain ⟨hpresented, report, hreport, hsame⟩ := hderived checkpoint hmem
  refine ⟨(h.presented hmem).mp hpresented, ?_⟩
  intro receipt hreceipt next hnext hseq _ hnextSeq
  obtain ⟨front, back, s, m, hsplit, hfront, hstep, hback⟩ :=
    run_at (mem_segment.mpr hreceipt) h.run
  rw [← hseq, hsplit, filter_seq_le hfront hstep hback, verifyReceiptChain_none_eq_ok] at hreport
  obtain ⟨-, -, root', m', -, hloop, rfl⟩ := hreport
  obtain rfl := Except.ok.inj
    ((foldlM_concat_eq_ok.mpr ⟨s, hfront, hstep⟩).symm.trans hloop)
  -- The next receipt was approved under the authority behind this one.
  obtain ⟨n, hn⟩ := run_next hfront hstep hback (hsplit ▸ mem_segment.mpr hnext)
    (by rw [hseq, hnextSeq])
  have hauthority : checkpoint.authorization = m.authority := by
    rw [← hsame]
    rfl
  rw [hauthority]
  exact (advanceReceipt_ok hn).approved.authorityDigest

end Verified

/-- Of a chain artifact from sequence 1 that verifies under a pinned genesis
bundle, all checkpoints are those of the verified chain exactly if the artifact
is anchored. -/
theorem retained_checkpoints_derived (env : ArtifactEnvironment ρ) (now : ℕ) (input : String)
    (state : TrustState) (opts : VerifyOptions) (pin : TrustPin) (g : TrustBundle)
    (artifact : ChainArtifact ρ) (valid : ValidBundle ρ env.toTrustEnvironment)
    (hpin : state.pin = some pin) (hg : pin.genesisRoot env = some g)
    (hinput : fromJson env input = .ok valid) (hchain : valid.bundle = .chain artifact)
    (hfirst : (valid.bundle.segment.head?).map (·.body.seq) = some 1)
    (hcollision : NoCollision env.toTrustEnvironment
      (ComparedBundle env.toReceiptEnvironment g valid.bundle))
    (hverified : (verifyArtifact env now input state opts).verdict = .verified) :
    (∀ checkpoint ∈ valid.bundle.chainCheckpoints,
        DerivedCheckpoint env.toReceiptEnvironment g valid.bundle checkpoint) ↔
      artifact.Anchored env.toTrustEnvironment := by
  obtain ⟨bundle, hshape⟩ := valid
  obtain rfl : bundle = .chain artifact := hchain
  obtain ⟨valid', pin', outcome, hinput', hpassed, -⟩ := verified_passed hverified
  obtain rfl := Except.ok.inj (hinput.symm.trans hinput')
  obtain rfl := Option.some.inj (hpin.symm.trans hpassed.pinned)
  obtain ⟨root, t, hverifiedChain⟩ := hpassed.verifiedChain hg hfirst
  exact ⟨hverifiedChain.anchored, fun h _ hmem => hverifiedChain.derived h hcollision hmem⟩

end Carried

/-! ### A rotation in the middle of a chain -/

section Sample

/-- The authority behind `sampleRotation`. -/
def sampleRotatedBundle : TrustBundle :=
  { sampleGenesis with
    signerEpoch := 2
    credentials := [(sampleCredential "cred-a" 1).revoke 2, sampleCredential "cred-b" 2] }

/-- An authority that the chain never had. -/
def sampleForeignBundle : TrustBundle :=
  { sampleGenesis with signerEpoch := 2, credentials := [sampleCredential "cred-x" 1] }

def sampleRoot : String := sampleDigest (1 :: textBytes "cred-a")

/-- A checkpoint of the rotation, with the authority it is said to lead to. -/
def sampleCheckpoint (authorization : TrustBundle) : Checkpoint where
  schemaVersion := checkpointSchemaVersion
  workspaceId := "ws-1"
  receiptSeq := 2
  receiptSha256 := sampleDigest [2]
  envelopeDigest := sampleDigest [7]
  envelopeVersion := 1
  effectiveStateDigest := genesisPrev
  initialBundleSha256 := sampleRoot
  authorization := authorization
  verifiedAt := 50

def sampleArtifact (authorization : TrustBundle) : ChainArtifact Unit where
  schemaVersion := evidenceSchemaVersion
  workspaceId := "ws-1"
  trustRootFingerprint := sampleRoot
  receipts := [sampleReceipt 1, sampleRotation, sampleRotated]
  checkpoints := [sampleCheckpoint authorization]
  witness := []

def sampleArtifactEnvironment : ArtifactEnvironment Unit where
  toReceiptEnvironment := sampleReceiptEnvironment
  parseEvidence text :=
    if text = "rotated" then .ok (.chain (sampleArtifact sampleRotatedBundle))
    else if text = "foreign" then .ok (.chain (sampleArtifact sampleForeignBundle))
    else .error (.invalid "evidence must be a JSON object")

def samplePin : TrustPin := ⟨"ws-1", sampleRoot, some sampleGenesis⟩

/-- Only three bundles are compared, and the digests of all three differ. -/
theorem sample_noCollision {authorization : TrustBundle}
    (h : authorization = sampleRotatedBundle ∨ authorization = sampleForeignBundle) :
    NoCollision sampleArtifactEnvironment.toTrustEnvironment
      (ComparedBundle sampleReceiptEnvironment sampleGenesis
        (.chain (sampleArtifact authorization))) := by
  have hcases : ∀ a, ComparedBundle sampleReceiptEnvironment sampleGenesis
      (.chain (sampleArtifact authorization)) a →
      a = sampleGenesis ∨ a = sampleRotatedBundle ∨ a = sampleForeignBundle := by
    rintro a (⟨checkpoint, hmem, rfl⟩ | ⟨front, hfront, hderived⟩)
    · obtain rfl := List.mem_singleton.mp hmem
      exact .inr h
    · have hsegment : (EvidenceBundle.chain (sampleArtifact authorization)).segment =
          [sampleReceipt 1, sampleRotation, sampleRotated] := rfl
      rw [hsegment, ← List.mem_inits] at hfront
      simp only [List.inits, List.map_cons, List.map_nil, List.mem_cons,
        List.not_mem_nil, or_false] at hfront
      rcases hfront with rfl | rfl | rfl | rfl
      · exact .inl (Except.ok.inj hderived).symm
      · exact .inl (Except.ok.inj hderived).symm
      · exact .inr (.inl (Except.ok.inj hderived).symm)
      · exact .inr (.inl (Except.ok.inj hderived).symm)
  intro a b digest ha hb hda hdb
  have hsame := hda.trans hdb.symm
  rcases hcases a ha with rfl | rfl | rfl <;> rcases hcases b hb with rfl | rfl | rfl <;>
    first
      | rfl
      | exact absurd hsame (by decide)

theorem sample_retained_checkpoints_derived :
    (verifyArtifact sampleArtifactEnvironment 50 "rotated" ⟨some samplePin, []⟩ ⟨none⟩).verdict =
        .verified ∧
      DerivedCheckpoint sampleReceiptEnvironment sampleGenesis
        (.chain (sampleArtifact sampleRotatedBundle)) (sampleCheckpoint sampleRotatedBundle) := by
  refine ⟨rfl, ?_⟩
  refine (retained_checkpoints_derived sampleArtifactEnvironment 50 "rotated"
    ⟨some samplePin, []⟩ ⟨none⟩ samplePin sampleGenesis (sampleArtifact sampleRotatedBundle)
    ⟨.chain (sampleArtifact sampleRotatedBundle), rfl⟩ rfl rfl rfl rfl rfl
    (sample_noCollision (.inl rfl)) rfl).mpr ?_ _ List.mem_cons_self
  intro checkpoint hmem
  obtain rfl := List.mem_singleton.mp hmem
  refine ⟨by decide, ?_⟩
  intro receipt _ next hnext _ _ hseq
  simp only [sampleArtifact, List.mem_cons, List.not_mem_nil, or_false] at hnext
  rcases hnext with rfl | rfl | rfl
  · cases hseq
  · cases hseq
  · rfl

/-- The artifact with the foreign authority verifies all the same. -/
theorem foreign_authority_retained :
    samplePin.genesisRoot sampleArtifactEnvironment = some sampleGenesis ∧
      NoCollision sampleArtifactEnvironment.toTrustEnvironment
        (ComparedBundle sampleReceiptEnvironment sampleGenesis
          (.chain (sampleArtifact sampleForeignBundle))) ∧
      (verifyArtifact sampleArtifactEnvironment 50 "foreign" ⟨some samplePin, []⟩ ⟨none⟩).verdict =
        .verified ∧
      sampleCheckpoint sampleForeignBundle ∈
        (EvidenceBundle.chain (sampleArtifact sampleForeignBundle)).chainCheckpoints ∧
      ¬DerivedCheckpoint sampleReceiptEnvironment sampleGenesis
        (.chain (sampleArtifact sampleForeignBundle)) (sampleCheckpoint sampleForeignBundle) := by
  refine ⟨rfl, sample_noCollision (.inr rfl), rfl, List.mem_cons_self, ?_⟩
  rintro ⟨-, report, hreport, hsame⟩
  -- The chain up to the rotation leads to `cred-b`.
  have hrun : verifyReceiptChain sampleReceiptEnvironment
      ((EvidenceBundle.chain (sampleArtifact sampleForeignBundle)).segment.filter
        fun receipt => receipt.body.seq ≤ 2) sampleGenesis none =
      .ok (ChainStart.report ⟨sampleRotatedBundle, 2, sampleDigest [2], sampleDigest [7], 1,
        genesisPrev⟩ sampleRoot 2 false) := rfl
  obtain rfl := Except.ok.inj (hrun.symm.trans hreport)
  have hauthorization := congrArg Checkpoint.authorization hsame
  exact absurd hauthorization (by decide)

end Sample

end Maskura.Policy
