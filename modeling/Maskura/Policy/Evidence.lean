import Maskura.Lib.Fold
import Maskura.Policy.Receipt
import Mathlib.Data.List.Sort

/-!
The artifacts a customer exports: one approval with its checkpoint, or a whole
receipt chain with the checkpoints along it. Here is their shape, and how the
checkpoints an artifact carries hang together with the receipts it presents.
-/

namespace Maskura.Policy

open Maskura.Lib
open Maskura.Persistence (Bytes u64Bound)

variable {ρ : Type}

/-! ### Data -/

structure ApprovalEvidence where
  proof : WebAuthnProof
  coseAlg : ℤ
  deriving DecidableEq, Repr

structure WitnessAcknowledgement where
  witnessId : String
  acknowledgedAt : ℕ
  receiptSha256 : String
  signature : String
  deriving DecidableEq, Repr

structure EvidenceArtifact (ρ : Type) where
  schemaVersion : ℕ
  workspaceId : String
  trustRootFingerprint : String
  receipt : SignedReceipt ρ
  checkpoint : Checkpoint
  approval : ApprovalEvidence
  chainTail : List (SignedReceipt ρ)
  witness : List WitnessAcknowledgement

structure ChainArtifact (ρ : Type) where
  schemaVersion : ℕ
  workspaceId : String
  trustRootFingerprint : String
  receipts : List (SignedReceipt ρ)
  checkpoints : List Checkpoint
  witness : List WitnessAcknowledgement

inductive EvidenceBundle (ρ : Type)
  | evidence (artifact : EvidenceArtifact ρ)
  | chain (artifact : ChainArtifact ρ)

inductive EvidenceKind
  | evidence
  | chain
  deriving DecidableEq, Repr

def evidenceSchemaVersion : ℕ := 1
def maxChainTail : ℕ := 64
def maxChainReceipts : ℕ := 4096
def maxChainCheckpoints : ℕ := 4096
def maxWitnessRecords : ℕ := 64
def maxEvidenceJsonLen : ℕ := 16 * 1024 * 1024

namespace EvidenceBundle

def kind : EvidenceBundle ρ → EvidenceKind
  | .evidence _ => .evidence
  | .chain _ => .chain

def workspaceId : EvidenceBundle ρ → String
  | .evidence artifact => artifact.workspaceId
  | .chain artifact => artifact.workspaceId

def trustRootFingerprint : EvidenceBundle ρ → String
  | .evidence artifact => artifact.trustRootFingerprint
  | .chain artifact => artifact.trustRootFingerprint

def receipts : EvidenceBundle ρ → List (SignedReceipt ρ)
  | .evidence artifact => artifact.chainTail ++ [artifact.receipt]
  | .chain artifact => artifact.receipts

def witness : EvidenceBundle ρ → List WitnessAcknowledgement
  | .evidence artifact => artifact.witness
  | .chain artifact => artifact.witness

/-- The checkpoints that are retained once the artifact is verified. -/
def chainCheckpoints : EvidenceBundle ρ → List Checkpoint
  | .evidence artifact => [artifact.checkpoint]
  | .chain artifact => artifact.checkpoints

/-- The presented receipts, in ascending order. -/
def segment (self : EvidenceBundle ρ) : List (SignedReceipt ρ) :=
  self.receipts.insertionSort fun a b => a.body.seq ≤ b.body.seq

end EvidenceBundle

/-! ### Shape -/

def requireScope (workspaceId trustRootFingerprint : String) : Except ConfigError Unit := do
  rejectIf (isBlank workspaceId = true) (.invalid "evidence workspace_id must not be empty")
  rejectIf (isHex64 trustRootFingerprint = false)
    (.invalid "evidence trust_root_fingerprint must be 64 lowercase hex")

def validateWitness (record : WitnessAcknowledgement) : Except ConfigError Unit := do
  rejectIf (isBlank record.witnessId = true)
    (.invalid "witness acknowledgement witness_id must not be empty")
  rejectIf (isHex64 record.receiptSha256 = false)
    (.invalid "witness acknowledgement receipt_sha256 must be 64 lowercase hex")
  rejectIf (record.signature.utf8ByteSize > 16384)
    (.invalid "witness acknowledgement signature exceeds size limit")

/-- The head and the tail of both validations. -/
def validateVersion (schemaVersion : ℕ) : Except ConfigError Unit :=
  rejectIf (schemaVersion ≠ evidenceSchemaVersion)
    (.invalid ("unsupported evidence schema_version " ++ toString schemaVersion ++ "; expected " ++
      toString evidenceSchemaVersion))

def validateWitnesses (records : List WitnessAcknowledgement) : Except ConfigError Unit := do
  rejectIf (records.length > maxWitnessRecords)
    (.invalid ("evidence witness records exceed " ++ toString maxWitnessRecords))
  records.forM validateWitness

section Validate

variable (env : TrustEnvironment)

def EvidenceArtifact.validate (self : EvidenceArtifact ρ) : Except ConfigError Unit := do
  validateVersion self.schemaVersion
  requireScope self.workspaceId self.trustRootFingerprint
  self.checkpoint.validate env
  rejectIf (self.chainTail.length > maxChainTail)
    (.invalid ("evidence chain_tail exceeds " ++ toString maxChainTail ++ " receipts"))
  rejectIf (self.approval.coseAlg ≠ -7)
    (.invalid ("approval evidence cose_alg " ++ toString self.approval.coseAlg ++
      " must be -7 (ES256)"))
  validateWitnesses self.witness

def ChainArtifact.validate (self : ChainArtifact ρ) : Except ConfigError Unit := do
  validateVersion self.schemaVersion
  requireScope self.workspaceId self.trustRootFingerprint
  rejectIf (self.receipts = [] ∨ self.receipts.length > maxChainReceipts)
    (.invalid ("chain export must carry 1..=" ++ toString maxChainReceipts ++ " receipts"))
  rejectIf (self.checkpoints.length > maxChainCheckpoints)
    (.invalid ("chain export checkpoints exceed " ++ toString maxChainCheckpoints))
  self.checkpoints.forM fun checkpoint => checkpoint.validate env
  validateWitnesses self.witness

def EvidenceBundle.validate : EvidenceBundle ρ → Except ConfigError Unit
  | .evidence artifact => artifact.validate env
  | .chain artifact => artifact.validate env

end Validate

theorem chainValidate_ok {env : TrustEnvironment} {artifact : ChainArtifact ρ}
    (h : artifact.validate env = .ok ()) :
    artifact.receipts ≠ [] ∧ ∀ checkpoint ∈ artifact.checkpoints, checkpoint.validate env = .ok () := by
  simp only [ChainArtifact.validate, bind_eq_ok, rejectIf_eq_ok, exists_const] at h
  obtain ⟨_, -, _, -, hreceipts, -, _, hcheckpoints, -⟩ := h
  exact ⟨(not_or.mp hreceipts).1, forM_eq_ok.mp hcheckpoints⟩

/-- An artifact with a valid shape, which `EvidenceBundle::from_json` gives. -/
structure ValidBundle (ρ : Type) (env : TrustEnvironment) where
  bundle : EvidenceBundle ρ
  valid : bundle.validate env = .ok ()

/-- A valid artifact presents a receipt. -/
theorem ValidBundle.receipts_ne_nil {env : TrustEnvironment} (self : ValidBundle ρ env) :
    self.bundle.receipts ≠ [] := by
  obtain ⟨artifact | artifact, hvalid⟩ := self
  · simp [EvidenceBundle.receipts]
  · exact (chainValidate_ok hvalid).1

theorem ValidBundle.segment_ne_nil {env : TrustEnvironment} (self : ValidBundle ρ env) :
    self.bundle.segment ≠ [] := by
  intro h
  have hperm := List.perm_insertionSort
    (fun a b : SignedReceipt ρ => a.body.seq ≤ b.body.seq) self.bundle.receipts
  rw [EvidenceBundle.segment] at h
  rw [h] at hperm
  exact self.receipts_ne_nil hperm.nil_eq.symm

def ValidBundle.first {env : TrustEnvironment} (self : ValidBundle ρ env) : SignedReceipt ρ :=
  self.bundle.segment.head self.segment_ne_nil

def ValidBundle.head {env : TrustEnvironment} (self : ValidBundle ρ env) : SignedReceipt ρ :=
  self.bundle.segment.getLast self.segment_ne_nil

/-! ### Carried checkpoints -/

/-- The digests of the presented receipts, by sequence. -/
abbrev SeqDigests := List (ℕ × String)

def SeqDigests.get (self : SeqDigests) (seq : ℕ) : Option String := self.lookup seq

section Links

variable (env : TrustEnvironment)

/-- Unless the receipt changes the signers, the authority behind it is the one
that it extends. -/
def checkCarriedAuthority (checkpoint : Checkpoint) (body : ReceiptBody ρ) :
    Except ConfigError Unit :=
  if body.replacement.isNone then
    match checkpoint.authorization.digest env with
    | .error error => .error (.invalid ("carried authority invalid: " ++ error.display))
    | .ok carried =>
        rejectIf (carried ≠ body.authorityDigest)
          (.invalid
            "checkpoint authorization does not match the receipt's pre-activation authority")
  else .ok ()

def checkCheckpointLink (checkpoint : Checkpoint) (receipt : SignedReceipt ρ)
    (receiptDigest workspaceId fingerprint : String) : Except ConfigError Unit := do
  rejectIf (checkpoint.workspaceId ≠ workspaceId)
    (.invalid "checkpoint workspace does not match the container workspace")
  rejectIf (checkpoint.initialBundleSha256 ≠ fingerprint)
    (.invalid "checkpoint initial_bundle_sha256 does not match trust_root_fingerprint")
  rejectIf (checkpoint.receiptSeq ≠ receipt.body.seq)
    (.invalid ("checkpoint receipt_seq " ++ toString checkpoint.receiptSeq ++
      " does not match the landed receipt seq " ++ toString receipt.body.seq))
  rejectIf (checkpoint.receiptSha256 ≠ receiptDigest)
    (.invalid "checkpoint receipt_sha256 does not match the landed receipt digest")
  rejectIf (checkpoint.envelopeDigest ≠ receipt.body.envelopeDigest ∨
      checkpoint.envelopeVersion ≠ receipt.body.envelopeVersion ∨
      checkpoint.effectiveStateDigest ≠ receipt.body.effectiveStateDigest)
    (.invalid "checkpoint envelope/effective-state fields do not match the landed receipt")
  checkCarriedAuthority env checkpoint receipt.body

/-- A checkpoint whose receipt is not presented passes. -/
def checkPresentedLink (segment : List (SignedReceipt ρ)) (digests : SeqDigests)
    (workspaceId fingerprint : String) (checkpoint : Checkpoint) : Except ConfigError Unit :=
  match segment.find? fun receipt => receipt.body.seq = checkpoint.receiptSeq with
  | some receipt =>
      checkCheckpointLink env checkpoint receipt ((digests.get checkpoint.receiptSeq).getD "")
        workspaceId fingerprint
  | none => .ok ()

def checkChainLinks (segment : List (SignedReceipt ρ)) (digests : SeqDigests)
    (workspaceId fingerprint : String) :
    (seen : List ℕ) → List Checkpoint → Except ConfigError Unit
  | _, [] => .ok ()
  | seen, checkpoint :: rest => do
      rejectIf (checkpoint.workspaceId ≠ workspaceId)
        (.invalid ("checkpoint " ++ toString checkpoint.receiptSeq ++
          " workspace does not match the container workspace"))
      rejectIf (checkpoint.initialBundleSha256 ≠ fingerprint)
        (.invalid ("checkpoint " ++ toString checkpoint.receiptSeq ++
          " is not bound to the declared trust root"))
      rejectIf (checkpoint.receiptSeq ∈ seen)
        (.invalid ("chain export carries duplicate checkpoint for seq " ++
          toString checkpoint.receiptSeq))
      checkPresentedLink env segment digests workspaceId fingerprint checkpoint
      checkChainLinks segment digests workspaceId fingerprint (checkpoint.receiptSeq :: seen) rest

def checkContainerLinks (bundle : EvidenceBundle ρ) (segment : List (SignedReceipt ρ))
    (head : SignedReceipt ρ) (digests : SeqDigests) : Except ConfigError Unit :=
  match bundle with
  | .evidence artifact =>
      checkCheckpointLink env artifact.checkpoint head ((digests.get head.body.seq).getD "")
        artifact.workspaceId artifact.trustRootFingerprint
  | .chain artifact =>
      checkChainLinks env segment digests artifact.workspaceId artifact.trustRootFingerprint []
        artifact.checkpoints

end Links

/-- The authority the artifact claims to hold behind its head. -/
def carriedAuthority (headSeq : ℕ) : EvidenceBundle ρ → Option TrustBundle
  | .evidence artifact =>
      if artifact.checkpoint.receiptSeq = headSeq then some artifact.checkpoint.authorization
      else none
  | .chain artifact =>
      (artifact.checkpoints.find? fun checkpoint => checkpoint.receiptSeq = headSeq).map
        (·.authorization)

def approvalMatches (approval : ApprovalEvidence) (proof : WebAuthnProof) :
    Except ConfigError Unit := do
  rejectIf (approval.coseAlg ≠ -7)
    (.invalid ("approval evidence cose_alg " ++ toString approval.coseAlg ++
      " must be -7 (ES256)"))
  rejectIf (approval.proof ≠ proof)
    (.invalid ("approval evidence does not match the landed receipt's assertion " ++
      "(credential id, clientDataJSON, authenticator data, or signature differs)"))

/-! ### What the links say -/

section Spec

variable {env : TrustEnvironment} {checkpoint : Checkpoint} {receipt : SignedReceipt ρ}
  {receiptDigest workspaceId fingerprint : String}

/-- A checkpoint that agrees with its receipt. -/
structure Linked (env : TrustEnvironment) (checkpoint : Checkpoint) (receipt : SignedReceipt ρ)
    (receiptDigest : String) : Prop where
  seq : checkpoint.receiptSeq = receipt.body.seq
  digest : checkpoint.receiptSha256 = receiptDigest
  envelopeDigest : checkpoint.envelopeDigest = receipt.body.envelopeDigest
  envelopeVersion : checkpoint.envelopeVersion = receipt.body.envelopeVersion
  state : checkpoint.effectiveStateDigest = receipt.body.effectiveStateDigest
  authority : receipt.body.replacement = none →
    checkpoint.authorization.digest env = .ok receipt.body.authorityDigest

theorem checkCheckpointLink_ok
    (h : checkCheckpointLink env checkpoint receipt receiptDigest workspaceId fingerprint =
      .ok ()) :
    Linked env checkpoint receipt receiptDigest := by
  simp only [checkCheckpointLink, bind_eq_ok, rejectIf_eq_ok, exists_const, not_not, ne_eq,
    not_or] at h
  obtain ⟨-, -, hseq, hdigest, ⟨henvelope, hversion, hstate⟩, hauthority⟩ := h
  refine ⟨hseq, hdigest, henvelope, hversion, hstate, fun hnone => ?_⟩
  rw [checkCarriedAuthority, if_pos (by simp [hnone])] at hauthority
  split at hauthority
  case h_1 => cases hauthority
  case h_2 carried hcarried =>
    rw [hcarried, not_not.mp ((rejectIf_eq_ok ..).mp hauthority)]

theorem checkChainLinks_ok {segment : List (SignedReceipt ρ)} {digests : SeqDigests}
    {seen : List ℕ} {checkpoints : List Checkpoint}
    (h : checkChainLinks env segment digests workspaceId fingerprint seen checkpoints = .ok ()) :
    (checkpoints.map (·.receiptSeq)).Nodup ∧ (∀ c ∈ checkpoints, c.receiptSeq ∉ seen) ∧
      ∀ c ∈ checkpoints, c.initialBundleSha256 = fingerprint ∧
        checkPresentedLink env segment digests workspaceId fingerprint c = .ok () := by
  induction checkpoints generalizing seen with
  | nil => simp
  | cons checkpoint rest ih =>
      simp only [checkChainLinks, bind_eq_ok, rejectIf_eq_ok, exists_const, not_not, ne_eq] at h
      obtain ⟨-, hroot, hseen, _, hlink, hrest⟩ := h
      obtain ⟨hnodup, hfresh, hlinks⟩ := ih hrest
      refine ⟨List.nodup_cons.mpr ⟨?_, hnodup⟩, ?_, ?_⟩
      · intro hmem
        obtain ⟨c, hc, hseq⟩ := List.mem_map.mp hmem
        exact hfresh c hc (hseq ▸ List.mem_cons_self)
      · intro c hc
        rcases List.mem_cons.mp hc with rfl | hc
        · exact hseen
        · exact fun h => hfresh c hc (List.mem_cons_of_mem _ h)
      · intro c hc
        rcases List.mem_cons.mp hc with rfl | hc
        · exact ⟨hroot, hlink⟩
        · exact hlinks c hc

end Spec

end Maskura.Policy
