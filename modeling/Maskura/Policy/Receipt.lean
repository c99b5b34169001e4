import Maskura.Policy.Trust

/-!
Approval receipts: what a receipt says, when it is well formed, and when the
authority before it approves it.

What the signed configuration resolves to is of no concern here beyond its
scope and its digest, so it is a type of its own.
-/

namespace Maskura.Policy

open Maskura.Lib
open Maskura.Persistence (Bytes u64Bound)

/-! ### Data -/

inductive ReceiptPurpose
  | pipelineExport
  | policyEnvelope
  | signerAuthority
  deriving DecidableEq, Repr

inductive ReceiptAction
  | activate
  | rollback
  | replaceSigner
  | addSigner
  deriving DecidableEq, Repr

/-- The scope of a resolved configuration, and its destinations and routes. -/
structure EffectiveState (ρ : Type) where
  audience : String
  workspaceId : String
  resolved : ρ

structure ReceiptBody (ρ : Type) where
  schemaVersion : ℕ
  purpose : ReceiptPurpose
  action : ReceiptAction
  audience : String
  workspaceId : String
  effectiveState : EffectiveState ρ
  effectiveStateDigest : String
  envelopeDigest : String
  envelopeVersion : ℕ
  signerEpoch : ℕ
  authorityDigest : String
  seq : ℕ
  prevReceiptSha256 : String
  issuedAt : ℕ
  replacement : Option TrustCredential
  replacedCredentialId : Option String

structure WebAuthnProof where
  credentialId : String
  clientDataJson : String
  authenticatorData : String
  signature : String
  deriving DecidableEq, Repr

structure SignedReceipt (ρ : Type) where
  body : ReceiptBody ρ
  proof : WebAuthnProof
  counterProof : Option WebAuthnProof

inductive ChallengeKind
  | login
  | register
  | envelope
  | receipt
  | signer
  deriving DecidableEq, Repr

structure AssertionExpectation where
  kind : ChallengeKind
  audience : String
  workspaceId : String
  artifactDigest : String
  rpId : String
  origins : List String
  deriving DecidableEq, Repr

/-- The window of a challenge, the part of it that receipts look at. -/
structure ChallengeContext where
  issuedAt : ℕ
  expiresAt : ℕ
  deriving DecidableEq, Repr

def receiptSchemaVersion : ℕ := 3

def genesisPrev : String :=
  "0000000000000000000000000000000000000000000000000000000000000000"

/-- What comes from elsewhere: encodings, the digest of a configuration, and
the check of a signed assertion. -/
structure ReceiptEnvironment (ρ : Type) extends TrustEnvironment where
  /-- `canonical_cbor` of a receipt body. -/
  bodyCbor : ReceiptBody ρ → Except ConfigError Bytes
  /-- `EffectiveState::digest`. -/
  stateDigest : EffectiveState ρ → Except ConfigError String
  /-- `verify_assertion`. -/
  verifyAssertion : WebAuthnProof → AssertionExpectation → CoseEs256Key →
    Except ConfigError ChallengeContext

variable {ρ : Type}

/-! ### Well-formed bodies -/

section Validate

variable (env : ReceiptEnvironment ρ)

/-- The fields of a signer transition. -/
def ReceiptBody.validateTransition (self : ReceiptBody ρ) : Except ConfigError Unit := do
  let next := self.signerEpoch + 1
  rejectIf (next ≥ u64Bound) (.invalid "authorization epoch overflow")
  let replacement ← okOr self.replacement
    (.invalid "signer transition requires replacement authority")
  rejectIf (self.action = .replaceSigner ∧ ∀ id ∈ self.replacedCredentialId, isBlank id = true)
    (.invalid "signer transition must identify the retired credential")
  rejectIf (self.action = .addSigner ∧ self.replacedCredentialId.isSome = true)
    (.invalid "authority addition must not retire a credential")
  let _ ← replacement.parsedKey env.toTrustEnvironment
  rejectIf (isBlank replacement.credentialId = true ∨ isBlank replacement.label = true ∨
      replacement.status ≠ .active ∨ replacement.revokedEpoch.isSome = true ∨
      replacement.authorizedFromEpoch ≠ next)
    (.invalid "invalid replacement authority or successor epoch")

def ReceiptBody.validateAction (self : ReceiptBody ρ) : Except ConfigError Unit :=
  let plain := self.replacement.isNone ∧ self.replacedCredentialId.isNone
  match self.purpose, self.action with
  | .pipelineExport, .activate | .pipelineExport, .rollback | .policyEnvelope, .activate =>
      rejectIf (¬plain) (.invalid "invalid receipt purpose/action/fields")
  | .signerAuthority, .replaceSigner | .signerAuthority, .addSigner => self.validateTransition env
  | _, _ => .error (.invalid "invalid receipt purpose/action/fields")

def ReceiptBody.validate (self : ReceiptBody ρ) : Except ConfigError Unit := do
  rejectIf ((self.schemaVersion ≠ 2 ∧ self.schemaVersion ≠ receiptSchemaVersion) ∨
      (self.action = .addSigner ∧ self.schemaVersion ≠ receiptSchemaVersion) ∨
      self.seq = 0 ∨ self.signerEpoch = 0 ∨ self.envelopeVersion = 0)
    (.invalid "unsupported receipt version or zero sequence/epoch/version")
  rejectIf (isBlank self.workspaceId = true ∨ isBlank self.audience = true ∨
      self.effectiveState.workspaceId ≠ self.workspaceId ∨
      self.effectiveState.audience ≠ self.audience)
    (.invalid "receipt and effective-state scopes must match")
  rejectIf (isHex64 self.effectiveStateDigest = false ∨ isHex64 self.envelopeDigest = false ∨
      isHex64 self.authorityDigest = false ∨ isHex64 self.prevReceiptSha256 = false)
    (.invalid "receipt digests must be lowercase SHA-256 hex")
  let digest ← env.stateDigest self.effectiveState
  rejectIf (digest ≠ self.effectiveStateDigest)
    (.invalid "effective-state digest does not match resolved state")
  self.validateAction env

def ReceiptBody.receiptDigest (self : ReceiptBody ρ) : Except ConfigError String := do
  self.validate env
  digestOf env.sha256 (env.bodyCbor self)

end Validate

def ReceiptBody.challengeKind (self : ReceiptBody ρ) : ChallengeKind :=
  match self.purpose with
  | .policyEnvelope => .envelope
  | .pipelineExport => .receipt
  | .signerAuthority => .signer

/-! ### Approval -/

section Verify

variable (env : ReceiptEnvironment ρ)

def verifyApproval (proof : WebAuthnProof) (expected : AssertionExpectation) (key : CoseEs256Key)
    (issuedAt : ℕ) : Except ConfigError Unit := do
  let context ← env.verifyAssertion proof expected key
  rejectIf (context.issuedAt > issuedAt ∨ issuedAt ≥ context.expiresAt)
    (.approval "receipt timestamp outside challenge window")

/-- No credential of the bundle has this key. -/
def rejectKnownKey (key : CoseEs256Key) : List TrustCredential → Except ConfigError Unit
  | [] => .ok ()
  | credential :: rest => do
      let known ← credential.parsedKey env.toTrustEnvironment
      rejectIf (known = key) (.approval "replacement must use a new public key")
      rejectKnownKey key rest

/-- A credential that is replaced is part of the current authority. -/
def checkRetired (body : ReceiptBody ρ) (authority : TrustBundle) : Except ConfigError Unit :=
  match body.action with
  | .replaceSigner => do
      let retired ← okOr body.replacedCredentialId (.approval "missing retired credential")
      let standing ← authority.authorize env.toTrustEnvironment retired body.signerEpoch
      rejectIf (standing ≠ .current)
        (.approval "retired credential is not in the current authority")
  | _ => .ok ()

/-- The part of `verify_receipt` about a new credential. -/
def verifyReplacement (receipt : SignedReceipt ρ) (authority : TrustBundle)
    (expected : AssertionExpectation) (replacement : TrustCredential) :
    Except ConfigError Unit := do
  checkRetired env receipt.body authority
  let counter ← okOr receipt.counterProof (.approval "replacement requires counter-proof")
  rejectIf (counter.credentialId ≠ replacement.credentialId ∨
      counter.credentialId = receipt.proof.credentialId ∨
      ∃ c ∈ authority.credentials, c.credentialId = replacement.credentialId)
    (.approval "counter-proof must match the exact new credential")
  let newKey ← replacement.parsedKey env.toTrustEnvironment
  rejectKnownKey env newKey authority.credentials
  verifyApproval env counter expected newKey receipt.body.issuedAt

def verifyCounter (receipt : SignedReceipt ρ) (authority : TrustBundle)
    (expected : AssertionExpectation) : Except ConfigError Unit :=
  match receipt.body.replacement with
  | some replacement => verifyReplacement env receipt authority expected replacement
  | none => rejectIf (receipt.counterProof.isSome = true) (.approval "unexpected counter-proof")

/-- Verify a receipt against the authority before it. -/
def verifyReceipt (receipt : SignedReceipt ρ) (authority : TrustBundle) :
    Except ConfigError ReceiptStanding := do
  authority.validate env.toTrustEnvironment
  let body := receipt.body
  body.validate env
  rejectIf (body.workspaceId ≠ authority.workspaceId ∨ body.audience ≠ authority.audience ∨
      body.signerEpoch ≠ authority.signerEpoch)
    (.approval "receipt does not extend the trusted authorization state")
  let digest ← authority.digest env.toTrustEnvironment
  rejectIf (body.authorityDigest ≠ digest)
    (.approval "receipt does not extend the trusted authorization state")
  let standing ← authority.authorize env.toTrustEnvironment receipt.proof.credentialId
    body.signerEpoch
  rejectIf (standing ≠ .current) (.approval "approver is not currently authorized")
  let artifactDigest ← body.receiptDigest env
  let expected : AssertionExpectation :=
    ⟨body.challengeKind, body.audience, body.workspaceId, artifactDigest, authority.rpId,
      authority.origins⟩
  let (_, key) ← authority.lookup env.toTrustEnvironment receipt.proof.credentialId
  verifyApproval env receipt.proof expected key body.issuedAt
  verifyCounter env receipt authority expected
  return .current

end Verify

/-! ### What an accepted receipt says -/

section Spec

variable {env : ReceiptEnvironment ρ} {body : ReceiptBody ρ} {receipt : SignedReceipt ρ}
  {authority : TrustBundle}

/-- A receipt that the authority before it approved. -/
structure Approved (env : ReceiptEnvironment ρ) (receipt : SignedReceipt ρ)
    (authority : TrustBundle) : Prop where
  authorityValid : authority.validate env.toTrustEnvironment = .ok ()
  bodyValid : receipt.body.validate env = .ok ()
  workspaceId : receipt.body.workspaceId = authority.workspaceId
  audience : receipt.body.audience = authority.audience
  epoch : receipt.body.signerEpoch = authority.signerEpoch
  authorityDigest :
    authority.digest env.toTrustEnvironment = .ok receipt.body.authorityDigest
  approver : authority.authorize env.toTrustEnvironment receipt.proof.credentialId
    receipt.body.signerEpoch = .ok .current
  counter : ∃ expected, verifyCounter env receipt authority expected = .ok ()

theorem verifyReceipt_ok {standing : ReceiptStanding}
    (h : verifyReceipt env receipt authority = .ok standing) :
    standing = .current ∧ Approved env receipt authority := by
  simp only [verifyReceipt, bind_eq_ok, rejectIf_eq_ok, exists_const, pure_eq_ok] at h
  obtain ⟨_, hauthority, _, hbody, hscope, digest, hdigest, hsame, standing', happrover, hcurrent,
    artifactDigest, -, ⟨-, key⟩, -, _, -, _, hcounter, rfl⟩ := h
  obtain ⟨hworkspace, hrest⟩ := not_or.mp hscope
  obtain ⟨haudience, hepoch⟩ := not_or.mp hrest
  obtain rfl := not_not.mp hsame
  obtain rfl := not_not.mp hcurrent
  exact ⟨rfl, hauthority, hbody, not_not.mp hworkspace, not_not.mp haudience, not_not.mp hepoch,
    hdigest, happrover, _, hcounter⟩

/-- The fields of a well-formed body. -/
structure WellFormed (env : ReceiptEnvironment ρ) (body : ReceiptBody ρ) : Prop where
  seq : body.seq ≠ 0
  version : body.envelopeVersion ≠ 0
  state : isHex64 body.effectiveStateDigest = true
  envelope : isHex64 body.envelopeDigest = true
  action : body.validateAction env = .ok ()

theorem validate_ok (h : body.validate env = .ok ()) : WellFormed env body := by
  simp only [ReceiptBody.validate, bind_eq_ok, rejectIf_eq_ok, exists_const] at h
  obtain ⟨hversion, -, hhex, digest, -, -, haction⟩ := h
  simp only [not_or, Bool.not_eq_false] at hversion hhex
  exact ⟨hversion.2.2.1, hversion.2.2.2.2, hhex.1, hhex.2.1, haction⟩

end Spec

end Maskura.Policy
