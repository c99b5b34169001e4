import Maskura.Policy.Canonical

/-!
The trust material a customer keeps: the bundle of approval credentials of a
workspace, and checkpoints of its receipt chain.
-/

namespace Maskura.Policy

open Maskura.Lib
open Maskura.Persistence (Bytes u64Bound)

/-! ### Data -/

inductive CredentialStatus
  | active
  | revoked
  deriving DecidableEq, Repr

structure TrustCredential where
  credentialId : String
  label : String
  alg : ℤ
  cosePublicKey : String
  status : CredentialStatus
  authorizedFromEpoch : ℕ
  revokedEpoch : Option ℕ
  deriving DecidableEq, Repr

structure TrustReset where
  epoch : ℕ
  recordedAt : ℕ
  reason : String
  deriving DecidableEq, Repr

structure TrustBundle where
  schemaVersion : ℕ
  workspaceId : String
  rpId : String
  origins : List String
  audience : String
  signerEpoch : ℕ
  credentials : List TrustCredential
  trustResets : List TrustReset
  deriving DecidableEq, Repr

structure Checkpoint where
  schemaVersion : ℕ
  workspaceId : String
  receiptSeq : ℕ
  receiptSha256 : String
  envelopeDigest : String
  envelopeVersion : ℕ
  effectiveStateDigest : String
  initialBundleSha256 : String
  authorization : TrustBundle
  verifiedAt : ℕ
  deriving DecidableEq, Repr

structure CoseEs256Key where
  x : Bytes
  y : Bytes
  deriving DecidableEq, Repr

/-- What `url::Url` shows of an origin. -/
structure Url where
  scheme : String
  origin : String
  host : Option String
  deriving DecidableEq, Repr

def trustBundleSchemaVersion : ℕ := 1

def checkpointSchemaVersion : ℕ := 2

/-- Credential validity relative to an epoch. -/
inductive ReceiptStanding
  | current
  | historical
  deriving DecidableEq, Repr

/-- What comes from other crates: encodings, keys, URLs, and how Rust shows a
string. -/
structure TrustEnvironment where
  sha256 : Sha256
  /-- `canonical_cbor` of a bundle. -/
  bundleCbor : TrustBundle → Except ConfigError Bytes
  /-- `BASE64URL.decode`. -/
  base64 : String → Option Bytes
  /-- `CoseEs256Key::parse_cose`. -/
  parseCose : Bytes → Except ConfigError CoseEs256Key
  /-- `url::Url::parse`. -/
  parseUrl : String → Option Url
  /-- The text of a string under `Debug`. -/
  debug : String → String

/-! ### Validation -/

section Validate

variable (env : TrustEnvironment)

def TrustCredential.parsedKey (self : TrustCredential) : Except ConfigError CoseEs256Key := do
  rejectIf (self.alg ≠ -7 ∨ self.cosePublicKey.utf8ByteSize > 5464)
    (.invalid "credential must contain a bounded ES256 key")
  let raw ← okOr (env.base64 self.cosePublicKey) (.invalid "credential key is not base64url")
  env.parseCose raw

def validateOrigin (rpId origin : String) : Except ConfigError Unit := do
  let url ← okOr (env.parseUrl origin) (.invalid "invalid trust origin")
  rejectIf (url.scheme ≠ "https" ∨ url.origin ≠ origin ∨
      ∀ host ∈ url.host, host ≠ rpId ∧ ¬("." ++ rpId).toList <:+ host.toList)
    (.invalid "trust origin must be an exact HTTPS origin scoped to the RP")

def validateOrigins (rpId : String) : List String → Except ConfigError Unit
  | [] => .ok ()
  | origin :: rest => do
      validateOrigin env rpId origin
      validateOrigins rpId rest

/-- A credential is revoked exactly if it says since when. -/
def validateStatus (signerEpoch : ℕ) (credential : TrustCredential) : Except ConfigError Unit :=
  match credential.status with
  | .active =>
      rejectIf (credential.revokedEpoch.isSome = true)
        (.invalid "active credentials must not carry revoked_epoch")
  | .revoked => do
      let revoked ← okOr credential.revokedEpoch
        (.invalid "revoked credentials require revoked_epoch")
      rejectIf (revoked ≤ credential.authorizedFromEpoch)
        (.invalid "revoked_epoch must be greater than authorized_from_epoch")
      rejectIf (revoked > signerEpoch) (.invalid "revocation exceeds bundle epoch")

/-- The checks of one credential in a bundle of this epoch, behind the ids
`seen` of those before it. -/
def validateCredential (signerEpoch : ℕ) (seen : List String) (credential : TrustCredential) :
    Except ConfigError Unit := do
  let _ ← credential.parsedKey env
  rejectIf (isBlank credential.credentialId = true)
    (.invalid "trust bundle credential_id must not be empty")
  rejectIf (credential.credentialId ∈ seen)
    (.invalid ("trust bundle contains duplicate credential " ++ env.debug credential.credentialId))
  rejectIf (credential.alg ≠ -7)
    (.invalid ("trust bundle credential alg " ++ toString credential.alg ++
      " must be -7 (ES256) in v1"))
  rejectIf (isBlank credential.label = true)
    (.invalid "trust bundle credential label must not be empty")
  rejectIf (credential.authorizedFromEpoch < 1)
    (.invalid "credential authorized_from_epoch must be >= 1")
  validateStatus signerEpoch credential
  rejectIf (credential.authorizedFromEpoch > signerEpoch)
    (.invalid ("credential " ++ env.debug credential.credentialId ++
      " is authorized after the bundle's signer_epoch"))

def validateCredentials (signerEpoch : ℕ) :
    (seen : List String) → List TrustCredential → Except ConfigError Unit
  | _, [] => .ok ()
  | seen, credential :: rest => do
      validateCredential env signerEpoch seen credential
      validateCredentials signerEpoch (credential.credentialId :: seen) rest

def validateResets : List TrustReset → Except ConfigError Unit
  | [] => .ok ()
  | reset :: rest => do
      rejectIf (isBlank reset.reason = true) (.invalid "trust reset reason must not be empty")
      rejectIf (reset.epoch < 1) (.invalid "trust reset epoch must be >= 1")
      validateResets rest

def TrustBundle.validate (self : TrustBundle) : Except ConfigError Unit := do
  rejectIf (self.schemaVersion ≠ trustBundleSchemaVersion)
    (.invalid ("unsupported trust bundle schema_version " ++ toString self.schemaVersion ++
      "; expected " ++ toString trustBundleSchemaVersion))
  rejectIf (isBlank self.workspaceId = true)
    (.invalid "trust bundle workspace_id must not be empty")
  rejectIf (isBlank self.rpId = true) (.invalid "trust bundle rp_id must not be empty")
  rejectIf (self.origins = []) (.invalid "trust bundle origins must not be empty")
  validateOrigins env self.rpId self.origins
  rejectIf (isBlank self.audience = true) (.invalid "trust bundle audience must not be empty")
  rejectIf (self.signerEpoch < 1) (.invalid "trust bundle signer_epoch must be >= 1")
  validateCredentials env self.signerEpoch [] self.credentials
  validateResets self.trustResets

def TrustBundle.digest (self : TrustBundle) : Except ConfigError String := do
  self.validate env
  digestOf env.sha256 (env.bundleCbor self)

/-- Resolve a credential by id, with its key. -/
def TrustBundle.lookup (self : TrustBundle) (credentialId : String) :
    Except ConfigError (TrustCredential × CoseEs256Key) := do
  self.validate env
  let credential ← okOr (self.credentials.find? fun c => c.credentialId = credentialId)
    (.approval ("credential not in bundle (unknown or pre-reset): " ++ credentialId))
  let key ← credential.parsedKey env
  return (credential, key)

def checkRevocation (credential : TrustCredential) (epoch : ℕ) : Except ConfigError Unit :=
  match credential.revokedEpoch with
  | none => .ok ()
  | some revoked =>
      rejectIf (epoch ≥ revoked)
        (.approval ("credential " ++ credential.credentialId ++ " was revoked at epoch " ++
          toString revoked))

def TrustBundle.authorize (self : TrustBundle) (credentialId : String) (epoch : ℕ) :
    Except ConfigError ReceiptStanding := do
  let (credential, _) ← self.lookup env credentialId
  rejectIf (epoch > self.signerEpoch)
    (.approval ("receipt signer_epoch " ++ toString epoch ++ " exceeds the bundle signer_epoch " ++
      toString self.signerEpoch))
  rejectIf (epoch < credential.authorizedFromEpoch)
    (.approval ("credential " ++ credentialId ++ " was not authorized at epoch " ++
      toString epoch))
  checkRevocation credential epoch
  return if credential.status = .active ∧ epoch = self.signerEpoch then .current else .historical

def Checkpoint.validate (self : Checkpoint) : Except ConfigError Unit := do
  rejectIf (self.schemaVersion ≠ checkpointSchemaVersion)
    (.invalid ("unsupported checkpoint schema_version " ++ toString self.schemaVersion ++
      "; expected " ++ toString checkpointSchemaVersion))
  rejectIf (isBlank self.workspaceId = true) (.invalid "checkpoint workspace_id must not be empty")
  rejectIf (self.receiptSeq < 1) (.invalid "checkpoint receipt_seq must be >= 1")
  rejectIf (isHex64 self.receiptSha256 = false)
    (.invalid "checkpoint receipt_sha256 must be 64 lowercase hex")
  rejectIf (isHex64 self.envelopeDigest = false)
    (.invalid "checkpoint envelope_digest must be 64 lowercase hex")
  rejectIf (self.envelopeVersion = 0 ∨ isHex64 self.effectiveStateDigest = false ∨
      isHex64 self.initialBundleSha256 = false ∨
      self.authorization.workspaceId ≠ self.workspaceId)
    (.invalid "checkpoint lacks consistent policy and authorization state")
  self.authorization.validate env

end Validate

end Maskura.Policy
