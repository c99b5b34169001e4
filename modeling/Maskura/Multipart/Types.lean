import Mathlib
import Maskura.Persistence.Frame

/-!
The records of a multipart upload: what `multipart_staging` and
`file_multipart_repository` keep about one upload, the events that change
it, and the errors the reducer answers with.

A `u32` or `u64` is a natural number and an `i64` timestamp an integer;
where the code checks for overflow the model compares with the bound.
-/

namespace Maskura.Multipart

open Maskura.Persistence

abbrev Uuid := BitVec 128

/-- A JSON value. The numbers that occur in upload records are integers. -/
inductive Json
  | null
  | bool (value : Bool)
  | number (value : ℤ)
  | string (value : String)
  | array (values : List Json)
  | object (fields : List (String × Json))
  deriving Repr, Inhabited

/-! ### Bounds -/

def fileMultipartSchemaVersion : ℕ := 1

def maxFileMultipartAudits : ℕ := 256

def maxFileMultipartEvidenceRecords : ℕ := 4096

def maxReplayEvents : ℕ := 256

def maxActiveUploads : ℕ := 16

def maxParts : ℕ := 10000

/-- `DEFAULT_EXPIRY`, one day in milliseconds. -/
def defaultExpiryMs : ℤ := 86400000

/-! ### Uploads and parts -/

structure MultipartIdentity where
  tenantId : String
  credentialPolicyId : String
  bucket : String
  key : String
  uploadId : String
  deriving DecidableEq, Repr

/-- What the client and the destination fixed when the upload was created. -/
structure MultipartSnapshot where
  metadata : List (String × String)
  tags : List (String × String)
  checksumMode : Option String
  destination : Json
  pluginSnapshot : Json
  maxStagedBytes : ℕ
  deriving Repr

inductive MultipartLifecycle
  | opened
  | completing
  | publishing
  | completed
  | aborted
  | expired
  deriving DecidableEq, Repr

structure PipelineEvidence where
  revision : String
  fingerprint : String
  components : String
  fuelConsumed : ℕ
  durationMs : ℕ
  spoolMode : String
  deriving DecidableEq, Repr

structure MultipartCompletionResult where
  etag : Option String
  checksumSha256 : String
  versionId : Option String
  sourceBytes : ℕ
  sizeBytes : ℕ
  pipelineEvidence : Option PipelineEvidence
  deriving DecidableEq, Repr

/-- The right to publish one completion at the destination. -/
structure DestinationCommitPermit where
  uploadId : String
  completionFingerprint : String
  fencingToken : ℕ
  operationId : Uuid
  deriving DecidableEq, Repr

structure DestinationCommitRecord where
  operationId : Uuid
  result : MultipartCompletionResult
  committedAtMs : ℤ
  deriving DecidableEq, Repr

structure MultipartUpload where
  identity : MultipartIdentity
  namespaceEpoch : Option ℕ
  snapshot : MultipartSnapshot
  lifecycle : MultipartLifecycle
  stagedBytes : ℕ
  reservedBytes : ℕ
  createdAtMs : ℤ
  expiresAtMs : ℤ
  updatedAtMs : ℤ
  tombstoneUntilMs : Option ℤ
  completeRequestFingerprint : Option String
  completionLeaseOwner : Option String
  completionLeaseExpiresAtMs : Option ℤ
  completionFencingToken : ℕ
  destinationOperationId : Option Uuid
  publishingStartedAtMs : Option ℤ
  destinationCommit : Option DestinationCommitRecord
  completionResult : Option MultipartCompletionResult
  deriving Repr

structure MultipartPart where
  uploadId : String
  partNumber : ℕ
  attempt : ℕ
  artifactKey : String
  etag : String
  checksumSha256 : String
  sizeBytes : ℕ
  createdAtMs : ℤ
  deriving DecidableEq, Repr

structure PendingPart where
  uploadId : String
  partNumber : ℕ
  attempt : ℕ
  artifactKey : String
  reservedBytes : ℕ
  deriving DecidableEq, Repr

structure CompletePart where
  partNumber : ℕ
  etag : String
  checksumSha256 : Option String
  deriving DecidableEq, Repr

structure CleanupAudit where
  id : Uuid
  uploadId : String
  kind : String
  detail : Json
  createdAtMs : ℤ
  deriving Repr

/-! ### Snapshots and events -/

inductive FilePartAttemptLifecycleV1
  | pending
  | current
  | retired
  deriving DecidableEq, Repr

structure FilePartAttemptV1 where
  lifecycle : FilePartAttemptLifecycleV1
  part : MultipartPart
  reservedBytes : ℕ
  deriving DecidableEq, Repr

structure FileMultipartSnapshotV1 where
  schemaVersion : ℕ := fileMultipartSchemaVersion
  finalEventSequence : ℕ := 0
  identity : Option MultipartIdentity := none
  upload : Option MultipartUpload := none
  attempts : List FilePartAttemptV1 := []
  cleanupAudits : List CleanupAudit := []
  deriving Repr

inductive FileMultipartTransitionV1
  | uploadCreated (upload : MultipartUpload)
  | partReplaced (part : MultipartPart) (updatedAtMs : ℤ)
  | partReserved (pending : PendingPart) (createdAtMs : ℤ)
  | partCommitted (pending : PendingPart) (part : MultipartPart) (updatedAtMs : ℤ)
  | artifactDeleted (artifactKey : String) (updatedAtMs : ℤ)
  | completionAcquired (fingerprint : String) (selectedParts : List CompletePart)
      (owner : String) (leaseExpiresAtMs : ℤ) (fencingToken : ℕ) (updatedAtMs : ℤ)
  | completionRenewed (fencingToken : ℕ) (leaseExpiresAtMs : ℤ) (updatedAtMs : ℤ)
  | destinationCommitBegun (permit : DestinationCommitPermit) (publishingStartedAtMs : ℤ)
  | destinationCommitRecorded (permit : DestinationCommitPermit)
      (record : DestinationCommitRecord) (updatedAtMs : ℤ)
  | destinationCommitReleased (permit : DestinationCommitPermit) (updatedAtMs : ℤ)
  | completionCompleted (permit : DestinationCommitPermit) (result : MultipartCompletionResult)
      (completedAtMs : ℤ) (tombstoneUntilMs : ℤ)
  | destinationCommitReferenceCleared (expectedOperationId : Uuid) (updatedAtMs : ℤ)
  | uploadAborted (abortedAtMs : ℤ) (tombstoneUntilMs : ℤ)
  | uploadExpired (expiredAtMs : ℤ) (tombstoneUntilMs : ℤ)
  | cleanupAudited (audit : CleanupAudit)
  | terminalUploadDeleted
  | terminalUploadRetired (retiredAtMs : ℤ)
  deriving Repr

structure FileMultipartEventV1 where
  schemaVersion : ℕ
  sequence : ℕ
  eventId : Uuid
  identity : MultipartIdentity
  transition : FileMultipartTransitionV1
  deriving Repr

inductive ReducerApply
  | applied
  | exactDuplicate
  | compactedDuplicate
  deriving DecidableEq, Repr

inductive FileMultipartReducerError
  | unsupportedVersion (version : ℕ)
  | invalidSequence
  | conflictingDuplicate
  | identityConflict
  | unknownReference
  | illegalLifecycle
  | invalidFence
  | invalidPermit
  | invalidPart
  | invalidAccounting
  | completionConflict
  | invalidExpiry
  | boundExceeded
  | corruptSnapshot
  deriving DecidableEq, Repr

/-- The text of a reducer error, as it is shown. -/
def FileMultipartReducerError.message : FileMultipartReducerError → String
  | .unsupportedVersion version => s!"unsupported file multipart schema version {version}"
  | .invalidSequence => "file multipart event sequence is invalid"
  | .conflictingDuplicate => "file multipart event duplicate conflicts with persisted history"
  | .identityConflict => "file multipart upload identity conflicts with persisted identity"
  | .unknownReference => "file multipart event references unknown state"
  | .illegalLifecycle => "file multipart lifecycle transition is invalid"
  | .invalidFence => "file multipart completion fence is invalid"
  | .invalidPermit => "file multipart destination permit is invalid"
  | .invalidPart => "file multipart part state is invalid"
  | .invalidAccounting => "file multipart accounting overflow, underflow, or limit violation"
  | .completionConflict => "file multipart immutable completion data conflicts"
  | .invalidExpiry => "file multipart expiry or timestamp is invalid"
  | .boundExceeded => "file multipart audit or evidence bound exceeded"
  | .corruptSnapshot => "file multipart snapshot is corrupt"

/-! ### What comes from other crates

The JSON text of records and the UUID functions are not part of the
repository. The model takes them as they come. -/

structure Externals where
  /-- `serde_json::to_vec` of an identity and a fingerprint. -/
  permitBytes : MultipartIdentity → String → Bytes
  /-- `Uuid::new_v5`. -/
  newV5 : Uuid → Bytes → Uuid
  /-- `serde_json::to_vec` of an event, as the reducer compares it. -/
  eventBytes : FileMultipartEventV1 → Option Bytes

/-- The namespace of destination operation ids. -/
def permitNamespace : Uuid := 0x96a029a77f854defa53d34ca58e931ad

/-- `DestinationCommitPermit::deterministic_operation_id`: the operation id
depends on the upload and the request only, not on the attempt. -/
def deterministicOperationId (ext : Externals) (identity : MultipartIdentity)
    (fingerprint : String) : Uuid :=
  ext.newV5 permitNamespace (ext.permitBytes identity fingerprint)

end Maskura.Multipart
