import Maskura.Multipart.Types

/-!
The reducer of `file_multipart_repository`: how one event changes the
snapshot of an upload, which snapshots are valid, and how events are applied
and replayed.

Each arm of `reduce_transition` is a function of its own, named after its
event. A function that the code gives `&mut snapshot` returns the snapshot it
leaves behind.
-/

namespace Maskura.Multipart

open Maskura.Lib Maskura.Persistence

/-! ### Small checks -/

def u32Bound : ℕ := 2 ^ 32

/-- `i64::MAX`. -/
def i64Max : ℤ := 2 ^ 63 - 1

def checkedAdd (left right : ℕ) : Except FileMultipartReducerError ℕ :=
  if left + right < u64Bound then .ok (left + right) else .error .invalidAccounting

def isTerminal (lifecycle : MultipartLifecycle) : Bool :=
  lifecycle = .completed ∨ lifecycle = .aborted ∨ lifecycle = .expired

/-- The lifecycles in which current parts are still needed. -/
def isActive (lifecycle : MultipartLifecycle) : Bool :=
  lifecycle = .opened ∨ lifecycle = .completing ∨ lifecycle = .publishing

def validateTombstone (atMs tombstoneUntilMs : ℤ) : Except FileMultipartReducerError Unit := do
  rejectIf (atMs + defaultExpiryMs > i64Max) .invalidExpiry
  rejectIf (tombstoneUntilMs ≠ atMs + defaultExpiryMs) .invalidExpiry

mutual

/-- How many records a JSON value holds. -/
def jsonRecordCount : Json → Except FileMultipartReducerError ℕ
  | .array values => countValues values.length values
  | .object fields => countFields 1 fields
  | _ => .ok 0

def countValues (count : ℕ) : List Json → Except FileMultipartReducerError ℕ
  | [] => .ok count
  | value :: rest => do
      let more ← jsonRecordCount value
      rejectIf (count + more ≥ u64Bound) .boundExceeded
      countValues (count + more) rest

def countFields (count : ℕ) : List (String × Json) → Except FileMultipartReducerError ℕ
  | [] => .ok count
  | (_, value) :: rest => do
      let more ← jsonRecordCount value
      rejectIf (count + more ≥ u64Bound) .boundExceeded
      countFields (count + more) rest

end

def validateIdentity (identity : MultipartIdentity) : Except FileMultipartReducerError Unit :=
  rejectIf (identity.tenantId = "" ∨ identity.credentialPolicyId = "" ∨ identity.bucket = "" ∨
    identity.key = "" ∨ identity.uploadId = "") .identityConflict

def validatePartReference (part : MultipartPart) (identity : MultipartIdentity) :
    Except FileMultipartReducerError Unit :=
  rejectIf (part.uploadId ≠ identity.uploadId ∨ part.partNumber = 0 ∨ part.partNumber > maxParts ∨
    part.attempt = 0 ∨ part.artifactKey = "") .invalidPart

/-! ### Reading a snapshot -/

def requireUpload (snapshot : FileMultipartSnapshotV1) :
    Except FileMultipartReducerError MultipartUpload :=
  okOr snapshot.upload .unknownReference

def requireOpen (snapshot : FileMultipartSnapshotV1) :
    Except FileMultipartReducerError MultipartUpload := do
  let upload ← requireUpload snapshot
  rejectIf (upload.lifecycle ≠ .opened) .illegalLifecycle
  return upload

def attemptIndex (snapshot : FileMultipartSnapshotV1) (artifactKey : String) :
    Except FileMultipartReducerError ℕ :=
  okOr (snapshot.attempts.findIdx? fun attempt => attempt.part.artifactKey = artifactKey)
    .unknownReference

def maxAttempt (attempts : List FilePartAttemptV1) (partNumber : ℕ) : ℕ :=
  ((attempts.filter fun attempt => attempt.part.partNumber = partNumber).map
    fun attempt => attempt.part.attempt).foldr max 0

/-- The current attempt of a part. -/
def currentAttempt (attempts : List FilePartAttemptV1) (partNumber : ℕ) :
    Option FilePartAttemptV1 :=
  attempts.find? fun attempt =>
    attempt.lifecycle = .current ∧ attempt.part.partNumber = partNumber

/-- The loop of `validate_selected_parts` behind the part `previous`. -/
def validateSelectedFrom (attempts : List FilePartAttemptV1) :
    (previous : ℕ) → List CompletePart → Except FileMultipartReducerError Unit
  | _, [] => .ok ()
  | previous, requested :: rest => do
      rejectIf (requested.partNumber ≤ previous) .invalidPart
      let current ← okOr (currentAttempt attempts requested.partNumber) .unknownReference
      rejectIf (current.part.etag ≠ requested.etag ∨
        ∃ checksum ∈ requested.checksumSha256, checksum ≠ current.part.checksumSha256) .invalidPart
      validateSelectedFrom attempts requested.partNumber rest

def validateSelectedParts (attempts : List FilePartAttemptV1) (selected : List CompletePart) :
    Except FileMultipartReducerError Unit := do
  rejectIf (selected = [] ∨ selected.length > maxParts) .invalidPart
  validateSelectedFrom attempts 0 selected

/-- The permit is the one the upload is publishing under. -/
def validatePermit (ext : Externals) (snapshot : FileMultipartSnapshotV1)
    (permit : DestinationCommitPermit) : Except FileMultipartReducerError Unit := do
  let upload ← requireUpload snapshot
  rejectIf (upload.lifecycle ≠ .publishing ∨ upload.identity.uploadId ≠ permit.uploadId ∨
      upload.completeRequestFingerprint ≠ some permit.completionFingerprint ∨
      upload.completionFencingToken ≠ permit.fencingToken ∨
      upload.destinationOperationId ≠ some permit.operationId ∨
      permit.operationId ≠
        deterministicOperationId ext upload.identity permit.completionFingerprint)
    .invalidPermit

/-! ### Changing a snapshot -/

/-- Staged and reserved bytes after one more attempt. -/
def addAccounting (totals : ℕ × ℕ) (attempt : FilePartAttemptV1) :
    Except FileMultipartReducerError (ℕ × ℕ) :=
  match attempt.lifecycle with
  | .pending => do
      let reserved ← checkedAdd totals.2 attempt.reservedBytes
      return (totals.1, reserved)
  | .current | .retired => do
      let staged ← checkedAdd totals.1 attempt.part.sizeBytes
      return (staged, totals.2)

def calculateAccounting (attempts : List FilePartAttemptV1) :
    Except FileMultipartReducerError (ℕ × ℕ) :=
  attempts.foldlM addAccounting (0, 0)

def setUpdatedAt (snapshot : FileMultipartSnapshotV1) (updatedAtMs : ℤ) :
    Except FileMultipartReducerError FileMultipartSnapshotV1 := do
  let upload ← requireUpload snapshot
  rejectIf (updatedAtMs < upload.updatedAtMs) .invalidExpiry
  let totals ← calculateAccounting snapshot.attempts
  return { snapshot with
    upload := some { upload with
      stagedBytes := totals.1, reservedBytes := totals.2, updatedAtMs := updatedAtMs } }

def retireCurrent (attempt : FilePartAttemptV1) : FilePartAttemptV1 :=
  if attempt.lifecycle = .current then { attempt with lifecycle := .retired } else attempt

def retireCurrentAttempts (attempts : List FilePartAttemptV1) : List FilePartAttemptV1 :=
  attempts.map retireCurrent

/-! ### The arms of `reduce_transition` -/

section Arms

variable (ext : Externals) (snapshot : FileMultipartSnapshotV1) (identity : MultipartIdentity)

def uploadCreated (upload : MultipartUpload) :
    Except FileMultipartReducerError FileMultipartSnapshotV1 := do
  rejectIf (snapshot.identity.isSome ∨ snapshot.upload.isSome) .conflictingDuplicate
  rejectIf (upload.identity ≠ identity) .identityConflict
  return { snapshot with identity := some identity, upload := some upload }

def partReplaced (part : MultipartPart) (updatedAtMs : ℤ) :
    Except FileMultipartReducerError FileMultipartSnapshotV1 := do
  let _ ← requireOpen snapshot
  validatePartReference part identity
  rejectIf (part.partNumber = 0 ∨ part.partNumber > maxParts) .invalidPart
  rejectIf (part.attempt ≤ maxAttempt snapshot.attempts part.partNumber ∨
    snapshot.attempts.length ≥ maxParts) .invalidPart
  let kept := snapshot.attempts.filter fun attempt =>
    ¬(attempt.part.partNumber = part.partNumber ∧ attempt.lifecycle = .current)
  setUpdatedAt { snapshot with attempts := kept ++ [⟨.current, part, 0⟩] } updatedAtMs

/-- The row of a reservation whose artifact is not stored yet. -/
def pendingAttempt (pending : PendingPart) (createdAtMs : ℤ) : FilePartAttemptV1 where
  lifecycle := .pending
  part :=
    { uploadId := pending.uploadId
      partNumber := pending.partNumber
      attempt := pending.attempt
      artifactKey := pending.artifactKey
      etag := ""
      checksumSha256 := ""
      sizeBytes := 0
      createdAtMs := createdAtMs }
  reservedBytes := pending.reservedBytes

def partReserved (pending : PendingPart) (createdAtMs : ℤ) :
    Except FileMultipartReducerError FileMultipartSnapshotV1 := do
  let upload ← requireOpen snapshot
  rejectIf (upload.expiresAtMs ≤ createdAtMs ∨ pending.uploadId ≠ identity.uploadId ∨
    pending.partNumber = 0 ∨ pending.partNumber > maxParts ∨
    snapshot.attempts.length ≥ maxParts) .invalidPart
  let expectedAttempt := maxAttempt snapshot.attempts pending.partNumber + 1
  rejectIf (expectedAttempt ≥ u32Bound) .invalidPart
  rejectIf (pending.attempt ≠ expectedAttempt) .invalidPart
  setUpdatedAt
    { snapshot with attempts := snapshot.attempts ++ [pendingAttempt pending createdAtMs] }
    createdAtMs

/-- The attempts once the one at `index` is the current one of its part. -/
def commitAttempt (attempts : List FilePartAttemptV1) (index : ℕ) (part : MultipartPart) :
    List FilePartAttemptV1 :=
  (attempts.map fun old =>
    if old.part.partNumber = part.partNumber then retireCurrent old else old).set index
      ⟨.current, part, 0⟩

def partCommitted (pending : PendingPart) (part : MultipartPart) (updatedAtMs : ℤ) :
    Except FileMultipartReducerError FileMultipartSnapshotV1 := do
  let _ ← requireOpen snapshot
  validatePartReference part identity
  let index ← attemptIndex snapshot pending.artifactKey
  rejectIf (pending.uploadId ≠ identity.uploadId ∨ part.uploadId ≠ pending.uploadId ∨
    part.partNumber ≠ pending.partNumber ∨ part.attempt ≠ pending.attempt ∨
    part.artifactKey ≠ pending.artifactKey ∨ part.sizeBytes > pending.reservedBytes) .invalidPart
  let attempt ← okOr snapshot.attempts[index]? .unknownReference
  rejectIf (attempt.lifecycle ≠ .pending ∨ attempt.reservedBytes ≠ pending.reservedBytes ∨
    attempt.part.partNumber ≠ pending.partNumber ∨
    attempt.part.attempt ≠ pending.attempt) .unknownReference
  setUpdatedAt { snapshot with attempts := commitAttempt snapshot.attempts index part } updatedAtMs

def artifactDeleted (artifactKey : String) (updatedAtMs : ℤ) :
    Except FileMultipartReducerError FileMultipartSnapshotV1 := do
  let index ← attemptIndex snapshot artifactKey
  let attempt ← okOr snapshot.attempts[index]? .unknownReference
  rejectIf (attempt.lifecycle = .current ∧
    ∃ upload ∈ snapshot.upload, isActive upload.lifecycle) .illegalLifecycle
  setUpdatedAt { snapshot with attempts := snapshot.attempts.eraseIdx index } updatedAtMs

def acquireCompletion (fingerprint : String) (selectedParts : List CompletePart) (owner : String)
    (leaseExpiresAtMs : ℤ) (fencingToken : ℕ) (updatedAtMs : ℤ) :
    Except FileMultipartReducerError FileMultipartSnapshotV1 := do
  let upload ← requireUpload snapshot
  rejectIf (upload.lifecycle ≠ .opened ∧ upload.lifecycle ≠ .completing) .illegalLifecycle
  rejectIf (upload.lifecycle = .opened ∧ upload.expiresAtMs ≤ updatedAtMs) .invalidExpiry
  rejectIf (∃ old ∈ upload.completeRequestFingerprint, old ≠ fingerprint) .completionConflict
  rejectIf (upload.lifecycle = .completing ∧
    ∃ expires ∈ upload.completionLeaseExpiresAtMs, expires > updatedAtMs) .invalidFence
  rejectIf (upload.completionFencingToken + 1 ≥ u64Bound) .invalidFence
  rejectIf (fencingToken ≠ upload.completionFencingToken + 1 ∨ leaseExpiresAtMs ≤ updatedAtMs ∨
    fingerprint = "" ∨ owner = "") .invalidFence
  validateSelectedParts snapshot.attempts selectedParts
  setUpdatedAt
    { snapshot with
      upload := some { upload with
        lifecycle := .completing
        completeRequestFingerprint := some fingerprint
        completionLeaseOwner := some owner
        completionLeaseExpiresAtMs := some leaseExpiresAtMs
        completionFencingToken := fencingToken } }
    updatedAtMs

def completionRenewed (fencingToken : ℕ) (leaseExpiresAtMs updatedAtMs : ℤ) :
    Except FileMultipartReducerError FileMultipartSnapshotV1 := do
  let upload ← requireUpload snapshot
  rejectIf (upload.lifecycle ≠ .completing ∨ upload.completionFencingToken ≠ fencingToken)
    .invalidFence
  rejectIf (leaseExpiresAtMs ≤ updatedAtMs) .invalidExpiry
  setUpdatedAt
    { snapshot with
      upload := some { upload with completionLeaseExpiresAtMs := some leaseExpiresAtMs } }
    updatedAtMs

def beginDestinationCommit (permit : DestinationCommitPermit) (nowMs : ℤ) :
    Except FileMultipartReducerError FileMultipartSnapshotV1 := do
  let upload ← requireUpload snapshot
  rejectIf (upload.lifecycle ≠ .completing ∨
      upload.completeRequestFingerprint ≠ some permit.completionFingerprint ∨
      upload.completionFencingToken ≠ permit.fencingToken ∨
      (∀ expires ∈ upload.completionLeaseExpiresAtMs, expires ≤ nowMs) ∨
      permit.uploadId ≠ identity.uploadId ∨
      permit.operationId ≠ deterministicOperationId ext identity permit.completionFingerprint)
    .invalidPermit
  setUpdatedAt
    { snapshot with
      upload := some { upload with
        lifecycle := .publishing
        destinationOperationId := some permit.operationId
        publishingStartedAtMs := some nowMs
        destinationCommit := none
        completionLeaseOwner := none
        completionLeaseExpiresAtMs := none } }
    nowMs

def destinationCommitRecorded (permit : DestinationCommitPermit)
    (record : DestinationCommitRecord) (updatedAtMs : ℤ) :
    Except FileMultipartReducerError FileMultipartSnapshotV1 := do
  validatePermit ext snapshot permit
  rejectIf (record.operationId ≠ permit.operationId) .invalidPermit
  let upload ← requireUpload snapshot
  rejectIf upload.destinationCommit.isSome .completionConflict
  setUpdatedAt
    { snapshot with upload := some { upload with destinationCommit := some record } } updatedAtMs

def destinationCommitReleased (permit : DestinationCommitPermit) (updatedAtMs : ℤ) :
    Except FileMultipartReducerError FileMultipartSnapshotV1 := do
  validatePermit ext snapshot permit
  let upload ← requireUpload snapshot
  rejectIf upload.destinationCommit.isSome .invalidPermit
  setUpdatedAt
    { snapshot with
      upload := some { upload with
        lifecycle := .completing
        destinationOperationId := none
        publishingStartedAtMs := none
        completionLeaseOwner := none
        completionLeaseExpiresAtMs := some updatedAtMs } }
    updatedAtMs

def completionCompleted (permit : DestinationCommitPermit) (result : MultipartCompletionResult)
    (completedAtMs tombstoneUntilMs : ℤ) :
    Except FileMultipartReducerError FileMultipartSnapshotV1 := do
  validatePermit ext snapshot permit
  validateTombstone completedAtMs tombstoneUntilMs
  let upload ← requireUpload snapshot
  rejectIf (upload.destinationCommit.map DestinationCommitRecord.result ≠ some result)
    .completionConflict
  setUpdatedAt
    { snapshot with
      upload := some { upload with
        lifecycle := .completed
        completionResult := some result
        completionLeaseOwner := none
        completionLeaseExpiresAtMs := none
        tombstoneUntilMs := some tombstoneUntilMs }
      attempts := retireCurrentAttempts snapshot.attempts }
    completedAtMs

def destinationCommitReferenceCleared (expectedOperationId : Uuid) (updatedAtMs : ℤ) :
    Except FileMultipartReducerError FileMultipartSnapshotV1 := do
  let upload ← requireUpload snapshot
  rejectIf (¬isTerminal upload.lifecycle ∨
    upload.destinationOperationId ≠ some expectedOperationId) .invalidPermit
  setUpdatedAt
    { snapshot with
      upload := some { upload with
        destinationOperationId := none
        destinationCommit := none
        publishingStartedAtMs := none } }
    updatedAtMs

def terminalWithoutCommit (lifecycle : MultipartLifecycle) (atMs tombstoneUntilMs : ℤ) :
    Except FileMultipartReducerError FileMultipartSnapshotV1 := do
  validateTombstone atMs tombstoneUntilMs
  let upload ← requireUpload snapshot
  rejectIf (upload.lifecycle ≠ .opened) .illegalLifecycle
  setUpdatedAt
    { snapshot with
      upload := some { upload with
        lifecycle := lifecycle
        tombstoneUntilMs := some tombstoneUntilMs }
      attempts := retireCurrentAttempts snapshot.attempts }
    atMs

def uploadExpired (expiredAtMs tombstoneUntilMs : ℤ) :
    Except FileMultipartReducerError FileMultipartSnapshotV1 := do
  let upload ← requireOpen snapshot
  rejectIf (upload.expiresAtMs > expiredAtMs) .invalidExpiry
  terminalWithoutCommit snapshot .expired expiredAtMs tombstoneUntilMs

def cleanupAudited (audit : CleanupAudit) :
    Except FileMultipartReducerError FileMultipartSnapshotV1 := do
  let upload ← requireUpload snapshot
  rejectIf (audit.uploadId ≠ identity.uploadId) .identityConflict
  rejectIf (snapshot.cleanupAudits.length ≥ maxFileMultipartAudits ∨
    snapshot.cleanupAudits.any fun old => old.id = audit.id) .boundExceeded
  let count ← jsonRecordCount audit.detail
  rejectIf (count > maxFileMultipartEvidenceRecords ∨ audit.createdAtMs < upload.createdAtMs)
    .boundExceeded
  return { snapshot with cleanupAudits := snapshot.cleanupAudits ++ [audit] }

def terminalUploadDeleted : Except FileMultipartReducerError FileMultipartSnapshotV1 := do
  let upload ← requireUpload snapshot
  rejectIf ((upload.lifecycle ≠ .aborted ∧ upload.lifecycle ≠ .expired) ∨
    snapshot.attempts ≠ [] ∨ upload.destinationOperationId.isSome ∨
    upload.destinationCommit.isSome) .illegalLifecycle
  return { snapshot with upload := none, cleanupAudits := [] }

def terminalUploadRetired (retiredAtMs : ℤ) :
    Except FileMultipartReducerError FileMultipartSnapshotV1 := do
  let upload ← requireUpload snapshot
  rejectIf (¬isTerminal upload.lifecycle ∨ snapshot.attempts ≠ [] ∨
    upload.destinationOperationId.isSome ∨ upload.destinationCommit.isSome ∨
    ∀ until_ ∈ upload.tombstoneUntilMs, until_ > retiredAtMs) .illegalLifecycle
  return { snapshot with upload := none, cleanupAudits := [] }

end Arms

/-- The event is for the upload the snapshot is about, or creates it. -/
def checkEventIdentity (snapshot : FileMultipartSnapshotV1) (event : FileMultipartEventV1) :
    Except FileMultipartReducerError Unit :=
  match snapshot.identity, event.transition with
  | some identity, _ => rejectIf (identity ≠ event.identity) .identityConflict
  | none, .uploadCreated _ => .ok ()
  | none, _ => .error .unknownReference

def reduceTransition (ext : Externals) (snapshot : FileMultipartSnapshotV1)
    (event : FileMultipartEventV1) : Except FileMultipartReducerError FileMultipartSnapshotV1 := do
  checkEventIdentity snapshot event
  match event.transition with
  | .uploadCreated upload => uploadCreated snapshot event.identity upload
  | .partReplaced part updatedAtMs => partReplaced snapshot event.identity part updatedAtMs
  | .partReserved pending createdAtMs => partReserved snapshot event.identity pending createdAtMs
  | .partCommitted pending part updatedAtMs =>
      partCommitted snapshot event.identity pending part updatedAtMs
  | .artifactDeleted artifactKey updatedAtMs => artifactDeleted snapshot artifactKey updatedAtMs
  | .completionAcquired fingerprint selectedParts owner leaseExpiresAtMs fencingToken updatedAtMs =>
      acquireCompletion snapshot fingerprint selectedParts owner leaseExpiresAtMs fencingToken
        updatedAtMs
  | .completionRenewed fencingToken leaseExpiresAtMs updatedAtMs =>
      completionRenewed snapshot fencingToken leaseExpiresAtMs updatedAtMs
  | .destinationCommitBegun permit publishingStartedAtMs =>
      beginDestinationCommit ext snapshot event.identity permit publishingStartedAtMs
  | .destinationCommitRecorded permit record updatedAtMs =>
      destinationCommitRecorded ext snapshot permit record updatedAtMs
  | .destinationCommitReleased permit updatedAtMs =>
      destinationCommitReleased ext snapshot permit updatedAtMs
  | .completionCompleted permit result completedAtMs tombstoneUntilMs =>
      completionCompleted ext snapshot permit result completedAtMs tombstoneUntilMs
  | .destinationCommitReferenceCleared expectedOperationId updatedAtMs =>
      destinationCommitReferenceCleared snapshot expectedOperationId updatedAtMs
  | .uploadAborted abortedAtMs tombstoneUntilMs =>
      terminalWithoutCommit snapshot .aborted abortedAtMs tombstoneUntilMs
  | .uploadExpired expiredAtMs tombstoneUntilMs =>
      uploadExpired snapshot expiredAtMs tombstoneUntilMs
  | .cleanupAudited audit => cleanupAudited snapshot event.identity audit
  | .terminalUploadDeleted => terminalUploadDeleted snapshot
  | .terminalUploadRetired retiredAtMs => terminalUploadRetired snapshot retiredAtMs

end Maskura.Multipart
