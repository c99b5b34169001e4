import Maskura.Multipart.Reducer

/-!
Which snapshots are valid: `validate_upload` and `validate_snapshot`, and
`FileMultipartReducer::apply`, which keeps nothing that is not.
-/

namespace Maskura.Multipart

open Maskura.Lib Maskura.Persistence

/-! ### Uploads -/

/-- The fields an upload may and must have set in its lifecycle. -/
def lifecycleFields (upload : MultipartUpload) : Except FileMultipartReducerError Unit :=
  match upload.lifecycle with
  | .opened =>
      rejectIf (upload.completeRequestFingerprint.isSome ∨ upload.completionLeaseOwner.isSome ∨
        upload.completionLeaseExpiresAtMs.isSome ∨ upload.completionFencingToken ≠ 0 ∨
        upload.destinationOperationId.isSome ∨ upload.publishingStartedAtMs.isSome ∨
        upload.destinationCommit.isSome ∨ upload.completionResult.isSome ∨
        upload.tombstoneUntilMs.isSome) .corruptSnapshot
  | .completing =>
      rejectIf (upload.completeRequestFingerprint.getD "" = "" ∨
        upload.completionFencingToken = 0 ∨ upload.completionLeaseExpiresAtMs.isNone ∨
        upload.destinationOperationId.isSome ∨ upload.publishingStartedAtMs.isSome ∨
        upload.destinationCommit.isSome ∨ upload.completionResult.isSome ∨
        upload.tombstoneUntilMs.isSome) .corruptSnapshot
  | .publishing =>
      rejectIf (upload.completeRequestFingerprint.getD "" = "" ∨
        upload.completionFencingToken = 0 ∨ upload.completionLeaseOwner.isSome ∨
        upload.completionLeaseExpiresAtMs.isSome ∨ upload.destinationOperationId.isNone ∨
        upload.publishingStartedAtMs.isNone ∨ upload.completionResult.isSome ∨
        upload.tombstoneUntilMs.isSome) .corruptSnapshot
  | .completed =>
      rejectIf (upload.completeRequestFingerprint.getD "" = "" ∨ upload.completionResult.isNone ∨
        upload.tombstoneUntilMs.isNone ∨
        upload.destinationOperationId.isSome ≠ upload.destinationCommit.isSome ∨
        upload.destinationOperationId.isSome ≠ upload.publishingStartedAtMs.isSome ∨
        upload.completionLeaseOwner.isSome ∨ upload.completionLeaseExpiresAtMs.isSome)
        .corruptSnapshot
  | .aborted | .expired =>
      rejectIf (upload.tombstoneUntilMs.isNone ∨ upload.completeRequestFingerprint.isSome ∨
        upload.completionLeaseOwner.isSome ∨ upload.completionLeaseExpiresAtMs.isSome ∨
        upload.completionFencingToken ≠ 0 ∨ upload.destinationOperationId.isSome ∨
        upload.publishingStartedAtMs.isSome ∨ upload.destinationCommit.isSome ∨
        upload.completionResult.isSome) .corruptSnapshot

/-- A recorded commit agrees with the operation, the times and the result of
its upload. -/
def commitFields (upload : MultipartUpload) : Except FileMultipartReducerError Unit :=
  match upload.destinationCommit with
  | none => .ok ()
  | some commit => do
      rejectIf (upload.destinationOperationId ≠ some commit.operationId) .completionConflict
      rejectIf ((∃ started ∈ upload.publishingStartedAtMs, commit.committedAtMs < started) ∨
        commit.committedAtMs > upload.updatedAtMs) .invalidExpiry
      rejectIf (∃ result ∈ upload.completionResult, result ≠ commit.result) .completionConflict

def validateUpload (upload : MultipartUpload) : Except FileMultipartReducerError Unit := do
  validateIdentity upload.identity
  rejectIf (upload.createdAtMs > upload.updatedAtMs ∨ upload.createdAtMs ≥ upload.expiresAtMs ∨
    upload.snapshot.maxStagedBytes = 0) .invalidExpiry
  lifecycleFields upload
  commitFields upload

/-! ### Snapshots -/

/-- What the loop over the attempts has seen. -/
structure AttemptTotals where
  artifacts : List String := []
  coordinates : List (ℕ × ℕ) := []
  currentParts : List ℕ := []
  stagedBytes : ℕ := 0
  reservedBytes : ℕ := 0
  deriving DecidableEq, Repr

/-- One round of the loop of `validate_snapshot`. -/
def validateAttempt (identity : MultipartIdentity) (totals : AttemptTotals)
    (attempt : FilePartAttemptV1) : Except FileMultipartReducerError AttemptTotals := do
  validatePartReference attempt.part identity
  let coordinate := (attempt.part.partNumber, attempt.part.attempt)
  rejectIf (attempt.part.artifactKey ∈ totals.artifacts ∨ coordinate ∈ totals.coordinates)
    .invalidPart
  let seen : AttemptTotals :=
    { totals with
      artifacts := attempt.part.artifactKey :: totals.artifacts
      coordinates := coordinate :: totals.coordinates }
  match attempt.lifecycle with
  | .pending =>
      rejectIf (attempt.part.sizeBytes ≠ 0 ∨ attempt.part.etag ≠ "" ∨
        attempt.part.checksumSha256 ≠ "") .invalidPart
      let reserved ← checkedAdd seen.reservedBytes attempt.reservedBytes
      return { seen with reservedBytes := reserved }
  | .current =>
      rejectIf (attempt.reservedBytes ≠ 0 ∨ attempt.part.partNumber ∈ seen.currentParts ∨
        attempt.part.etag = "" ∨ attempt.part.checksumSha256 = "") .invalidPart
      let staged ← checkedAdd seen.stagedBytes attempt.part.sizeBytes
      return { seen with
        currentParts := attempt.part.partNumber :: seen.currentParts
        stagedBytes := staged }
  | .retired =>
      rejectIf (attempt.reservedBytes ≠ 0 ∨ attempt.part.etag = "" ∨
        attempt.part.checksumSha256 = "") .invalidPart
      let staged ← checkedAdd seen.stagedBytes attempt.part.sizeBytes
      return { seen with stagedBytes := staged }

/-- The upload's own totals are those of its attempts, and a terminal upload
has no current part. -/
def validateTotals (upload : MultipartUpload) (totals : AttemptTotals) :
    Except FileMultipartReducerError Unit := do
  rejectIf (upload.stagedBytes ≠ totals.stagedBytes ∨
    upload.reservedBytes ≠ totals.reservedBytes) .invalidAccounting
  let sum ← checkedAdd totals.stagedBytes totals.reservedBytes
  rejectIf (sum > upload.snapshot.maxStagedBytes) .invalidAccounting
  rejectIf (isTerminal upload.lifecycle ∧ totals.currentParts ≠ []) .invalidPart

/-- The audits of a snapshot behind the ones with the given ids. -/
def validateAudits (identity : MultipartIdentity) :
    (auditIds : List Uuid) → List CleanupAudit → Except FileMultipartReducerError Unit
  | _, [] => .ok ()
  | auditIds, audit :: rest => do
      rejectIf (audit.uploadId ≠ identity.uploadId ∨ audit.id ∈ auditIds) .boundExceeded
      let count ← jsonRecordCount audit.detail
      rejectIf (count > maxFileMultipartEvidenceRecords) .boundExceeded
      validateAudits identity (audit.id :: auditIds) rest

/-- The upload of a snapshot that has an identity. -/
def validateSnapshotUpload (snapshot : FileMultipartSnapshotV1) (identity : MultipartIdentity) :
    Except FileMultipartReducerError Unit :=
  match snapshot.upload with
  | some upload => do
      rejectIf (upload.identity ≠ identity) .identityConflict
      validateUpload upload
  | none => rejectIf (snapshot.attempts ≠ [] ∨ snapshot.cleanupAudits ≠ []) .corruptSnapshot

def validateSnapshot (snapshot : FileMultipartSnapshotV1) :
    Except FileMultipartReducerError Unit := do
  rejectIf (snapshot.schemaVersion ≠ fileMultipartSchemaVersion)
    (.unsupportedVersion snapshot.schemaVersion)
  rejectIf (snapshot.cleanupAudits.length > maxFileMultipartAudits ∨
    snapshot.attempts.length > maxParts) .boundExceeded
  match snapshot.identity with
  | none =>
      rejectIf (snapshot.upload.isSome ∨ snapshot.attempts ≠ [] ∨ snapshot.cleanupAudits ≠ [] ∨
        snapshot.finalEventSequence ≠ 0) .corruptSnapshot
  | some identity =>
      validateIdentity identity
      validateSnapshotUpload snapshot identity
      let totals ← snapshot.attempts.foldlM (validateAttempt identity) {}
      match snapshot.upload with
      | some upload => validateTotals upload totals
      | none => pure ()
      validateAudits identity [] snapshot.cleanupAudits

/-! ### Applying events -/

/-- A reducer: the snapshot, and what it remembers of the events since the
snapshot it started from. -/
structure FileMultipartReducer where
  snapshot : FileMultipartSnapshotV1 := {}
  replayFloor : ℕ := 0
  replayed : Std.TreeMap ℕ Bytes := ∅
  eventIds : Std.TreeMap Uuid ℕ := ∅

def FileMultipartReducer.empty : FileMultipartReducer := {}

def FileMultipartReducer.fromSnapshot (snapshot : FileMultipartSnapshotV1) :
    Except FileMultipartReducerError FileMultipartReducer := do
  validateSnapshot snapshot
  return { snapshot := snapshot, replayFloor := snapshot.finalEventSequence }

/-- The snapshot that an event leads to, if the event may follow it. -/
def applyEvent (ext : Externals) (snapshot : FileMultipartSnapshotV1)
    (event : FileMultipartEventV1) : Except FileMultipartReducerError FileMultipartSnapshotV1 := do
  let candidate ← reduceTransition ext snapshot event
  let candidate := { candidate with finalEventSequence := event.sequence }
  validateSnapshot candidate
  return candidate

/-- `FileMultipartReducer::apply`, with the reducer it leaves behind. -/
def FileMultipartReducer.apply (ext : Externals) (self : FileMultipartReducer)
    (event : FileMultipartEventV1) :
    Except FileMultipartReducerError ReducerApply × FileMultipartReducer :=
  if event.schemaVersion ≠ fileMultipartSchemaVersion then
    (.error (.unsupportedVersion event.schemaVersion), self)
  else if event.sequence ≤ self.replayFloor then
    (.ok .compactedDuplicate, self)
  else
    match ext.eventBytes event with
    | none => (.error .corruptSnapshot, self)
    | some canonical =>
        match self.replayed[event.sequence]? with
        | some previous =>
            if previous = canonical then
              (.ok .exactDuplicate, self)
            else
              (.error .conflictingDuplicate, self)
        | none =>
            if self.eventIds.contains event.eventId then
              (.error .conflictingDuplicate, self)
            else if self.replayed.size ≥ maxReplayEvents then
              (.error .boundExceeded, self)
            else if self.snapshot.finalEventSequence + 1 ≥ u64Bound then
              (.error .invalidSequence, self)
            else if event.sequence ≠ self.snapshot.finalEventSequence + 1 then
              (.error .invalidSequence, self)
            else
              match applyEvent ext self.snapshot event with
              | .error error => (.error error, self)
              | .ok candidate =>
                  (.ok .applied,
                    { self with
                      snapshot := candidate
                      replayed := self.replayed.insert event.sequence canonical
                      eventIds := self.eventIds.insert event.eventId event.sequence })

end Maskura.Multipart
