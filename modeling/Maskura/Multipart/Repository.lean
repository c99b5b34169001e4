import Maskura.Multipart.Live

/-!
The methods of `FileMultipartRepository`, as the rest of the gateway sees
them.

Every method takes the lock, looks at the snapshots in memory, and ends with
an answer or with one `apply_transition`. So a method is a *decision* over the
snapshots, and there are two ways to carry a decision out: on the file backed
repository, and on the snapshots alone, where the environment says what the
write comes to. The second is the repository that runs of many requests are
about; the first refines it.
-/

namespace Maskura.Multipart

open Maskura.Lib Maskura.Persistence

/-- The snapshots that the lock of the repository guards. -/
abbrev Uploads := Std.ExtTreeMap String FileMultipartSnapshotV1

/-! ### Reading -/

namespace Uploads

def upload (self : Uploads) (uploadId : String) : Except StagingError MultipartUpload :=
  okOr (self[uploadId]?.bind FileMultipartSnapshotV1.upload) .notFound

def sameIdentity (upload : MultipartUpload) (identity : MultipartIdentity) : Bool :=
  upload.identity.tenantId = identity.tenantId ∧
    upload.identity.credentialPolicyId = identity.credentialPolicyId ∧
    upload.identity.bucket = identity.bucket ∧ upload.identity.key = identity.key ∧
    upload.identity.uploadId = identity.uploadId

def authorized (self : Uploads) (identity : MultipartIdentity) :
    Except StagingError MultipartUpload := do
  let upload ← self.upload identity.uploadId
  rejectIf (sameIdentity upload identity = false) .notFound
  return upload

/-- The attempts of an upload that is known to be there. -/
def attempts (self : Uploads) (uploadId : String) : List FilePartAttemptV1 :=
  (self[uploadId]?.map FileMultipartSnapshotV1.attempts).getD []

def currentPart (self : Uploads) (uploadId : String) (partNumber : ℕ) : Option MultipartPart :=
  (currentAttempt (self.attempts uploadId) partNumber).map FilePartAttemptV1.part

/-- The upload that has an attempt under the key, and a time for its next
event. -/
def artifactOwner (self : Uploads) (artifactKey : String) (clock : ℤ) : Option (String × ℤ) :=
  self.toList.findSome? fun (uploadId, snapshot) =>
    if snapshot.attempts.any fun attempt => attempt.part.artifactKey = artifactKey then
      some (uploadId, snapshot.upload.elim clock fun upload => max clock upload.updatedAtMs)
    else none

end Uploads

/-! ### Decisions -/

/-- What a method decides under the lock: an answer, or a transition to apply
and the answer once that is stored. -/
inductive Decision (ε α : Type)
  | answer (value : α)
  | apply (uploadId : String) (transition : FileMultipartTransitionV1)
      (mapFailure : MutationFailure → ε) (value : α)

/-- What a write of the repository comes to. -/
inductive Write
  | stored
  /-- The caller is told that the write may have happened. -/
  | unknown (error : StagingError) (stored : Bool)
  | refused (error : StagingError)
  deriving DecidableEq, Repr

/-- The snapshot that a transition leads to. -/
def Uploads.prepare (ext : Externals) (self : Uploads) (uploadId : String) (eventId : Uuid)
    (transition : FileMultipartTransitionV1) : Except StagingError FileMultipartSnapshotV1 := do
  let snapshot ← okOr self[uploadId]? (.persistence "multipart upload state disappeared")
  let identity ← okOr snapshot.identity (corruptState "multipart identity is missing")
  let sequence := snapshot.finalEventSequence + 1
  rejectIf (sequence ≥ u64Bound) (corruptState "multipart event sequence exhausted")
  let event : FileMultipartEventV1 :=
    ⟨fileMultipartSchemaVersion, sequence, eventId, identity, transition⟩
  let reducer ← (FileMultipartReducer.fromSnapshot snapshot).mapError reducerPersistenceError
  let candidate ← reducer.applied ext event
  return candidate.snapshot

section Perform

variable {ε α : Type}

/-- Carry a decision out on the snapshots. -/
def Uploads.perform (ext : Externals) (write : Write) (eventId : Uuid) (self : Uploads) :
    Except ε (Decision ε α) → Except ε α × Uploads
  | .error error => (.error error, self)
  | .ok (.answer value) => (.ok value, self)
  | .ok (.apply uploadId transition mapFailure value) =>
      match self.prepare ext uploadId eventId transition with
      | .error error => (.error (mapFailure (preMutation error)), self)
      | .ok candidate =>
          match write with
          | .stored => (.ok value, self.insert uploadId candidate)
          | .unknown error stored =>
              (.error (mapFailure ⟨error, true⟩),
                if stored then self.insert uploadId candidate else self)
          | .refused error => (.error (mapFailure (preMutation error)), self)

/-- Carry a decision out on the file backed repository. -/
def FileMultipartStore.mutate (ext : StoreExternals) (faults : WriteFaults) (eventId : Uuid)
    (self : FileMultipartStore) : Except ε (Decision ε α) → Except ε α × FileMultipartStore
  | .error error => (.error error, self)
  | .ok (.answer value) => (.ok value, self)
  | .ok (.apply uploadId transition mapFailure value) =>
      let (result, self) := self.applyTransition ext faults uploadId eventId transition
      ((result.mapError mapFailure).map fun () => value, self)

/-- The snapshots are those that the file backed repository has in memory. -/
def Uploads.Of (uploads : Uploads) (store : FileMultipartStore) : Prop :=
  ∀ uploadId : String, uploads[uploadId]? = store.view[uploadId]?

variable {uploads : Uploads} {store store' : FileMultipartStore} {uploadId : String}
  {eventId : Uuid} {transition : FileMultipartTransitionV1}

/-- The two ways to prepare a transition differ in the quotas only. -/
theorem prepareEvent_map {ext : Externals} (hhealthy : store.state.poisoned = none)
    (hof : uploads.Of store) :
    (fun prepared => prepared.2.2.snapshot) <$>
        store.state.prepareEvent ext uploadId eventId transition = do
      let candidate ← uploads.prepare ext uploadId eventId transition
      store.state.validateCandidate uploadId candidate
      return candidate := by
  simp only [FileMultipartState.prepareEvent, FileMultipartState.ensureHealthy, hhealthy,
    Uploads.prepare, hof uploadId, view_getElem?]
  cases store.state.entries[uploadId]? with
  | none => rfl
  | some entry =>
      simp only [Option.map_some, okOr_some, ok_bind, bind_assoc, pure_bind, map_bind, map_pure]

theorem TransitionOutcome.perform {ext : Externals} {faults : WriteFaults}
    {candidate : FileMultipartSnapshotV1} {result : Except MutationFailure Unit}
    (h : TransitionOutcome faults store store' uploadId candidate result) (hof : uploads.Of store)
    (hprepare : uploads.prepare ext uploadId eventId transition = .ok candidate)
    (mapFailure : MutationFailure → ε) (value : α) :
    ∃ write uploads', uploads.perform ext write eventId
        (.ok (.apply uploadId transition mapFailure value)) =
          ((result.mapError mapFailure).map fun () => value, uploads') ∧ uploads'.Of store' := by
  simp only [Uploads.perform, hprepare]
  cases h with
  | stored _ hresult hview =>
      have hof' : Uploads.Of (uploads.insert uploadId candidate) store' := fun other => by
        rw [hview, FinMap.getElem?_insert_ext, FinMap.getElem?_insert_eq, hof]
      rcases hresult with rfl | ⟨-, error, rfl⟩
      · exact ⟨.stored, _, rfl, hof'⟩
      · exact ⟨.unknown error true, _, rfl, hof'⟩
  | failed failure hview =>
      have hof' : uploads.Of store' := fun other => (hof other).trans (hview other).symm
      obtain ⟨error, unknown | unknown⟩ := failure
      · exact ⟨.refused error, _, rfl, hof'⟩
      · exact ⟨.unknown error false, _, rfl, hof'⟩

/-- The file backed repository does to its snapshots what the decision does to the
snapshots alone, for some outcome of the write. -/
theorem FileMultipartStore.Inv.mutate {ext : StoreExternals} {issued : List Uuid}
    {faults : WriteFaults} (h : store.Inv ext issued) (hid : eventId ∉ issued)
    (hsafe : ∀ uploadId, store.Safe faults uploadId) (hof : uploads.Of store)
    (decision : Except ε (Decision ε α)) :
    (store.mutate ext faults eventId decision).2.Inv ext (eventId :: issued) ∧
      ∃ write uploads', uploads.perform ext.toExternals write eventId decision =
          ((store.mutate ext faults eventId decision).1, uploads') ∧
        uploads'.Of (store.mutate ext faults eventId decision).2 := by
  have hinv := h.mono (List.subset_cons_self eventId issued)
  match decision with
  | .error _ => exact ⟨hinv, .stored, _, rfl, hof⟩
  | .ok (.answer _) => exact ⟨hinv, .stored, _, rfl, hof⟩
  | .ok (.apply uploadId transition mapFailure value) =>
      have hmap := @prepareEvent_map uploads store uploadId eventId transition ext.toExternals
        h.healthy hof
      simp only [FileMultipartStore.mutate]
      cases hevent : store.state.prepareEvent ext.toExternals uploadId eventId transition with
      | error error =>
          -- Nothing is written, and an error of the quotas is one of the write.
          simp only [FileMultipartStore.applyTransition, hevent]
          refine ⟨hinv, .refused error, uploads, ?_, hof⟩
          cases hprepare : uploads.prepare ext.toExternals uploadId eventId transition with
          | error _ =>
              rw [hevent, hprepare] at hmap
              cases hmap
              simp [Uploads.perform, hprepare, Except.map]
          | ok _ => simp [Uploads.perform, hprepare, Except.map]
      | ok prepared =>
          rw [hevent] at hmap
          have hok := hmap.symm
          simp only [Functor.map, Except.map, bind_eq_ok, pure_eq_ok] at hok
          obtain ⟨_, hprepare, -, -, rfl⟩ := hok
          obtain ⟨hinv', houtcome⟩ := h.applyTransition hid (hsafe uploadId) hevent
          exact ⟨hinv', houtcome.perform hof hprepare mapFailure value⟩

end Perform

/-! ### Parts -/

/-- A quota that the reducer found exceeded has an error of its own. -/
def mapReducerFailure (semantic : StagingError) (failure : MutationFailure) : StagingError :=
  if failure.unknown then failure.error
  else if "accounting".toList <:+: failure.error.message.toList then semantic
  else failure.error

structure CleanupCandidate where
  uploadId : String
  artifactKey : String
  deriving DecidableEq, Repr

/-- Where the artifact of an attempt is stored. -/
def stagedArtifactKey (identity : MultipartIdentity) (partNumber attempt : ℕ) : String :=
  "multipart/" ++ identity.tenantId ++ "/" ++ identity.uploadId ++ "/" ++ toString partNumber ++
    "/" ++ toString attempt

namespace Uploads

def beginPart (self : Uploads) (identity : MultipartIdentity) (partNumber reservedBytes : ℕ)
    (now : ℤ) : Except StagingError (Decision StagingError PendingPart) := do
  rejectIf (partNumber = 0 ∨ partNumber > maxParts) .invalidPart
  let upload ← self.authorized identity
  rejectIf (upload.lifecycle ≠ .opened ∨ upload.expiresAtMs ≤ now) .notOpen
  let attempt := maxAttempt (self.attempts identity.uploadId) partNumber + 1
  rejectIf (attempt ≥ u32Bound) .invalidPart
  let pending : PendingPart :=
    ⟨identity.uploadId, partNumber, attempt, stagedArtifactKey identity partNumber attempt,
      reservedBytes⟩
  return .apply identity.uploadId (.partReserved pending now) (mapReducerFailure .quotaExceeded)
    pending

def commitPart (self : Uploads) (identity : MultipartIdentity) (pending : PendingPart)
    (part : MultipartPart) (clock : ℤ) :
    Except StagingError (Decision StagingError (List MultipartPart)) := do
  rejectIf (part.uploadId ≠ pending.uploadId ∨ pending.uploadId ≠ identity.uploadId ∨
    part.partNumber ≠ pending.partNumber ∨ part.attempt ≠ pending.attempt ∨
    part.artifactKey ≠ pending.artifactKey ∨ part.sizeBytes > pending.reservedBytes) .invalidPart
  let upload ← self.authorized identity
  rejectIf (upload.lifecycle ≠ .opened) .notOpen
  let previous := (self.currentPart identity.uploadId part.partNumber).toList
  return .apply identity.uploadId (.partCommitted pending part (max clock upload.updatedAtMs))
    (mapReducerFailure .notFound) previous

def discardPending (self : Uploads) (identity : MultipartIdentity) (pending : PendingPart)
    (clock : ℤ) : Except StagingError (Decision StagingError Unit) := do
  let _ ← self.authorized identity
  rejectIf (pending.uploadId ≠ identity.uploadId) .notFound
  match self.artifactOwner pending.artifactKey clock with
  | none => return .answer ()
  | some (uploadId, updatedAtMs) =>
      rejectIf (uploadId ≠ identity.uploadId) .notFound
      return .apply uploadId (.artifactDeleted pending.artifactKey updatedAtMs)
        MutationFailure.error ()

def confirmArtifactDeleted (self : Uploads) (artifactKey : String) (clock : ℤ) :
    Except StagingError (Decision StagingError Unit) :=
  match self.artifactOwner artifactKey clock with
  | none => return .answer ()
  | some (uploadId, updatedAtMs) =>
      return .apply uploadId (.artifactDeleted artifactKey updatedAtMs) MutationFailure.error ()

end Uploads

/-! ### Completions -/

structure PublishingMultipartUpload where
  identity : MultipartIdentity
  permit : DestinationCommitPermit
  publishingStartedAtMs : ℤ
  destinationCommit : Option DestinationCommitRecord
  deriving DecidableEq, Repr

def publishingUpload (upload : MultipartUpload) :
    Except StagingError PublishingMultipartUpload := do
  let fingerprint ← okOr upload.completeRequestFingerprint
    (.persistence "publishing upload is missing its fingerprint")
  let operationId ← okOr upload.destinationOperationId
    (.persistence "publishing upload is missing its operation id")
  let publishingStartedAtMs ← okOr upload.publishingStartedAtMs
    (.persistence "publishing upload is missing its start time")
  return {
    identity := upload.identity
    permit := ⟨upload.identity.uploadId, fingerprint, upload.completionFencingToken, operationId⟩
    publishingStartedAtMs := publishingStartedAtMs
    destinationCommit := upload.destinationCommit }

end Maskura.Multipart
