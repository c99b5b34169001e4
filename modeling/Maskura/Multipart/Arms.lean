import Maskura.Multipart.Validate

/-!
What each arm of `reduce_transition` does when it succeeds: the guards it
passed and the snapshot it leaves. Every invariant of the reducer is derived
from this; none of them looks at the arms again.
-/

namespace Maskura.Multipart

open Maskura.Lib

variable {ext : Externals} {snapshot snapshot' : FileMultipartSnapshotV1}
  {identity : MultipartIdentity}

/-! ### Reading and accounting -/

@[simp] theorem requireUpload_eq_ok {upload : MultipartUpload} :
    requireUpload snapshot = .ok upload ↔ snapshot.upload = some upload := by
  simp [requireUpload]

@[simp] theorem requireOpen_eq_ok {upload : MultipartUpload} :
    requireOpen snapshot = .ok upload ↔
      snapshot.upload = some upload ∧ upload.lifecycle = .opened := by
  simp only [requireOpen, bind_eq_ok, rejectIf_eq_ok, exists_const, requireUpload_eq_ok, pure_eq_ok,
    not_not]
  constructor
  · rintro ⟨u, hu, hopen, rfl⟩
    exact ⟨hu, hopen⟩
  · rintro ⟨hu, hopen⟩
    exact ⟨upload, hu, hopen, rfl⟩

/-- An upload with its totals and update time renewed, as `set_updated_at`
leaves it. -/
def MultipartUpload.accounted (upload : MultipartUpload) (totals : ℕ × ℕ) (updatedAtMs : ℤ) :
    MultipartUpload :=
  { upload with
    stagedBytes := totals.1, reservedBytes := totals.2, updatedAtMs := updatedAtMs }

/-- A snapshot whose upload has ended without a commit. -/
def FileMultipartSnapshotV1.ended (snapshot : FileMultipartSnapshotV1) (upload : MultipartUpload)
    (totals : ℕ × ℕ) (lifecycle : MultipartLifecycle) (atMs tombstoneUntilMs : ℤ) :
    FileMultipartSnapshotV1 :=
  { snapshot with
    upload := some (MultipartUpload.accounted { upload with
      lifecycle := lifecycle
      tombstoneUntilMs := some tombstoneUntilMs } totals atMs)
    attempts := retireCurrentAttempts snapshot.attempts }

/-- `set_updated_at` on a snapshot whose upload is known. -/
theorem setUpdatedAt_ok {upload : MultipartUpload} {updatedAtMs : ℤ}
    (h : setUpdatedAt snapshot updatedAtMs = .ok snapshot')
    (hupload : snapshot.upload = some upload) : ∃ totals,
      snapshot' = { snapshot with upload := some (upload.accounted totals updatedAtMs) } := by
  simp only [setUpdatedAt, bind_eq_ok, rejectIf_eq_ok, exists_const, requireUpload_eq_ok, hupload,
    Option.some.injEq, pure_eq_ok] at h
  obtain ⟨u, rfl, -, totals, -, rfl⟩ := h
  exact ⟨totals, rfl⟩

/-- The upload is published under this permit. -/
structure MultipartUpload.Permits (upload : MultipartUpload) (permit : DestinationCommitPermit) :
    Prop where
  publishing : upload.lifecycle = .publishing
  fingerprint : upload.completeRequestFingerprint = some permit.completionFingerprint
  token : upload.completionFencingToken = permit.fencingToken
  operation : upload.destinationOperationId = some permit.operationId

theorem validatePermit_ok {permit : DestinationCommitPermit} {u : Unit} {upload : MultipartUpload}
    (h : validatePermit ext snapshot permit = .ok u) (hupload : snapshot.upload = some upload) :
    upload.Permits permit := by
  simp only [validatePermit, bind_eq_ok, rejectIf_eq_ok, requireUpload_eq_ok, hupload, not_or,
    not_not, Option.some.injEq, exists_eq_left'] at h
  exact ⟨h.1, h.2.2.1, h.2.2.2.1, h.2.2.2.2.1⟩

/-- The index of an artifact is that of the first attempt with its key. -/
theorem attemptIndex_ok {artifactKey : String} {index : ℕ}
    (h : attemptIndex snapshot artifactKey = .ok index) :
    ∃ attempt, snapshot.attempts[index]? = some attempt ∧
      attempt.part.artifactKey = artifactKey := by
  simp only [attemptIndex, okOr_eq_ok, List.findIdx?_eq_some_iff_getElem] at h
  obtain ⟨hlt, hkey, -⟩ := h
  exact ⟨snapshot.attempts[index], List.getElem?_eq_getElem hlt, by simpa using hkey⟩

/-! ### The arms -/

/-- A snapshot, an event of this identity that it accepts, and the snapshot behind it. -/
inductive Reduced (snapshot : FileMultipartSnapshotV1) (identity : MultipartIdentity) :
    FileMultipartTransitionV1 → FileMultipartSnapshotV1 → Prop
  | uploadCreated {upload : MultipartUpload}
      (hidentity : snapshot.identity = none) (hupload : snapshot.upload = none) :
      Reduced snapshot identity (.uploadCreated upload)
        { snapshot with identity := some identity, upload := some upload }
  | partReplaced {upload : MultipartUpload} {totals : ℕ × ℕ} {part : MultipartPart}
      {updatedAtMs : ℤ}
      (hupload : snapshot.upload = some upload) (hopen : upload.lifecycle = .opened) :
      Reduced snapshot identity (.partReplaced part updatedAtMs) { snapshot with
        upload := some (upload.accounted totals updatedAtMs)
        attempts := (snapshot.attempts.filter fun attempt =>
          ¬(attempt.part.partNumber = part.partNumber ∧ attempt.lifecycle = .current)) ++
            [⟨.current, part, 0⟩] }
  | partReserved {upload : MultipartUpload} {totals : ℕ × ℕ} {pending : PendingPart}
      {updatedAtMs : ℤ}
      (hupload : snapshot.upload = some upload) (hopen : upload.lifecycle = .opened) :
      Reduced snapshot identity (.partReserved pending updatedAtMs) { snapshot with
        upload := some (upload.accounted totals updatedAtMs)
        attempts := snapshot.attempts ++ [pendingAttempt pending updatedAtMs] }
  | partCommitted {upload : MultipartUpload} {totals : ℕ × ℕ} {part : MultipartPart}
      {pending : PendingPart} {attempt : FilePartAttemptV1} {index : ℕ} {updatedAtMs : ℤ}
      (hupload : snapshot.upload = some upload) (hopen : upload.lifecycle = .opened)
      (hget : snapshot.attempts[index]? = some attempt)
      (hnumber : attempt.part.partNumber = part.partNumber)
      (hattempt : attempt.part.attempt = part.attempt) :
      Reduced snapshot identity (.partCommitted pending part updatedAtMs) { snapshot with
        upload := some (upload.accounted totals updatedAtMs)
        attempts := commitAttempt snapshot.attempts index part }
  | artifactDeleted {upload : MultipartUpload} {totals : ℕ × ℕ} {attempt : FilePartAttemptV1}
      {index : ℕ} {artifactKey : String} {updatedAtMs : ℤ}
      (hupload : snapshot.upload = some upload)
      (hget : snapshot.attempts[index]? = some attempt)
      (hkey : attempt.part.artifactKey = artifactKey)
      (hcurrent : isActive upload.lifecycle → attempt.lifecycle ≠ .current) :
      Reduced snapshot identity (.artifactDeleted artifactKey updatedAtMs) { snapshot with
        upload := some (upload.accounted totals updatedAtMs)
        attempts := snapshot.attempts.eraseIdx index }
  | completionAcquired {upload : MultipartUpload} {totals : ℕ × ℕ} {fencingToken : ℕ}
      {fingerprint owner : String} {selectedParts : List CompletePart}
      {leaseExpiresAtMs updatedAtMs : ℤ}
      (hupload : snapshot.upload = some upload)
      (hlifecycle : upload.lifecycle = .opened ∨ upload.lifecycle = .completing)
      (hfingerprint : ∀ old ∈ upload.completeRequestFingerprint, old = fingerprint)
      (htoken : fencingToken = upload.completionFencingToken + 1) :
      Reduced snapshot identity (.completionAcquired fingerprint selectedParts owner
        leaseExpiresAtMs fencingToken updatedAtMs) { snapshot with
          upload := some (MultipartUpload.accounted { upload with
            lifecycle := .completing
            completeRequestFingerprint := some fingerprint
            completionLeaseOwner := some owner
            completionLeaseExpiresAtMs := some leaseExpiresAtMs
            completionFencingToken := fencingToken } totals updatedAtMs) }
  | completionRenewed {upload : MultipartUpload} {totals : ℕ × ℕ} {leaseExpiresAtMs updatedAtMs : ℤ}
      (hupload : snapshot.upload = some upload)
      (hcompleting : upload.lifecycle = .completing) :
      Reduced snapshot identity
        (.completionRenewed upload.completionFencingToken leaseExpiresAtMs updatedAtMs)
        { snapshot with
          upload := some (MultipartUpload.accounted { upload with
            completionLeaseExpiresAtMs := some leaseExpiresAtMs } totals updatedAtMs) }
  | destinationCommitBegun {upload : MultipartUpload} {totals : ℕ × ℕ} {updatedAtMs : ℤ}
      {permit : DestinationCommitPermit}
      (hupload : snapshot.upload = some upload)
      (hcompleting : upload.lifecycle = .completing)
      (hfingerprint : upload.completeRequestFingerprint = some permit.completionFingerprint)
      (htoken : upload.completionFencingToken = permit.fencingToken) :
      Reduced snapshot identity (.destinationCommitBegun permit updatedAtMs) { snapshot with
        upload := some (MultipartUpload.accounted { upload with
          lifecycle := .publishing
          destinationOperationId := some permit.operationId
          publishingStartedAtMs := some updatedAtMs
          destinationCommit := none
          completionLeaseOwner := none
          completionLeaseExpiresAtMs := none } totals updatedAtMs) }
  | destinationCommitRecorded {upload : MultipartUpload} {totals : ℕ × ℕ} {updatedAtMs : ℤ}
      {permit : DestinationCommitPermit} {record : DestinationCommitRecord}
      (hupload : snapshot.upload = some upload)
      (hpermit : upload.Permits permit) (hcommit : upload.destinationCommit = none) :
      Reduced snapshot identity (.destinationCommitRecorded permit record updatedAtMs)
        { snapshot with
          upload := some (MultipartUpload.accounted { upload with
            destinationCommit := some record } totals updatedAtMs) }
  | destinationCommitReleased {upload : MultipartUpload} {totals : ℕ × ℕ} {updatedAtMs : ℤ}
      {permit : DestinationCommitPermit}
      (hupload : snapshot.upload = some upload)
      (hpermit : upload.Permits permit) (hcommit : upload.destinationCommit = none) :
      Reduced snapshot identity (.destinationCommitReleased permit updatedAtMs) { snapshot with
        upload := some (MultipartUpload.accounted { upload with
          lifecycle := .completing
          destinationOperationId := none
          publishingStartedAtMs := none
          completionLeaseOwner := none
          completionLeaseExpiresAtMs := some updatedAtMs } totals updatedAtMs) }
  | completionCompleted {upload : MultipartUpload} {totals : ℕ × ℕ}
      {updatedAtMs tombstoneUntilMs : ℤ} {permit : DestinationCommitPermit}
      {record : DestinationCommitRecord}
      (hupload : snapshot.upload = some upload)
      (hpermit : upload.Permits permit) (hcommit : upload.destinationCommit = some record) :
      Reduced snapshot identity
        (.completionCompleted permit record.result updatedAtMs tombstoneUntilMs) { snapshot with
          upload := some (MultipartUpload.accounted { upload with
            lifecycle := .completed
            completionResult := some record.result
            completionLeaseOwner := none
            completionLeaseExpiresAtMs := none
            tombstoneUntilMs := some tombstoneUntilMs } totals updatedAtMs)
          attempts := retireCurrentAttempts snapshot.attempts }
  | destinationCommitReferenceCleared {upload : MultipartUpload} {totals : ℕ × ℕ} {updatedAtMs : ℤ}
      {operationId : Uuid}
      (hupload : snapshot.upload = some upload)
      (hterminal : isTerminal upload.lifecycle = true)
      (hoperation : upload.destinationOperationId = some operationId) :
      Reduced snapshot identity (.destinationCommitReferenceCleared operationId updatedAtMs)
        { snapshot with
          upload := some (MultipartUpload.accounted { upload with
            destinationOperationId := none
            destinationCommit := none
            publishingStartedAtMs := none } totals updatedAtMs) }
  | uploadAborted {upload : MultipartUpload} {totals : ℕ × ℕ} {updatedAtMs tombstoneUntilMs : ℤ}
      (hupload : snapshot.upload = some upload) (hopen : upload.lifecycle = .opened) :
      Reduced snapshot identity (.uploadAborted updatedAtMs tombstoneUntilMs)
        (snapshot.ended upload totals .aborted updatedAtMs tombstoneUntilMs)
  | uploadExpired {upload : MultipartUpload} {totals : ℕ × ℕ} {updatedAtMs tombstoneUntilMs : ℤ}
      (hupload : snapshot.upload = some upload) (hopen : upload.lifecycle = .opened) :
      Reduced snapshot identity (.uploadExpired updatedAtMs tombstoneUntilMs)
        (snapshot.ended upload totals .expired updatedAtMs tombstoneUntilMs)
  | cleanupAudited {upload : MultipartUpload} {audit : CleanupAudit}
      (hupload : snapshot.upload = some upload) :
      Reduced snapshot identity (.cleanupAudited audit)
        { snapshot with cleanupAudits := snapshot.cleanupAudits ++ [audit] }
  | terminalUploadDeleted {upload : MultipartUpload}
      (hupload : snapshot.upload = some upload)
      (hlifecycle : upload.lifecycle = .aborted ∨ upload.lifecycle = .expired) :
      Reduced snapshot identity .terminalUploadDeleted
        { snapshot with upload := none, cleanupAudits := [] }
  | terminalUploadRetired {upload : MultipartUpload} {updatedAtMs : ℤ}
      (hupload : snapshot.upload = some upload)
      (hterminal : isTerminal upload.lifecycle = true) (hcommit : upload.destinationCommit = none) :
      Reduced snapshot identity (.terminalUploadRetired updatedAtMs)
        { snapshot with upload := none, cleanupAudits := [] }

theorem terminalWithoutCommit_ok {lifecycle : MultipartLifecycle}
    {updatedAtMs tombstoneUntilMs : ℤ}
    (h : terminalWithoutCommit snapshot lifecycle updatedAtMs tombstoneUntilMs = .ok snapshot') :
    ∃ upload totals, snapshot.upload = some upload ∧ upload.lifecycle = .opened ∧
      snapshot' = snapshot.ended upload totals lifecycle updatedAtMs tombstoneUntilMs := by
  simp only [terminalWithoutCommit, bind_eq_ok, rejectIf_eq_ok, exists_const, requireUpload_eq_ok,
    not_not] at h
  obtain ⟨_, -, upload, hupload, hopen, hset⟩ := h
  obtain ⟨totals, rfl⟩ := setUpdatedAt_ok hset rfl
  exact ⟨upload, totals, hupload, hopen, rfl⟩

theorem reduceTransition_reduced {event : FileMultipartEventV1}
    (h : reduceTransition ext snapshot event = .ok snapshot') :
    Reduced snapshot event.identity event.transition snapshot' := by
  obtain ⟨_, _, _, identity, transition⟩ := event
  simp only [reduceTransition, bind_eq_ok] at h
  obtain ⟨_, -, h⟩ := h
  cases transition with
  | uploadCreated upload =>
      simp only [Multipart.uploadCreated, bind_eq_ok, rejectIf_eq_ok, exists_const, not_or,
        pure_eq_ok, Option.not_isSome_iff_eq_none] at h
      obtain ⟨⟨hidentity, hupload⟩, -, rfl⟩ := h
      exact .uploadCreated hidentity hupload
  | partReplaced part updatedAtMs =>
      simp only [Multipart.partReplaced, bind_eq_ok, rejectIf_eq_ok, exists_const,
        requireOpen_eq_ok] at h
      obtain ⟨upload, ⟨hupload, hopen⟩, -, -, -, -, hset⟩ := h
      obtain ⟨totals, rfl⟩ := setUpdatedAt_ok hset hupload
      exact .partReplaced hupload hopen
  | partReserved pending createdAtMs =>
      simp only [Multipart.partReserved, bind_eq_ok, rejectIf_eq_ok, exists_const,
        requireOpen_eq_ok] at h
      obtain ⟨upload, ⟨hupload, hopen⟩, -, -, -, hset⟩ := h
      obtain ⟨totals, rfl⟩ := setUpdatedAt_ok hset hupload
      exact .partReserved hupload hopen
  | partCommitted pending part updatedAtMs =>
      simp only [Multipart.partCommitted, bind_eq_ok, rejectIf_eq_ok, exists_const,
        requireOpen_eq_ok, okOr_eq_ok, not_or, not_not] at h
      obtain ⟨upload, ⟨hupload, hopen⟩, -, -, index, -, ⟨-, -, hnumber, hattempt, -⟩, attempt,
        hget, ⟨-, -, hnumber', hattempt'⟩, hset⟩ := h
      obtain ⟨totals, rfl⟩ := setUpdatedAt_ok hset hupload
      exact .partCommitted hupload hopen hget (hnumber'.trans hnumber.symm)
        (hattempt'.trans hattempt.symm)
  | artifactDeleted artifactKey updatedAtMs =>
      simp only [Multipart.artifactDeleted, bind_eq_ok, rejectIf_eq_ok, exists_const,
        okOr_eq_ok] at h
      obtain ⟨index, hindex, attempt, hget, hguard, hset⟩ := h
      obtain ⟨attempt', hget', hkey⟩ := attemptIndex_ok hindex
      obtain rfl : attempt = attempt' := Option.some.inj (hget.symm.trans hget')
      obtain ⟨upload, hupload, -⟩ := bind_eq_ok.mp hset
      have hupload : snapshot.upload = some upload := requireUpload_eq_ok.mp hupload
      obtain ⟨totals, rfl⟩ := setUpdatedAt_ok hset hupload
      exact .artifactDeleted hupload hget hkey fun hactive hcurrent =>
        hguard ⟨hcurrent, upload, hupload, hactive⟩
  | completionAcquired fingerprint selectedParts owner leaseExpiresAtMs fencingToken updatedAtMs =>
      simp only [acquireCompletion, bind_eq_ok, rejectIf_eq_ok, exists_const, requireUpload_eq_ok,
        not_or, not_not] at h
      obtain ⟨upload, hupload, hlifecycle, -, hfingerprint, -, -, ⟨htoken, -⟩, -, -, hset⟩ := h
      obtain ⟨totals, rfl⟩ := setUpdatedAt_ok hset rfl
      refine .completionAcquired hupload (by tauto) (fun old hold => ?_) htoken
      by_contra hne
      exact hfingerprint ⟨old, hold, hne⟩
  | completionRenewed fencingToken leaseExpiresAtMs updatedAtMs =>
      simp only [Multipart.completionRenewed, bind_eq_ok, rejectIf_eq_ok, exists_const,
        requireUpload_eq_ok, not_or, not_not] at h
      obtain ⟨upload, hupload, ⟨hcompleting, rfl⟩, -, hset⟩ := h
      obtain ⟨totals, rfl⟩ := setUpdatedAt_ok hset rfl
      exact .completionRenewed hupload hcompleting
  | destinationCommitBegun permit publishingStartedAtMs =>
      simp only [beginDestinationCommit, bind_eq_ok, rejectIf_eq_ok, exists_const,
        requireUpload_eq_ok, not_or, not_not] at h
      obtain ⟨upload, hupload, ⟨hcompleting, hfingerprint, htoken, -⟩, hset⟩ := h
      obtain ⟨totals, rfl⟩ := setUpdatedAt_ok hset rfl
      exact .destinationCommitBegun hupload hcompleting hfingerprint htoken
  | destinationCommitRecorded permit record updatedAtMs =>
      simp only [Multipart.destinationCommitRecorded, bind_eq_ok, rejectIf_eq_ok, exists_const,
        requireUpload_eq_ok, Option.not_isSome_iff_eq_none] at h
      obtain ⟨_, hpermit, -, upload, hupload, hcommit, hset⟩ := h
      obtain ⟨totals, rfl⟩ := setUpdatedAt_ok hset rfl
      exact .destinationCommitRecorded hupload (validatePermit_ok hpermit hupload) hcommit
  | destinationCommitReleased permit updatedAtMs =>
      simp only [Multipart.destinationCommitReleased, bind_eq_ok, rejectIf_eq_ok, exists_const,
        requireUpload_eq_ok, Option.not_isSome_iff_eq_none] at h
      obtain ⟨_, hpermit, upload, hupload, hcommit, hset⟩ := h
      obtain ⟨totals, rfl⟩ := setUpdatedAt_ok hset rfl
      exact .destinationCommitReleased hupload (validatePermit_ok hpermit hupload) hcommit
  | completionCompleted permit result completedAtMs tombstoneUntilMs =>
      simp only [Multipart.completionCompleted, bind_eq_ok, rejectIf_eq_ok, exists_const,
        requireUpload_eq_ok, not_not, Option.map_eq_some_iff] at h
      obtain ⟨_, hpermit, -, -, upload, hupload, ⟨record, hcommit, rfl⟩, hset⟩ := h
      obtain ⟨totals, rfl⟩ := setUpdatedAt_ok hset rfl
      exact .completionCompleted hupload (validatePermit_ok hpermit hupload) hcommit
  | destinationCommitReferenceCleared operationId updatedAtMs =>
      simp only [Multipart.destinationCommitReferenceCleared, bind_eq_ok, rejectIf_eq_ok,
        exists_const, requireUpload_eq_ok, not_or, not_not] at h
      obtain ⟨upload, hupload, ⟨hterminal, hoperation⟩, hset⟩ := h
      obtain ⟨totals, rfl⟩ := setUpdatedAt_ok hset rfl
      exact .destinationCommitReferenceCleared hupload hterminal hoperation
  | uploadAborted abortedAtMs tombstoneUntilMs =>
      obtain ⟨upload, totals, hupload, hopen, rfl⟩ := terminalWithoutCommit_ok h
      exact .uploadAborted hupload hopen
  | uploadExpired expiredAtMs tombstoneUntilMs =>
      simp only [Multipart.uploadExpired, bind_eq_ok, rejectIf_eq_ok, exists_const] at h
      obtain ⟨-, -, -, hended⟩ := h
      obtain ⟨upload, totals, hupload, hopen, rfl⟩ := terminalWithoutCommit_ok hended
      exact .uploadExpired hupload hopen
  | cleanupAudited audit =>
      simp only [Multipart.cleanupAudited, bind_eq_ok, rejectIf_eq_ok, exists_const,
        requireUpload_eq_ok, pure_eq_ok] at h
      obtain ⟨upload, hupload, -, -, -, -, -, rfl⟩ := h
      exact .cleanupAudited hupload
  | terminalUploadDeleted =>
      simp only [Multipart.terminalUploadDeleted, bind_eq_ok, rejectIf_eq_ok, exists_const,
        requireUpload_eq_ok, not_or, not_not, pure_eq_ok] at h
      obtain ⟨upload, hupload, ⟨hlifecycle, -, -⟩, rfl⟩ := h
      exact .terminalUploadDeleted hupload (by tauto)
  | terminalUploadRetired retiredAtMs =>
      simp only [Multipart.terminalUploadRetired, bind_eq_ok, rejectIf_eq_ok, exists_const,
        requireUpload_eq_ok, not_or, not_not, Option.not_isSome_iff_eq_none, pure_eq_ok] at h
      obtain ⟨upload, hupload, ⟨hterminal, -, -, hcommit, -⟩, rfl⟩ := h
      exact .terminalUploadRetired hupload hterminal hcommit

end Maskura.Multipart
