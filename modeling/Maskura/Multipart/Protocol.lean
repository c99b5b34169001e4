import Maskura.Lib.FencedCommit
import Maskura.Multipart.Arms

/-!
The reducer carries out the fenced commit protocol: every event that it
applies to a valid snapshot is a step of the protocol between the phases of
the two snapshots. What the protocol guarantees thereby holds of the
reducer's runs.
-/

namespace Maskura.Multipart

open Maskura.Lib Maskura.Lib.FencedCommit

/-- The phases of an upload: requests are fingerprints, operations are
destination operation ids. -/
abbrev UploadPhase :=
  Phase (Option String) (Option Uuid) DestinationCommitRecord (Option MultipartCompletionResult)

abbrev UploadAction :=
  Action (Option String) (Option Uuid) DestinationCommitRecord (Option MultipartCompletionResult)

/-- The result that a recorded commit stands for. -/
def recordResult (record : DestinationCommitRecord) : Option MultipartCompletionResult :=
  some record.result

def MultipartUpload.phase (upload : MultipartUpload) : UploadPhase :=
  match upload.lifecycle with
  | .opened => .opened
  | .completing => .claimed upload.completeRequestFingerprint upload.completionFencingToken
  | .publishing =>
      .publishing upload.completeRequestFingerprint upload.completionFencingToken
        upload.destinationOperationId upload.destinationCommit
  | .completed =>
      .completed upload.completionFencingToken upload.completionResult upload.destinationCommit
  | .aborted | .expired => .cancelled

def FileMultipartSnapshotV1.phase (snapshot : FileMultipartSnapshotV1) : UploadPhase :=
  match snapshot.upload with
  | some upload => upload.phase
  | none => if snapshot.identity.isSome then .gone else .fresh

def FileMultipartTransitionV1.action : FileMultipartTransitionV1 → UploadAction
  | .uploadCreated _ => .create
  | .partReplaced _ _ | .partReserved _ _ | .partCommitted _ _ _ => .edit
  | .artifactDeleted _ _ | .cleanupAudited _ => .note
  | .completionAcquired fingerprint _ _ _ fencingToken _ => .claim (some fingerprint) fencingToken
  | .completionRenewed fencingToken _ _ => .renew fencingToken
  | .destinationCommitBegun permit _ =>
      .start (some permit.completionFingerprint) permit.fencingToken (some permit.operationId)
  | .destinationCommitRecorded permit record _ =>
      .record (some permit.completionFingerprint) permit.fencingToken (some permit.operationId)
        record
  | .destinationCommitReleased permit _ =>
      .release (some permit.completionFingerprint) permit.fencingToken (some permit.operationId)
  | .completionCompleted permit result _ _ =>
      .complete (some permit.completionFingerprint) permit.fencingToken (some permit.operationId)
        (some result)
  | .destinationCommitReferenceCleared _ _ => .clear
  | .uploadAborted _ _ | .uploadExpired _ _ => .cancel
  | .terminalUploadDeleted | .terminalUploadRetired _ => .retire

/-! ### Phases of snapshots -/

variable {snapshot snapshot' : FileMultipartSnapshotV1} {upload : MultipartUpload}

theorem phase_of_upload (h : snapshot.upload = some upload) : snapshot.phase = upload.phase := by
  simp [FileMultipartSnapshotV1.phase, h]

theorem phase_of_none (h : snapshot.upload = none) {identity : MultipartIdentity}
    (hidentity : snapshot.identity = some identity) : snapshot.phase = .gone := by
  simp [FileMultipartSnapshotV1.phase, h, hidentity]

theorem phase_opened (h : upload.lifecycle = .opened) : upload.phase = .opened := by
  simp [MultipartUpload.phase, h]

theorem phase_completing (h : upload.lifecycle = .completing) :
    upload.phase =
      .claimed upload.completeRequestFingerprint upload.completionFencingToken := by
  simp [MultipartUpload.phase, h]

theorem phase_publishing (h : upload.lifecycle = .publishing) :
    upload.phase =
      .publishing upload.completeRequestFingerprint upload.completionFencingToken
        upload.destinationOperationId upload.destinationCommit := by
  simp [MultipartUpload.phase, h]

theorem phase_completed (h : upload.lifecycle = .completed) :
    upload.phase =
      .completed upload.completionFencingToken upload.completionResult
        upload.destinationCommit := by
  simp [MultipartUpload.phase, h]

theorem phase_cancelled (h : upload.lifecycle = .aborted ∨ upload.lifecycle = .expired) :
    upload.phase = .cancelled := by
  rcases h with h | h <;> simp [MultipartUpload.phase, h]

theorem phase_ne_fresh (upload : MultipartUpload) : upload.phase ≠ .fresh := by
  intro h
  cases hlifecycle : upload.lifecycle <;> simp [MultipartUpload.phase, hlifecycle] at h

theorem isTerminal_iff {lifecycle : MultipartLifecycle} :
    isTerminal lifecycle = true ↔
      lifecycle = .completed ∨ lifecycle = .aborted ∨ lifecycle = .expired := by
  simp [isTerminal]

/-! ### Valid uploads -/

/-- What validity says about the upload of a snapshot. -/
theorem validateSnapshot_upload (h : validateSnapshot snapshot = .ok ())
    (hupload : snapshot.upload = some upload) :
    snapshot.identity = some upload.identity ∧ validateUpload upload = .ok () := by
  simp only [validateSnapshot, bind_eq_ok, rejectIf_eq_ok, exists_const] at h
  obtain ⟨-, -, h⟩ := h
  cases hidentity : snapshot.identity with
  | none => simp [hidentity, hupload] at h
  | some identity =>
      simp only [hidentity, validateSnapshotUpload, hupload, bind_eq_ok, rejectIf_eq_ok,
        exists_const, not_not] at h
      obtain ⟨_, -, _, ⟨hsame, hvalid⟩, -⟩ := h
      exact ⟨by rw [hsame], hvalid⟩

theorem validateUpload_fields (h : validateUpload upload = .ok ()) :
    lifecycleFields upload = .ok () := by
  simp only [validateUpload, bind_eq_ok, rejectIf_eq_ok, exists_const] at h
  obtain ⟨_, -, -, _, hfields, -⟩ := h
  exact hfields

/-- An open upload was never claimed. -/
theorem token_of_opened (h : validateUpload upload = .ok ()) (hopen : upload.lifecycle = .opened) :
    upload.completionFencingToken = 0 := by
  have hfields := validateUpload_fields h
  simp only [lifecycleFields, hopen, rejectIf_eq_ok, not_or, not_not] at hfields
  exact hfields.2.2.2.1

/-- A claimed upload keeps its fingerprint when it is claimed again. -/
theorem fingerprint_of_completing (h : validateUpload upload = .ok ())
    (hcompleting : upload.lifecycle = .completing) {fingerprint : String}
    (hsame : ∀ old ∈ upload.completeRequestFingerprint, old = fingerprint) :
    upload.completeRequestFingerprint = some fingerprint := by
  have hfields := validateUpload_fields h
  simp only [lifecycleFields, hcompleting, rejectIf_eq_ok, not_or] at hfields
  cases hold : upload.completeRequestFingerprint with
  | none => simp [hold] at hfields
  | some old => rw [hsame old hold]

/-- Of the terminal uploads only a completed one refers to an operation, and
then to its commit. -/
theorem commit_of_terminal (h : validateUpload upload = .ok ())
    (hterminal : isTerminal upload.lifecycle = true) {operation : Uuid}
    (hoperation : upload.destinationOperationId = some operation) :
    upload.lifecycle = .completed ∧ ∃ record, upload.destinationCommit = some record := by
  have hfields := validateUpload_fields h
  rcases isTerminal_iff.mp hterminal with hcompleted | habsent
  · refine ⟨hcompleted, ?_⟩
    simp only [lifecycleFields, hcompleted, rejectIf_eq_ok, not_or, not_not, hoperation,
      Option.isSome_some] at hfields
    exact Option.isSome_iff_exists.mp hfields.2.2.2.1.symm
  · rcases habsent with habsent | habsent <;>
      simp [lifecycleFields, habsent, hoperation] at hfields

/-! ### The simulation -/

section Simulation

variable {ext : Externals} {event : FileMultipartEventV1}

theorem MultipartUpload.Permits.phase {permit : DestinationCommitPermit}
    (h : upload.Permits permit) : upload.phase = .publishing (some permit.completionFingerprint)
      permit.fencingToken (some permit.operationId) upload.destinationCommit := by
  rw [phase_publishing h.publishing, h.fingerprint, h.token, h.operation]

theorem phase_retired (hvalid : validateSnapshot snapshot = .ok ())
    (hupload : snapshot.upload = some upload) : FileMultipartSnapshotV1.phase
      { snapshot with upload := none, cleanupAudits := [] } = .gone :=
  phase_of_none rfl (validateSnapshot_upload hvalid hupload).1

/-- Reducing an event to a valid snapshot takes the step of the protocol that
the event stands for. -/
theorem reduceTransition_step (hvalid : validateSnapshot snapshot = .ok ())
    (h : reduceTransition ext snapshot event = .ok snapshot') :
    Step recordResult snapshot.phase event.transition.action snapshot'.phase := by
  have hreduced := reduceTransition_reduced h
  generalize event.transition = transition at hreduced ⊢
  cases hreduced with
  | @uploadCreated created hnone hupload =>
      have hfresh : snapshot.phase = .fresh := by
        simp [FileMultipartSnapshotV1.phase, hupload, hnone]
      rw [hfresh]
      exact .create _ (phase_ne_fresh created)
  | @partReplaced upload _ _ _ hupload hopen | @partReserved upload _ _ _ hupload hopen
  | @partCommitted upload _ _ _ _ _ _ hupload hopen =>
      rw [phase_of_upload hupload]
      show Step recordResult upload.phase .edit upload.phase
      rw [phase_opened hopen]
      exact .edit
  | @artifactDeleted upload _ _ _ _ _ hupload =>
      rw [phase_of_upload hupload]
      exact .note _ (phase_ne_fresh upload)
  | @completionAcquired upload _ token fingerprint _ _ _ _ hupload hlifecycle hfingerprint htoken =>
      have hfields := (validateSnapshot_upload hvalid hupload).2
      rw [phase_of_upload hupload]
      show Step recordResult upload.phase (.claim (some fingerprint) token)
        (.claimed (some fingerprint) token)
      rcases hlifecycle with hopen | hcompleting
      · rw [phase_opened hopen, htoken, token_of_opened hfields hopen]
        exact .claim _
      · have hsame := fingerprint_of_completing hfields hcompleting hfingerprint
        rw [phase_completing hcompleting, htoken, hsame]
        exact .reclaim _ _
  | @completionRenewed upload _ _ _ hupload hcompleting =>
      rw [phase_of_upload hupload]
      show Step recordResult upload.phase (.renew upload.completionFencingToken) upload.phase
      rw [phase_completing hcompleting]
      exact .renew _ _
  | @destinationCommitBegun upload _ _ permit hupload hcompleting hfingerprint htoken =>
      rw [phase_of_upload hupload]
      show Step recordResult upload.phase _ (.publishing upload.completeRequestFingerprint
        upload.completionFencingToken (some permit.operationId) none)
      rw [phase_completing hcompleting, hfingerprint, htoken]
      exact .start _ _ _
  | @destinationCommitRecorded upload _ _ _ record hupload hpermit hcommit =>
      have hafter : MultipartUpload.phase { upload with destinationCommit := some record } =
          .publishing upload.completeRequestFingerprint upload.completionFencingToken
            upload.destinationOperationId (some record) :=
        phase_publishing hpermit.publishing
      rw [phase_of_upload hupload]
      show Step recordResult upload.phase _ (MultipartUpload.phase
        { upload with destinationCommit := some record })
      rw [hafter, hpermit.phase, hcommit, hpermit.fingerprint, hpermit.token, hpermit.operation]
      exact .record _ _ _ _
  | @destinationCommitReleased upload _ _ _ hupload hpermit hcommit =>
      rw [phase_of_upload hupload]
      show Step recordResult upload.phase _ (.claimed upload.completeRequestFingerprint
        upload.completionFencingToken)
      rw [hpermit.phase, hcommit, hpermit.fingerprint, hpermit.token]
      exact .release _ _ _
  | @completionCompleted upload _ _ _ _ record hupload hpermit hcommit =>
      rw [phase_of_upload hupload]
      show Step recordResult upload.phase _ (.completed upload.completionFencingToken
        (some record.result) upload.destinationCommit)
      rw [hpermit.phase, hcommit, hpermit.token]
      exact .complete _ _ _ _
  | @destinationCommitReferenceCleared upload _ _ _ hupload hterminal hoperation =>
      obtain ⟨hcompleted, record, hcommit⟩ :=
        commit_of_terminal (validateSnapshot_upload hvalid hupload).2 hterminal hoperation
      have hafter : MultipartUpload.phase { upload with
          destinationOperationId := none, destinationCommit := none,
          publishingStartedAtMs := none } =
          .completed upload.completionFencingToken upload.completionResult none :=
        phase_completed hcompleted
      rw [phase_of_upload hupload]
      show Step recordResult upload.phase .clear (MultipartUpload.phase { upload with
        destinationOperationId := none, destinationCommit := none, publishingStartedAtMs := none })
      rw [hafter, phase_completed hcompleted, hcommit]
      exact .clear _ _ _
  | uploadAborted hupload hopen | uploadExpired hupload hopen =>
      rw [phase_of_upload hupload, phase_opened hopen]
      exact .cancel
  | @cleanupAudited upload audit hupload =>
      have hafter : FileMultipartSnapshotV1.phase
          { snapshot with cleanupAudits := snapshot.cleanupAudits ++ [audit] } = upload.phase :=
        phase_of_upload hupload
      rw [phase_of_upload hupload, hafter]
      exact .note _ (phase_ne_fresh upload)
  | terminalUploadDeleted hupload hlifecycle =>
      rw [phase_of_upload hupload, phase_cancelled hlifecycle, phase_retired hvalid hupload]
      exact .retireCancelled
  | terminalUploadRetired hupload hterminal hcommit =>
      rw [phase_of_upload hupload, phase_retired hvalid hupload]
      rcases isTerminal_iff.mp hterminal with hcompleted | hcancelled
      · rw [phase_completed hcompleted, hcommit]
        exact .retireCompleted _ _
      · rw [phase_cancelled hcancelled]
        exact .retireCancelled

end Simulation

end Maskura.Multipart
