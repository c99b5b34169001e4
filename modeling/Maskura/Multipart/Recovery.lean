import Maskura.Lib.EarlyExit
import Maskura.Multipart.Repository

/-!
One pass of the recovery: artifacts that nobody needs are confirmed as deleted,
uploads that were publishing are recovered, and open uploads past their time are
expired. Every step of the pass that fails ends it.

What a step comes to is given for each upload; of the repository the pass sees
the uploads, with their lifecycles.
-/

namespace Maskura.Multipart

open Maskura.Lib Maskura.Lib.Stateful Maskura.Persistence

inductive PublishingRecovery
  | completed
  | released
  | pending
  deriving DecidableEq, Repr

/-- What the steps of a pass come to. The errors are those of `anyhow`. -/
structure RecoverySteps where
  /-- The checks of the file store, if there is one. -/
  commitProofs : Except String Unit
  /-- `cleanup_candidates`. -/
  candidates : List CleanupCandidate
  deleteArtifact : CleanupCandidate → Except StagingError Unit
  confirmArtifactDeleted : CleanupCandidate → Except StagingError Unit
  audit : CleanupCandidate → Except StagingError Unit
  /-- `known_artifact_keys` and the listing of the artifacts. -/
  listArtifacts : Except StagingError Unit
  recoverPublishing : PublishingMultipartUpload → Except String PublishingRecovery
  /-- The transition `UploadExpired` of an upload. -/
  expire : String → Except StagingError Unit
  /-- What comes after the uploads are reaped. -/
  rest : Except String Unit

structure RecoveryState where
  uploads : List MultipartUpload
  /-- The uploads that `recover_publishing` was called for. -/
  attempted : List String

abbrev RecoveryPass (α : Type) := Stateful String RecoveryState α

/-- Change the upload with this id. -/
def updateUpload (uploadId : String) (f : MultipartUpload → MultipartUpload)
    (uploads : List MultipartUpload) : List MultipartUpload :=
  uploads.map fun upload => if upload.identity.uploadId = uploadId then f upload else upload

/-- Where a recovery leaves its upload. -/
def PublishingRecovery.apply (recovery : PublishingRecovery) (upload : MultipartUpload) :
    MultipartUpload :=
  match recovery with
  | .completed => { upload with lifecycle := .completed }
  | .released => { upload with lifecycle := .completing }
  | .pending => upload

def expireAt (now : ℤ) (upload : MultipartUpload) : MultipartUpload :=
  { upload with
    lifecycle := .expired
    tombstoneUntilMs := some (now + defaultExpiryMs)
    updatedAtMs := now }

def isExpiredOpen (now : ℤ) (upload : MultipartUpload) : Bool :=
  upload.lifecycle = .opened ∧ upload.expiresAtMs ≤ now

/-- The order of `publishing_uploads`. -/
def publishingOrder (uploads : List MultipartUpload) : List MultipartUpload :=
  let started (upload : MultipartUpload) : ℤ := upload.publishingStartedAtMs.getD (-2 ^ 63)
  (uploads.filter fun upload => upload.lifecycle = .publishing).insertionSort fun left right =>
    started left < started right ∨
      started left = started right ∧ left.identity.uploadId ≤ right.identity.uploadId

namespace MultipartRecoveryRuntime

variable (S : RecoverySteps) (now : ℤ) (limit : ℕ)

/-- The candidates of `reconcile_staged_artifacts`. An artifact that cannot be
deleted is passed over; one that is deleted must be confirmed. -/
def reconcileCandidate (candidate : CleanupCandidate) : RecoveryPass Unit :=
  match S.deleteArtifact candidate with
  | .error _ => pure ()
  | .ok () => do
      check ((S.confirmArtifactDeleted candidate).mapError StagingError.message)
      check ((S.audit candidate).mapError StagingError.message)

def reconcileStagedArtifacts : RecoveryPass Unit := do
  (S.candidates.take limit).forM (reconcileCandidate S)
  check (S.listArtifacts.mapError StagingError.message)

def publishingUploads : RecoveryPass (List PublishingMultipartUpload) := do
  let s ← get
  check ((((publishingOrder s.uploads).take limit).mapM publishingUpload).mapError
    StagingError.message)

def recoverPublishing (publishing : PublishingMultipartUpload) : RecoveryPass Unit := do
  modify fun s => { s with attempted := s.attempted ++ [publishing.identity.uploadId] }
  let recovery ← check (S.recoverPublishing publishing)
  modify fun s => { s with
    uploads := updateUpload publishing.identity.uploadId recovery.apply s.uploads }

def expireUpload (upload : MultipartUpload) : RecoveryPass Unit := do
  reject (now + defaultExpiryMs > i64Max)
    (StagingError.message (corruptState "multipart tombstone timestamp overflow"))
  check ((S.expire upload.identity.uploadId).mapError StagingError.message)
  modify fun s => { s with
    uploads := updateUpload upload.identity.uploadId (expireAt now) s.uploads }

def reapExpired : RecoveryPass Unit := do
  let s ← get
  ((s.uploads.filter (isExpiredOpen now)).take limit).forM (expireUpload S now)

def runOnce : RecoveryPass Unit := do
  let limit := max limit 1
  check S.commitProofs
  reconcileStagedArtifacts S limit
  let publishing ← publishingUploads limit
  publishing.forM (recoverPublishing S)
  reapExpired S now limit
  check S.rest

end MultipartRecoveryRuntime

/-- The steps that belong to no single upload succeed. -/
structure RecoverySteps.Healthy (S : RecoverySteps) : Prop where
  commitProofs : S.commitProofs = .ok ()
  listArtifacts : S.listArtifacts = .ok ()

/-- The uploads of a repository, by their ids. -/
structure UploadTable where
  uploads : List MultipartUpload
  distinct : (uploads.map fun upload => upload.identity.uploadId).Nodup

/-- A step of the pass for one upload. -/
inductive UploadStep
  | confirm (candidate : CleanupCandidate)
  | recover (upload : MultipartUpload)
  | expire (upload : MultipartUpload)

namespace UploadStep

variable (S : RecoverySteps) (now : ℤ)

/-- Whether the step succeeds by itself. -/
def succeeds : UploadStep → Bool
  | confirm candidate => !(S.deleteArtifact candidate).isOk ||
      ((S.confirmArtifactDeleted candidate).isOk && (S.audit candidate).isOk)
  | recover upload => match publishingUpload upload with
    | .ok publishing => (S.recoverPublishing publishing).isOk
    | .error _ => false
  | expire upload => decide (now + defaultExpiryMs ≤ i64Max) &&
      (S.expire upload.identity.uploadId).isOk

/-- A recovery is to be attempted in any case; an expiry is to be done when it
can be done. -/
def matters : UploadStep → Bool
  | confirm _ => false
  | recover _ => true
  | expire upload => (expire upload).succeeds S now

end UploadStep

/-- The steps for the uploads in the order of the pass. -/
def uploadSteps (S : RecoverySteps) (now : ℤ) (limit : ℕ) (table : UploadTable) : List UploadStep :=
  (S.candidates.take (max limit 1)).map .confirm ++ (publishingOrder table.uploads).map .recover ++
    (table.uploads.filter (isExpiredOpen now)).map .expire

def lifecycleOf (uploads : List MultipartUpload) (uploadId : String) : Option MultipartLifecycle :=
  (uploads.find? fun upload => upload.identity.uploadId = uploadId).map MultipartUpload.lifecycle

/-- The pass attempts every recovery and reaps every expired upload that can be
reaped. -/
def RecoversAll (S : RecoverySteps) (now : ℤ) (limit : ℕ) (table : UploadTable) : Prop :=
  let final := ((MultipartRecoveryRuntime.runOnce S now limit).exec ⟨table.uploads, []⟩).2
  (∀ upload ∈ table.uploads, upload.lifecycle = .publishing →
      upload.identity.uploadId ∈ final.attempted) ∧
    ∀ upload ∈ table.uploads, isExpiredOpen now upload = true →
      (UploadStep.expire upload).succeeds S now = true →
      lifecycleOf final.uploads upload.identity.uploadId = some .expired

/-- Every publishing upload can be listed, and no step that fails stands before
a recovery or before an expiry that would succeed. -/
def Unblocked (S : RecoverySteps) (now : ℤ) (limit : ℕ) (table : UploadTable) : Prop :=
  (∀ upload ∈ table.uploads, upload.lifecycle = .publishing →
      ∃ publishing, publishingUpload upload = .ok publishing) ∧
    (uploadSteps S now limit table).Pairwise fun earlier later =>
      earlier.succeeds S now = false → later.matters S now = false

/-! ### What the steps change -/

/-- The listed form of an upload that has everything a publishing one needs. -/
def publishingOf (upload : MultipartUpload) : PublishingMultipartUpload where
  identity := upload.identity
  permit := ⟨upload.identity.uploadId, upload.completeRequestFingerprint.getD "",
    upload.completionFencingToken, upload.destinationOperationId.getD 0⟩
  publishingStartedAtMs := upload.publishingStartedAtMs.getD 0
  destinationCommit := upload.destinationCommit

theorem publishingUpload_eq_ok {upload : MultipartUpload} {publishing : PublishingMultipartUpload}
    (h : publishingUpload upload = .ok publishing) : publishing = publishingOf upload := by
  simp only [publishingUpload, bind_eq_ok, okOr_eq_ok, pure_eq_ok] at h
  obtain ⟨fingerprint, hfingerprint, operationId, hoperation, started, hstarted, rfl⟩ := h
  simp [publishingOf, hfingerprint, hoperation, hstarted]

/-- The state behind a step, whether it fails or not. -/
def UploadStep.effect (S : RecoverySteps) (now : ℤ) (s : RecoveryState) : UploadStep → RecoveryState
  | .confirm _ => s
  | .recover upload =>
      { uploads := match S.recoverPublishing (publishingOf upload) with
          | .ok recovery => updateUpload upload.identity.uploadId recovery.apply s.uploads
          | .error _ => s.uploads
        attempted := s.attempted ++ [upload.identity.uploadId] }
  | .expire upload =>
      if (UploadStep.expire upload).succeeds S now then
        { s with uploads := updateUpload upload.identity.uploadId (expireAt now) s.uploads }
      else s

section Steps

variable {S : RecoverySteps} {now : ℤ} {limit : ℕ}
  {upload : MultipartUpload} {uploads : List MultipartUpload}

open MultipartRecoveryRuntime UploadStep

theorem exec_reconcileCandidate (candidate : CleanupCandidate) (s : RecoveryState) :
    ((reconcileCandidate S candidate).exec s).2 = s ∧
      ((reconcileCandidate S candidate).exec s).1.isOk = (confirm candidate).succeeds S now := by
  unfold reconcileCandidate
  simp only [UploadStep.succeeds]
  cases S.deleteArtifact candidate with
  | error error => exact ⟨rfl, rfl⟩
  | ok u =>
      dsimp only
      rw [exec_bind]
      cases S.confirmArtifactDeleted candidate with
      | error error => exact ⟨rfl, rfl⟩
      | ok u =>
          cases S.audit candidate with
          | error error => exact ⟨rfl, rfl⟩
          | ok u => exact ⟨rfl, rfl⟩

theorem exec_recoverPublishing {publishing : PublishingMultipartUpload}
    (h : publishingUpload upload = .ok publishing) (s : RecoveryState) :
    ((recoverPublishing S (publishingOf upload)).exec s).2 = (recover upload).effect S now s ∧
      ((recoverPublishing S (publishingOf upload)).exec s).1.isOk =
        (recover upload).succeeds S now := by
  simp only [UploadStep.succeeds, h, UploadStep.effect, ← publishingUpload_eq_ok h]
  unfold recoverPublishing
  rw [exec_bind]
  have hid : publishing.identity = upload.identity := by rw [publishingUpload_eq_ok h]; rfl
  cases hrecover : S.recoverPublishing publishing with
  | error error =>
      exact ⟨by rw [← hid]; rfl, rfl⟩
  | ok recovery => exact ⟨by rw [← hid]; rfl, rfl⟩

theorem exec_expireUpload (upload : MultipartUpload) (s : RecoveryState) :
    ((expireUpload S now upload).exec s).2 = (expire upload).effect S now s ∧
      ((expireUpload S now upload).exec s).1.isOk = (expire upload).succeeds S now := by
  simp only [UploadStep.effect, UploadStep.succeeds]
  unfold expireUpload
  rw [exec_bind]
  by_cases htime : now + defaultExpiryMs > i64Max
  · have hle : ¬ now + defaultExpiryMs ≤ i64Max := not_le.mpr htime
    rw [reject, rejectIf_pos htime]
    simp only [hle, decide_false, Bool.false_and, Bool.false_eq_true, if_false]
    exact ⟨rfl, rfl⟩
  · have hle : now + defaultExpiryMs ≤ i64Max := not_lt.mp htime
    rw [reject, rejectIf_neg htime]
    simp only [hle, decide_true, Bool.true_and]
    cases S.expire upload.identity.uploadId with
    | error error => exact ⟨rfl, rfl⟩
    | ok u => exact ⟨rfl, rfl⟩

/-! ### The uploads a pass looks at -/

theorem mem_publishingOrder :
    upload ∈ publishingOrder uploads ↔ upload ∈ uploads ∧ upload.lifecycle = .publishing := by
  simp [publishingOrder]

theorem length_publishingOrder_le (uploads : List MultipartUpload) :
    (publishingOrder uploads).length ≤ uploads.length := by
  rw [publishingOrder, List.length_insertionSort]
  exact List.length_filter_le _ _

theorem UploadTable.eq_of_uploadId (table : UploadTable) {a b : MultipartUpload}
    (ha : a ∈ table.uploads) (hb : b ∈ table.uploads)
    (h : a.identity.uploadId = b.identity.uploadId) : a = b :=
  List.inj_on_of_nodup_map table.distinct ha hb h

theorem apply_lifecycle_ne {recovery : PublishingRecovery} (h : upload.lifecycle ≠ .opened) :
    (recovery.apply upload).lifecycle ≠ .opened := by
  cases recovery with
  | completed => simp [PublishingRecovery.apply]
  | released => simp [PublishingRecovery.apply]
  | pending => exact h

theorem isExpiredOpen_eq_false (h : upload.lifecycle ≠ .opened) :
    isExpiredOpen now upload = false := by
  simp [isExpiredOpen, h]

/-- Recoveries leave the open uploads as they are. -/
structure KeepsOpen (table : UploadTable) (now : ℤ) (s : RecoveryState) : Prop where
  expired : s.uploads.filter (isExpiredOpen now) = table.uploads.filter (isExpiredOpen now)
  published : ∀ upload ∈ table.uploads, upload.lifecycle = .publishing → ∀ other ∈ s.uploads,
    other.identity.uploadId = upload.identity.uploadId → other.lifecycle ≠ .opened

theorem keepsOpen_init (table : UploadTable) (attempted : List String) :
    KeepsOpen table now ⟨table.uploads, attempted⟩ where
  expired := rfl
  published := by
    intro upload hupload hlifecycle other hother hid
    rw [table.eq_of_uploadId hother hupload hid, hlifecycle]
    decide

theorem KeepsOpen.recover {table : UploadTable} {s : RecoveryState} (h : KeepsOpen table now s)
    (hupload : upload ∈ table.uploads) (hlifecycle : upload.lifecycle = .publishing) :
    KeepsOpen table now ((UploadStep.recover upload).effect S now s) := by
  simp only [UploadStep.effect]
  cases S.recoverPublishing (publishingOf upload) with
  | error error => exact ⟨h.expired, h.published⟩
  | ok recovery =>
      have hclosed := h.published upload hupload hlifecycle
      refine ⟨?_, ?_⟩
      · refine Eq.trans ?_ h.expired
        dsimp only [updateUpload]
        rw [List.filter_map]
        -- what changes was not open and is not open
        have hsame : s.uploads.filter (isExpiredOpen now ∘ fun other =>
            if other.identity.uploadId = upload.identity.uploadId then recovery.apply other
            else other) = s.uploads.filter (isExpiredOpen now) := by
          refine List.filter_congr fun other hother => ?_
          simp only [Function.comp_apply]
          split
          next hid =>
            have hopen := hclosed other hother hid
            rw [isExpiredOpen_eq_false (apply_lifecycle_ne hopen), isExpiredOpen_eq_false hopen]
          next => rfl
        rw [hsame]
        refine (List.map_congr_left fun other hother => ?_).trans (List.map_id _)
        obtain ⟨hmem, hexpired⟩ := List.mem_filter.mp hother
        refine if_neg fun hid => ?_
        rw [isExpiredOpen_eq_false (hclosed other hmem hid)] at hexpired
        exact absurd hexpired (by decide)
      · intro published hpublished hpublishing other hother hid
        obtain ⟨old, hold, rfl⟩ := List.mem_map.mp hother
        split at hid
        next hsame =>
          rw [if_pos hsame]
          exact apply_lifecycle_ne (hclosed old hold hsame)
        next hother =>
          rw [if_neg hother]
          exact h.published published hpublished hpublishing old hold hid

theorem KeepsOpen.foldl_recover {table : UploadTable}
    (huploads : ∀ upload ∈ uploads, upload ∈ table.uploads ∧ upload.lifecycle = .publishing)
    {s : RecoveryState} (h : KeepsOpen table now s) :
    KeepsOpen table now ((uploads.map UploadStep.recover).foldl (UploadStep.effect S now) s) := by
  induction uploads generalizing s with
  | nil => exact h
  | cons upload uploads ih =>
      obtain ⟨⟨hupload, hlifecycle⟩, hrest⟩ := List.forall_mem_cons.mp huploads
      exact ih hrest (h.recover hupload hlifecycle)

theorem forM_map {α β : Type} (f : β → RecoveryPass Unit) (g : α → β) (xs : List α) :
    (xs.map g).forM f = xs.forM fun x => f (g x) := by
  induction xs with
  | nil => rfl
  | cons x xs ih =>
      change (f (g x) >>= fun _ => (xs.map g).forM f) = _
      rw [ih]
      rfl

theorem foldl_confirm (candidates : List CleanupCandidate) (s : RecoveryState) :
    (candidates.map UploadStep.confirm).foldl (UploadStep.effect S now) s = s := by
  rw [List.foldl_map]
  exact List.foldl_fixed _

theorem exec_reconcile (hS : S.Healthy) (limit : ℕ) (s : RecoveryState) :
    ((reconcileStagedArtifacts S limit).exec s).2 = s ∧
      ((reconcileStagedArtifacts S limit).exec s).1.isOk =
        ((S.candidates.take limit).map UploadStep.confirm).all (UploadStep.succeeds S now) := by
  obtain ⟨hstate, hok⟩ := exec_forM_map (UploadStep.succeeds S now) (UploadStep.effect S now)
    UploadStep.confirm (S.candidates.take limit)
    (fun candidate _ s => exec_reconcileCandidate candidate s) s
  rw [reached_map, foldl_confirm] at hstate
  unfold reconcileStagedArtifacts
  rw [exec_bind, ← hok]
  cases hexec : ((S.candidates.take limit).forM (reconcileCandidate S)).exec s with
  | mk result t =>
      rw [hexec] at hstate
      subst hstate
      cases result with
      | error error => exact ⟨rfl, rfl⟩
      | ok u =>
          rw [hS.listArtifacts]
          exact ⟨rfl, rfl⟩

theorem mapM_publishingUpload
    (h : ∀ upload ∈ uploads, ∃ publishing, publishingUpload upload = .ok publishing) :
    uploads.mapM publishingUpload = .ok (uploads.map publishingOf) := by
  induction uploads with
  | nil => rfl
  | cons upload uploads ih =>
      obtain ⟨⟨publishing, hfirst⟩, hrest⟩ := List.forall_mem_cons.mp h
      rw [List.mapM_cons, hfirst, ih hrest, publishingUpload_eq_ok hfirst]
      rfl

theorem exec_publishingUploads (table : UploadTable) (hlimit : table.uploads.length ≤ limit)
    (hlist : ∀ upload ∈ table.uploads, upload.lifecycle = .publishing →
      ∃ publishing, publishingUpload upload = .ok publishing) (attempted : List String) :
    (publishingUploads limit).exec ⟨table.uploads, attempted⟩ =
      (.ok ((publishingOrder table.uploads).map publishingOf), ⟨table.uploads, attempted⟩) := by
  have hmap : ((publishingOrder table.uploads).take limit).mapM publishingUpload =
      .ok ((publishingOrder table.uploads).map publishingOf) := by
    rw [List.take_of_length_le ((length_publishingOrder_le _).trans hlimit)]
    refine mapM_publishingUpload fun upload hupload => ?_
    obtain ⟨hmem, hlifecycle⟩ := mem_publishingOrder.mp hupload
    exact hlist upload hmem hlifecycle
  unfold publishingUploads
  rw [exec_bind]
  change (check ((((publishingOrder table.uploads).take limit).mapM publishingUpload).mapError
    StagingError.message) : RecoveryPass _).exec _ = _
  rw [hmap]
  rfl

theorem exec_commitProofs (hS : S.Healthy) (rest : RecoveryPass Unit) (s : RecoveryState) :
    (check S.commitProofs >>= fun _ => rest).exec s = rest.exec s := by
  rw [hS.commitProofs]
  rfl

/-- The pass runs the steps of the uploads one after the other, up to the first
that fails. -/
theorem runOnce_state (hS : S.Healthy) (table : UploadTable) (hlimit : table.uploads.length ≤ limit)
    (hlist : ∀ upload ∈ table.uploads, upload.lifecycle = .publishing →
      ∃ publishing, publishingUpload upload = .ok publishing) :
    ((runOnce S now limit).exec ⟨table.uploads, []⟩).2 =
      (reached (UploadStep.succeeds S now) (uploadSteps S now limit table)).foldl
        (UploadStep.effect S now) ⟨table.uploads, []⟩ := by
  have hsize : table.uploads.length ≤ max limit 1 := hlimit.trans (Nat.le_max_left _ _)
  obtain ⟨hconfirm, hconfirmed⟩ := @exec_reconcile S now hS (max limit 1) ⟨table.uploads, []⟩
  rw [runOnce, exec_commitProofs hS, exec_seq, hconfirm, hconfirmed, uploadSteps,
    List.append_assoc, reached_append]
  split
  next hall =>
    rw [List.foldl_append, foldl_confirm, exec_bind, exec_publishingUploads table hsize hlist]
    dsimp only
    -- the recoveries
    obtain ⟨hrecover, hrecovered⟩ := exec_forM_map (UploadStep.succeeds S now)
      (UploadStep.effect S now) UploadStep.recover (publishingOrder table.uploads)
      (f := fun upload => recoverPublishing S (publishingOf upload))
      (fun upload hupload s => by
        obtain ⟨hmem, hlifecycle⟩ := mem_publishingOrder.mp hupload
        obtain ⟨publishing, h⟩ := hlist upload hmem hlifecycle
        exact exec_recoverPublishing h s) ⟨table.uploads, []⟩
    rw [exec_seq, forM_map, hrecover, hrecovered, reached_append]
    split
    next hrecovers =>
      rw [reached_eq_self hrecovers, List.foldl_append]
      have hopen := (@keepsOpen_init now table []).foldl_recover (S := S)
        fun upload hupload => mem_publishingOrder.mp hupload
      generalize hs : ((publishingOrder table.uploads).map UploadStep.recover).foldl
        (UploadStep.effect S now) ⟨table.uploads, []⟩ = s at hopen ⊢
      -- the expiries, and what comes behind them
      obtain ⟨hexpire, -⟩ := exec_forM_map (UploadStep.succeeds S now)
        (UploadStep.effect S now) UploadStep.expire
        (table.uploads.filter (isExpiredOpen now))
        (fun upload _ s => exec_expireUpload (S := S) upload s) s
      have hreap : ((reapExpired S now (max limit 1)).exec s) =
          (((table.uploads.filter (isExpiredOpen now)).forM (expireUpload S now)).exec s) := by
        unfold reapExpired
        rw [exec_bind]
        change ((((s.uploads.filter (isExpiredOpen now)).take (max limit 1)).forM
          (expireUpload S now)).exec s) = _
        rw [hopen.expired, List.take_of_length_le ((List.length_filter_le _ _).trans hsize)]
      have hrest : ∀ s, ((check S.rest : RecoveryPass Unit).exec s).2 = s := fun _ => rfl
      rw [exec_seq, hrest, ite_self, hreap, hexpire]
    next => rfl
  next =>
    rw [reached_map, foldl_confirm]

/-! ### What a pass comes to -/

theorem mem_attempted_foldl {steps : List UploadStep} {s : RecoveryState} {uploadId : String} :
    uploadId ∈ (steps.foldl (UploadStep.effect S now) s).attempted ↔
      uploadId ∈ s.attempted ∨ ∃ upload, UploadStep.recover upload ∈ steps ∧
        upload.identity.uploadId = uploadId := by
  induction steps generalizing s with
  | nil => simp
  | cons step steps ih =>
      rw [List.foldl_cons, ih]
      cases step with
      | confirm candidate => simp [UploadStep.effect]
      | expire upload =>
          simp only [UploadStep.effect]
          split <;> simp
      | recover upload =>
          simp only [UploadStep.effect, List.mem_append, List.mem_cons, List.not_mem_nil, or_false,
            UploadStep.recover.injEq]
          constructor
          · rintro ((h | rfl) | ⟨other, hother, hid⟩)
            · exact .inl h
            · exact .inr ⟨upload, .inl rfl, rfl⟩
            · exact .inr ⟨other, .inr hother, hid⟩
          · rintro (h | ⟨other, rfl | hother, hid⟩)
            · exact .inl (.inl h)
            · exact .inl (.inr hid.symm)
            · exact .inr ⟨other, hother, hid⟩

theorem expireAt_identity (now : ℤ) (upload : MultipartUpload) :
    (expireAt now upload).identity = upload.identity := rfl

theorem lifecycleOf_updateUpload {id uploadId : String} {f : MultipartUpload → MultipartUpload}
    (hf : ∀ upload, (f upload).identity = upload.identity) :
    lifecycleOf (updateUpload id f uploads) uploadId =
      if uploadId = id then ((uploads.find? fun upload => upload.identity.uploadId = uploadId).map
        fun upload => (f upload).lifecycle)
      else lifecycleOf uploads uploadId := by
  have hid : ∀ upload : MultipartUpload,
      (if upload.identity.uploadId = id then f upload else upload).identity = upload.identity := by
    intro upload
    split
    · exact hf upload
    · rfl
  unfold lifecycleOf updateUpload
  rw [List.find?_map, Option.map_map]
  have hpred : ((fun upload : MultipartUpload => decide (upload.identity.uploadId = uploadId)) ∘
      fun upload => if upload.identity.uploadId = id then f upload else upload) =
      fun upload => decide (upload.identity.uploadId = uploadId) := by
    funext upload
    simp only [Function.comp_apply, hid]
  rw [hpred]
  split
  next heq =>
    refine Option.map_congr fun upload hupload => ?_
    have hupload : upload.identity.uploadId = uploadId := by simpa using List.find?_some hupload
    simp only [Function.comp_apply, hupload, heq, if_true]
  next hne =>
    refine Option.map_congr fun upload hupload => ?_
    have hupload : upload.identity.uploadId = uploadId := by simpa using List.find?_some hupload
    simp only [Function.comp_apply, hupload, hne, if_false]

/-- An upload that is not recovered is expired by its own step and by no other. -/
theorem lifecycleOf_foldl {steps : List UploadStep} {s : RecoveryState} {uploadId : String}
    (hrecover : ∀ upload, UploadStep.recover upload ∈ steps → upload.identity.uploadId ≠ uploadId)
    (hknown : (lifecycleOf s.uploads uploadId).isSome) :
    lifecycleOf (steps.foldl (UploadStep.effect S now) s).uploads uploadId = some .expired ↔
      lifecycleOf s.uploads uploadId = some .expired ∨
        ∃ upload, UploadStep.expire upload ∈ steps ∧ upload.identity.uploadId = uploadId ∧
          (UploadStep.expire upload).succeeds S now = true := by
  induction steps generalizing s with
  | nil => simp
  | cons step steps ih =>
      have hrest := fun upload h => hrecover upload (List.mem_cons_of_mem step h)
      rw [List.foldl_cons]
      cases step with
      | confirm candidate =>
          refine (ih hrest hknown).trans ?_
          simp
      | recover upload =>
          have hsame : lifecycleOf ((UploadStep.recover upload).effect S now s).uploads uploadId =
              lifecycleOf s.uploads uploadId := by
            simp only [UploadStep.effect]
            split
            next recovery _ =>
              rw [lifecycleOf_updateUpload fun upload => by cases recovery <;> rfl]
              exact if_neg (hrecover upload List.mem_cons_self).symm
            next => rfl
          rw [ih hrest (hsame ▸ hknown), hsame]
          simp
      | expire upload =>
          by_cases hown : upload.identity.uploadId = uploadId ∧
              (UploadStep.expire upload).succeeds S now = true
          · obtain ⟨rfl, hsucceeds⟩ := hown
            have hexpired : lifecycleOf ((UploadStep.expire upload).effect S now s).uploads
                upload.identity.uploadId = some .expired := by
              simp only [UploadStep.effect, hsucceeds, if_true]
              rw [lifecycleOf_updateUpload (expireAt_identity now), if_pos rfl]
              rw [lifecycleOf, Option.isSome_map] at hknown
              obtain ⟨found, hfound⟩ := Option.isSome_iff_exists.mp hknown
              rw [hfound]
              rfl
            rw [ih hrest (by rw [hexpired]; rfl)]
            exact iff_of_true (.inl hexpired) (.inr ⟨upload, List.mem_cons_self, rfl, hsucceeds⟩)
          · have hsame : lifecycleOf ((UploadStep.expire upload).effect S now s).uploads uploadId =
                lifecycleOf s.uploads uploadId := by
              simp only [UploadStep.effect]
              split
              next hsucceeds =>
                rw [lifecycleOf_updateUpload (expireAt_identity now)]
                exact if_neg fun hid => hown ⟨hid.symm, hsucceeds⟩
              next => rfl
            rw [ih hrest (hsame ▸ hknown), hsame]
            refine or_congr_right (exists_congr fun other => ?_)
            rw [List.mem_cons, UploadStep.expire.injEq]
            constructor
            · rintro ⟨h, hid⟩
              exact ⟨.inr h, hid⟩
            · rintro ⟨rfl | h, hid⟩
              · exact absurd hid hown
              · exact ⟨h, hid⟩

end Steps

section Pass

variable {S : RecoverySteps} {now : ℤ} {limit : ℕ} {table : UploadTable} {upload : MultipartUpload}

open MultipartRecoveryRuntime

theorem exists_of_mapM_publishingUpload {uploads : List MultipartUpload}
    {publishing : List PublishingMultipartUpload}
    (h : uploads.mapM publishingUpload = .ok publishing) :
    ∀ upload ∈ uploads, ∃ publishing, publishingUpload upload = .ok publishing := by
  induction uploads generalizing publishing with
  | nil => simp
  | cons upload uploads ih =>
      simp only [List.mapM_cons, bind_eq_ok, pure_eq_ok] at h
      obtain ⟨first, hfirst, rest, hrest, -⟩ := h
      exact List.forall_mem_cons.mpr ⟨⟨first, hfirst⟩, ih hrest⟩

/-- When the publishing uploads cannot be listed, none is recovered. -/
theorem runOnce_unlisted (hS : S.Healthy) (hlimit : table.uploads.length ≤ limit)
    (hupload : upload ∈ table.uploads) (hlifecycle : upload.lifecycle = .publishing)
    (h : ∀ publishing, publishingUpload upload ≠ .ok publishing) :
    ((runOnce S now limit).exec ⟨table.uploads, []⟩).2.attempted = [] := by
  have hsize : table.uploads.length ≤ max limit 1 := hlimit.trans (Nat.le_max_left _ _)
  obtain ⟨hconfirm, hconfirmed⟩ := @exec_reconcile S now hS (max limit 1) ⟨table.uploads, []⟩
  obtain ⟨error, hlist⟩ : ∃ error, (publishingUploads (max limit 1)).exec ⟨table.uploads, []⟩ =
      (.error error, ⟨table.uploads, []⟩) := by
    unfold publishingUploads
    rw [exec_bind]
    change ∃ error, (check ((((publishingOrder table.uploads).take (max limit 1)).mapM
      publishingUpload).mapError StagingError.message) : RecoveryPass _).exec _ = _
    rw [List.take_of_length_le ((length_publishingOrder_le _).trans hsize)]
    cases hmap : (publishingOrder table.uploads).mapM publishingUpload with
    | error error => exact ⟨_, rfl⟩
    | ok publishing =>
        obtain ⟨listed, hlisted⟩ := exists_of_mapM_publishingUpload hmap upload
          (mem_publishingOrder.mpr ⟨hupload, hlifecycle⟩)
        exact absurd hlisted (h listed)
  rw [runOnce, exec_commitProofs hS, exec_seq, hconfirm]
  split
  · rw [exec_bind, hlist]
  · rfl

theorem nodup_uploads (table : UploadTable) : table.uploads.Nodup := table.distinct.of_map _

/-- No step that matters comes twice. -/
theorem nodup_matters :
    ((uploadSteps S now limit table).filter (UploadStep.matters S now)).Nodup := by
  have hconfirm : ((S.candidates.take (max limit 1)).map UploadStep.confirm).filter
      (UploadStep.matters S now) = [] := by
    rw [List.filter_eq_nil_iff]
    intro step hstep
    obtain ⟨candidate, -, rfl⟩ := List.mem_map.mp hstep
    simp [UploadStep.matters]
  have hrecover : ((publishingOrder table.uploads).map UploadStep.recover).Nodup := by
    refine List.Nodup.map (fun _ _ h => UploadStep.recover.inj h) ?_
    exact (List.perm_insertionSort _ _).nodup_iff.mpr ((nodup_uploads table).filter _)
  have hexpire : ((table.uploads.filter (isExpiredOpen now)).map UploadStep.expire).Nodup :=
    ((nodup_uploads table).filter _).map fun _ _ h => UploadStep.expire.inj h
  rw [uploadSteps, List.append_assoc, List.filter_append, hconfirm, List.nil_append]
  refine List.Nodup.filter _ (List.Nodup.append hrecover hexpire fun step hleft hright => ?_)
  obtain ⟨a, -, rfl⟩ := List.mem_map.mp hleft
  obtain ⟨b, -, heq⟩ := List.mem_map.mp hright
  cases heq

theorem mem_uploadSteps_recover :
    UploadStep.recover upload ∈ uploadSteps S now limit table ↔
      upload ∈ table.uploads ∧ upload.lifecycle = .publishing := by
  simp only [uploadSteps, List.mem_append, List.mem_map, reduceCtorEq, and_false, exists_false,
    false_or, or_false, UploadStep.recover.injEq, exists_eq_right, mem_publishingOrder]

theorem mem_uploadSteps_expire :
    UploadStep.expire upload ∈ uploadSteps S now limit table ↔
      upload ∈ table.uploads ∧ isExpiredOpen now upload = true := by
  simp only [uploadSteps, List.mem_append, List.mem_map, reduceCtorEq, and_false, exists_false,
    false_or, UploadStep.expire.injEq, exists_eq_right, List.mem_filter]

theorem lifecycleOf_table (hupload : upload ∈ table.uploads) :
    lifecycleOf table.uploads upload.identity.uploadId = some upload.lifecycle := by
  have hsome : (table.uploads.find? fun other =>
      other.identity.uploadId = upload.identity.uploadId).isSome :=
    List.find?_isSome.mpr ⟨upload, hupload, by simp⟩
  obtain ⟨found, hfound⟩ := Option.isSome_iff_exists.mp hsome
  have hid : found.identity.uploadId = upload.identity.uploadId := by
    simpa using List.find?_some hfound
  rw [lifecycleOf, hfound, table.eq_of_uploadId (List.mem_of_find?_eq_some hfound) hupload hid]
  rfl

/-- A pass recovers all exactly when it reaches every step that matters. -/
theorem recoversAll_iff_reached (hS : S.Healthy) (hlimit : table.uploads.length ≤ limit)
    (hlist : ∀ upload ∈ table.uploads, upload.lifecycle = .publishing →
      ∃ publishing, publishingUpload upload = .ok publishing) :
    RecoversAll S now limit table ↔ ∀ step ∈ uploadSteps S now limit table,
      step.matters S now = true →
      step ∈ reached (UploadStep.succeeds S now) (uploadSteps S now limit table) := by
  unfold RecoversAll
  dsimp only
  rw [runOnce_state hS table hlimit hlist]
  generalize hsteps : uploadSteps S now limit table = steps
  have hattempted : ∀ upload ∈ table.uploads, upload.lifecycle = .publishing →
      (upload.identity.uploadId ∈ ((reached (UploadStep.succeeds S now) steps).foldl
        (UploadStep.effect S now) ⟨table.uploads, []⟩).attempted ↔
        UploadStep.recover upload ∈ reached (UploadStep.succeeds S now) steps) := by
    intro upload hupload _
    rw [mem_attempted_foldl]
    constructor
    · rintro (h | ⟨other, hother, hid⟩)
      · exact absurd h List.not_mem_nil
      · have hmem := (mem_uploadSteps_recover.mp (hsteps ▸ mem_of_mem_reached hother)).1
        rwa [← table.eq_of_uploadId hmem hupload hid]
    · exact fun h => .inr ⟨upload, h, rfl⟩
  have hreaped : ∀ upload ∈ table.uploads, isExpiredOpen now upload = true →
      (UploadStep.expire upload).succeeds S now = true →
      (lifecycleOf ((reached (UploadStep.succeeds S now) steps).foldl
        (UploadStep.effect S now) ⟨table.uploads, []⟩).uploads upload.identity.uploadId =
          some .expired ↔
        UploadStep.expire upload ∈ reached (UploadStep.succeeds S now) steps) := by
    intro upload hupload hexpired hsucceeds
    have hopen : upload.lifecycle = .opened := (of_decide_eq_true hexpired).1
    rw [lifecycleOf_foldl]
    · rw [lifecycleOf_table hupload, hopen]
      constructor
      · rintro (h | ⟨other, hother, hid, -⟩)
        · cases h
        · have hmem := (mem_uploadSteps_expire.mp (hsteps ▸ mem_of_mem_reached hother)).1
          rwa [← table.eq_of_uploadId hmem hupload hid]
      · exact fun h => .inr ⟨upload, h, rfl, hsucceeds⟩
    · intro other hother hid
      obtain ⟨hmem, hpublishing⟩ :=
        mem_uploadSteps_recover.mp (hsteps ▸ mem_of_mem_reached hother)
      rw [table.eq_of_uploadId hmem hupload hid, hopen] at hpublishing
      cases hpublishing
    · rw [lifecycleOf_table hupload]
      rfl
  constructor
  · rintro ⟨hrecovers, hreaps⟩ step hstep hmatters
    cases step with
    | confirm candidate => cases hmatters
    | recover upload =>
        obtain ⟨hupload, hlifecycle⟩ := mem_uploadSteps_recover.mp (hsteps ▸ hstep)
        exact (hattempted upload hupload hlifecycle).mp (hrecovers upload hupload hlifecycle)
    | expire upload =>
        obtain ⟨hupload, hexpired⟩ := mem_uploadSteps_expire.mp (hsteps ▸ hstep)
        exact (hreaped upload hupload hexpired hmatters).mp (hreaps upload hupload hexpired hmatters)
  · intro h
    refine ⟨fun upload hupload hlifecycle => ?_, fun upload hupload hexpired hsucceeds => ?_⟩
    · refine (hattempted upload hupload hlifecycle).mpr (h _ ?_ rfl)
      exact hsteps ▸ mem_uploadSteps_recover.mpr ⟨hupload, hlifecycle⟩
    · refine (hreaped upload hupload hexpired hsucceeds).mpr (h _ ?_ hsucceeds)
      exact hsteps ▸ mem_uploadSteps_expire.mpr ⟨hupload, hexpired⟩

end Pass

/-- A pass over a repository attempts every recovery and reaps every upload it
can exactly when no step that fails stands before one of them. -/
theorem recoversAll_iff (S : RecoverySteps) (now : ℤ) (limit : ℕ) (table : UploadTable)
    (hS : S.Healthy) (hlimit : table.uploads.length ≤ limit) :
    RecoversAll S now limit table ↔ Unblocked S now limit table := by
  by_cases hlist : ∀ upload ∈ table.uploads, upload.lifecycle = .publishing →
      ∃ publishing, publishingUpload upload = .ok publishing
  · rw [recoversAll_iff_reached hS hlimit hlist, forall_reached_iff nodup_matters]
    exact ⟨fun h => ⟨hlist, h⟩, fun h => h.2⟩
  · refine iff_of_false (fun h => ?_) fun h => hlist h.1
    obtain ⟨upload, hupload, hlifecycle, hunlisted⟩ : ∃ upload ∈ table.uploads,
        upload.lifecycle = .publishing ∧ ∀ publishing, publishingUpload upload ≠ .ok publishing := by
      push Not at hlist
      exact hlist
    have hattempted := h.1 upload hupload hlifecycle
    rw [runOnce_unlisted hS hlimit hupload hlifecycle hunlisted] at hattempted
    exact List.not_mem_nil hattempted

/-- An upload with nothing but an id, a lifecycle and what publishing needs. -/
def recoveryUpload (uploadId : String) (lifecycle : MultipartLifecycle) (startedAt : Option ℤ) :
    MultipartUpload where
  identity := ⟨"tenant", "policy", "bucket", "key", uploadId⟩
  namespaceEpoch := none
  snapshot := ⟨[], [], none, .null, .null, 1024⟩
  lifecycle
  stagedBytes := 0
  reservedBytes := 0
  createdAtMs := 0
  expiresAtMs := 10
  updatedAtMs := 0
  tombstoneUntilMs := none
  completeRequestFingerprint := some "fingerprint"
  completionLeaseOwner := none
  completionLeaseExpiresAtMs := none
  completionFencingToken := 1
  destinationOperationId := some 7
  publishingStartedAtMs := startedAt
  destinationCommit := none
  completionResult := none

/-- Two publishing uploads, and an open one that is past its time. -/
def recoveryTable : UploadTable where
  uploads := [recoveryUpload "a" .publishing (some 1), recoveryUpload "b" .publishing (some 2),
    recoveryUpload "c" .opened none]
  distinct := by decide

/-- All steps succeed but the recoveries of the uploads with these ids. -/
def recoverySteps (stuck : List String) : RecoverySteps where
  commitProofs := .ok ()
  candidates := []
  deleteArtifact _ := .ok ()
  confirmArtifactDeleted _ := .ok ()
  audit _ := .ok ()
  listArtifacts := .ok ()
  recoverPublishing publishing :=
    if publishing.identity.uploadId ∈ stuck then .error "journal operation is missing"
    else .ok .completed
  expire _ := .ok ()
  rest := .ok ()

theorem recoversAll_without_failures :
    recoveryTable.uploads.length ≤ 256 ∧ RecoversAll (recoverySteps []) 10 256 recoveryTable := by
  refine ⟨by decide, (recoversAll_iff (recoverySteps []) 10 256 recoveryTable ⟨rfl, rfl⟩
    (by decide)).mpr ⟨?_, ?_⟩⟩
  · intro upload hupload hlifecycle
    simp only [recoveryTable, List.mem_cons, List.not_mem_nil, or_false] at hupload
    obtain rfl | rfl | rfl := hupload
    · exact ⟨_, rfl⟩
    · exact ⟨_, rfl⟩
    · cases hlifecycle
  · decide +kernel

/-- One upload that cannot be recovered keeps the next one from being tried and
the expired one from being reaped. -/
theorem stuck_upload_blocks_recovery : ¬ RecoversAll (recoverySteps ["a"]) 10 256 recoveryTable := by
  intro h
  have hattempted := h.1 (recoveryUpload "b" .publishing (some 2)) (by simp [recoveryTable]) rfl
  revert hattempted
  decide +kernel

end Maskura.Multipart
