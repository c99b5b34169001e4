import Maskura.Lib.FinMap
import Maskura.Multipart.Protocol

/-!
Staging quotas: the usage that `reconstruct_file_multipart_quotas` adds up
over all uploads of a store, and the limits it checks.

The code adds up one upload after the other and stops at the first overflow.
Whether it succeeds only depends on the totals, so it does not depend on the
order of the uploads.
-/

namespace Maskura.Multipart

open Maskura.Lib Maskura.Persistence

structure StagingQuotaLimits where
  tenantBytes : ℕ
  globalBytes : ℕ
  deriving DecidableEq, Repr

structure FileMultipartQuotaUsage where
  stagedBytes : ℕ := 0
  reservedBytes : ℕ := 0
  activeUploads : ℕ := 0
  deriving DecidableEq, Repr

structure FileMultipartAggregateQuotas where
  global : FileMultipartQuotaUsage := {}
  tenants : Std.TreeMap String FileMultipartQuotaUsage := {}

/-! ### Adding up -/

def validateUsage (usage : FileMultipartQuotaUsage) (limit : ℕ) :
    Except FileMultipartReducerError Unit := do
  let total ← checkedAdd usage.stagedBytes usage.reservedBytes
  rejectIf (total > limit) .invalidAccounting

/-- One for an upload that still takes parts. -/
def activeCount (upload : MultipartUpload) : ℕ :=
  if upload.lifecycle = .opened then 1 else 0

def addUpload (usage : FileMultipartQuotaUsage) (upload : MultipartUpload) :
    Except FileMultipartReducerError FileMultipartQuotaUsage := do
  let staged ← checkedAdd usage.stagedBytes upload.stagedBytes
  let reserved ← checkedAdd usage.reservedBytes upload.reservedBytes
  let active ← checkedAdd usage.activeUploads (activeCount upload)
  return ⟨staged, reserved, active⟩

/-- One round of the loop: the totals so far and the upload ids seen. -/
def addSnapshot (state : FileMultipartAggregateQuotas × List String)
    (snapshot : FileMultipartSnapshotV1) :
    Except FileMultipartReducerError (FileMultipartAggregateQuotas × List String) := do
  validateSnapshot snapshot
  match snapshot.upload with
  | none => return state
  | some upload =>
      rejectIf (upload.identity.uploadId ∈ state.2) .identityConflict
      let tenantId := upload.identity.tenantId
      let tenant ← addUpload (state.1.tenants.getD tenantId {}) upload
      let global ← addUpload state.1.global upload
      return (⟨global, state.1.tenants.insert tenantId tenant⟩,
        upload.identity.uploadId :: state.2)

def validateTenants (limits : StagingQuotaLimits) :
    List FileMultipartQuotaUsage → Except FileMultipartReducerError Unit
  | [] => .ok ()
  | usage :: rest => do
      validateUsage usage limits.tenantBytes
      rejectIf (usage.activeUploads > maxActiveUploads) .invalidAccounting
      validateTenants limits rest

def reconstructFileMultipartQuotas (snapshots : List FileMultipartSnapshotV1)
    (limits : StagingQuotaLimits) :
    Except FileMultipartReducerError FileMultipartAggregateQuotas := do
  let (result, _) ← snapshots.foldlM addSnapshot ({}, [])
  validateTenants limits (result.tenants.toList.map Prod.snd)
  validateUsage result.global limits.globalBytes
  return result

/-! ### What the totals are -/

/-- The uploads a list of snapshots still has. -/
def uploadsOf (snapshots : List FileMultipartSnapshotV1) : List MultipartUpload :=
  snapshots.filterMap (·.upload)

def ofTenant (tenantId : String) (uploads : List MultipartUpload) : List MultipartUpload :=
  uploads.filter fun upload => upload.identity.tenantId = tenantId

def usageOf (uploads : List MultipartUpload) : FileMultipartQuotaUsage where
  stagedBytes := (uploads.map (·.stagedBytes)).sum
  reservedBytes := (uploads.map (·.reservedBytes)).sum
  activeUploads := (uploads.map activeCount).sum

/-- No counter overflows. -/
def FileMultipartQuotaUsage.Fits (usage : FileMultipartQuotaUsage) : Prop :=
  usage.stagedBytes < u64Bound ∧ usage.reservedBytes < u64Bound ∧ usage.activeUploads < u64Bound

/-- What `validateUsage` asks for. -/
def FileMultipartQuotaUsage.Within (usage : FileMultipartQuotaUsage) (limit : ℕ) : Prop :=
  usage.stagedBytes + usage.reservedBytes < u64Bound ∧
    usage.stagedBytes + usage.reservedBytes ≤ limit

/-- The uploads of the snapshots are different ones and stay within the
limits of every tenant and of the store. -/
structure WithinQuotas (limits : StagingQuotaLimits) (snapshots : List FileMultipartSnapshotV1) :
    Prop where
  valid : ∀ snapshot ∈ snapshots, validateSnapshot snapshot = .ok ()
  distinct : ((uploadsOf snapshots).map (·.identity.uploadId)).Nodup
  fits : (usageOf (uploadsOf snapshots)).Fits
  tenant : ∀ tenantId,
    (usageOf (ofTenant tenantId (uploadsOf snapshots))).Within limits.tenantBytes ∧
      (usageOf (ofTenant tenantId (uploadsOf snapshots))).activeUploads ≤ maxActiveUploads
  total : (usageOf (uploadsOf snapshots)).Within limits.globalBytes

theorem usageOf_perm {uploads uploads' : List MultipartUpload} (h : uploads.Perm uploads') :
    usageOf uploads = usageOf uploads' := by
  simp only [usageOf, (h.map _).sum_eq]

/-- The order of the snapshots does not matter. -/
theorem WithinQuotas.perm {limits : StagingQuotaLimits}
    {snapshots snapshots' : List FileMultipartSnapshotV1} (hperm : snapshots.Perm snapshots')
    (h : WithinQuotas limits snapshots) : WithinQuotas limits snapshots' := by
  have huploads : (uploadsOf snapshots).Perm (uploadsOf snapshots') := hperm.filterMap _
  refine ⟨fun snapshot hs => h.valid snapshot (hperm.mem_iff.mpr hs), ?_, ?_, fun tenantId => ?_, ?_⟩
  · exact ((huploads.map _).nodup_iff).mp h.distinct
  · rw [← usageOf_perm huploads]
    exact h.fits
  · have htenant : (ofTenant tenantId (uploadsOf snapshots)).Perm
        (ofTenant tenantId (uploadsOf snapshots')) := huploads.filter _
    rw [← usageOf_perm htenant]
    exact h.tenant tenantId
  · rw [← usageOf_perm huploads]
    exact h.total

/-! ### The loop -/

theorem checkedAdd_eq_ok {left right sum : ℕ} :
    checkedAdd left right = .ok sum ↔ left + right < u64Bound ∧ sum = left + right := by
  unfold checkedAdd
  split <;> simp_all [eq_comm]

@[simp] theorem uploadsOf_append (snapshots more : List FileMultipartSnapshotV1) :
    uploadsOf (snapshots ++ more) = uploadsOf snapshots ++ uploadsOf more :=
  List.filterMap_append

theorem uploadsOf_singleton {snapshot : FileMultipartSnapshotV1} :
    uploadsOf [snapshot] = snapshot.upload.toList := by
  cases h : snapshot.upload <;> simp [uploadsOf, h]

/-- Adding an upload to the total of others succeeds when nothing overflows. -/
theorem addUpload_eq_ok {uploads : List MultipartUpload} {upload : MultipartUpload}
    {usage : FileMultipartQuotaUsage} :
    addUpload (usageOf uploads) upload = .ok usage ↔
      (usageOf (uploads ++ [upload])).Fits ∧ usage = usageOf (uploads ++ [upload]) := by
  simp only [addUpload, bind_eq_ok, checkedAdd_eq_ok, pure_eq_ok, usageOf,
    FileMultipartQuotaUsage.Fits, List.map_append, List.map_singleton, List.sum_append,
    List.sum_singleton]
  constructor
  · rintro ⟨_, ⟨hs, rfl⟩, _, ⟨hr, rfl⟩, _, ⟨ha, rfl⟩, rfl⟩
    exact ⟨⟨hs, hr, ha⟩, rfl⟩
  · rintro ⟨⟨hs, hr, ha⟩, rfl⟩
    exact ⟨_, ⟨hs, rfl⟩, _, ⟨hr, rfl⟩, _, ⟨ha, rfl⟩, rfl⟩

/-- Fewer uploads use no more. -/
theorem fits_of_sublist {uploads more : List MultipartUpload} (hsub : uploads.Sublist more)
    (h : (usageOf more).Fits) : (usageOf uploads).Fits := by
  have hle : ∀ f : MultipartUpload → ℕ, (uploads.map f).sum ≤ (more.map f).sum := fun f =>
    (hsub.map f).sum_le_sum fun _ _ => Nat.zero_le _
  exact ⟨(hle _).trans_lt h.1, (hle _).trans_lt h.2.1, (hle _).trans_lt h.2.2⟩

/-- The loop has added up the uploads of `done`. -/
structure Totals (done : List FileMultipartSnapshotV1)
    (state : FileMultipartAggregateQuotas × List String) : Prop where
  distinct : ((uploadsOf done).map (·.identity.uploadId)).Nodup
  fits : (usageOf (uploadsOf done)).Fits
  global : state.1.global = usageOf (uploadsOf done)
  tenants : ∀ tenantId, state.1.tenants[tenantId]? =
    if ofTenant tenantId (uploadsOf done) = [] then none
    else some (usageOf (ofTenant tenantId (uploadsOf done)))
  ids : ∀ id, id ∈ state.2 ↔ id ∈ (uploadsOf done).map (·.identity.uploadId)

theorem totals_nil : Totals [] ({}, []) :=
  ⟨List.nodup_nil, by simp [usageOf, uploadsOf, FileMultipartQuotaUsage.Fits, u64Bound], rfl,
    fun tenantId => by simp [uploadsOf, ofTenant], fun id => by simp [uploadsOf]⟩

theorem Totals.getD {done : List FileMultipartSnapshotV1}
    {state : FileMultipartAggregateQuotas × List String} (h : Totals done state)
    (tenantId : String) :
    state.1.tenants.getD tenantId {} = usageOf (ofTenant tenantId (uploadsOf done)) := by
  rw [Std.TreeMap.getD_eq_getD_getElem?, h.tenants]
  split
  · next hnil => rw [hnil]; rfl
  · rfl

/-- What one more snapshot needs, and that it is then added. -/
theorem Totals.addSnapshot {done : List FileMultipartSnapshotV1}
    {state : FileMultipartAggregateQuotas × List String} (h : Totals done state)
    (snapshot : FileMultipartSnapshotV1) :
    (∀ state', addSnapshot state snapshot = .ok state' → Totals (done ++ [snapshot]) state') ∧
      ((∃ state', addSnapshot state snapshot = .ok state') ↔
        validateSnapshot snapshot = .ok () ∧
          ((uploadsOf (done ++ [snapshot])).map (·.identity.uploadId)).Nodup ∧
          (usageOf (uploadsOf (done ++ [snapshot]))).Fits) := by
  cases hupload : snapshot.upload with
  | none =>
      have huploads : uploadsOf (done ++ [snapshot]) = uploadsOf done := by
        simp [uploadsOf_singleton, hupload]
      simp only [Multipart.addSnapshot, hupload, bind_eq_ok, pure_eq_ok, huploads]
      refine ⟨?_, ?_⟩
      · rintro state' ⟨_, -, rfl⟩
        exact ⟨by rw [huploads]; exact h.distinct, by rw [huploads]; exact h.fits,
          by rw [huploads]; exact h.global, by rw [huploads]; exact h.tenants,
          by rw [huploads]; exact h.ids⟩
      · exact ⟨fun ⟨_, _, hvalid, _⟩ => ⟨hvalid, h.distinct, h.fits⟩,
          fun hvalid => ⟨state, (), hvalid.1, rfl⟩⟩
  | some upload =>
      have huploads : uploadsOf (done ++ [snapshot]) = uploadsOf done ++ [upload] := by
        simp [uploadsOf_singleton, hupload]
      have htenant : ∀ tenantId, ofTenant tenantId (uploadsOf done ++ [upload]) =
          if upload.identity.tenantId = tenantId then ofTenant tenantId (uploadsOf done) ++ [upload]
          else ofTenant tenantId (uploadsOf done) := by
        intro tenantId
        by_cases ht : upload.identity.tenantId = tenantId <;> simp [ofTenant, ht]
      have hdistinct : ((uploadsOf done ++ [upload]).map (·.identity.uploadId)).Nodup ↔
          upload.identity.uploadId ∉ state.2 := by
        rw [List.map_append, List.map_singleton, h.ids, List.nodup_append]
        simp only [List.nodup_singleton, List.mem_singleton]
        constructor
        · rintro ⟨-, -, hne⟩ hmem
          exact hne _ hmem _ rfl rfl
        · intro hmem
          refine ⟨h.distinct, trivial, ?_⟩
          rintro a ha _ rfl rfl
          exact hmem ha
      simp only [Multipart.addSnapshot, hupload, bind_eq_ok, rejectIf_eq_ok, exists_const, h.getD,
        h.global, addUpload_eq_ok, pure_eq_ok, huploads]
      refine ⟨?_, ?_⟩
      · rintro state' ⟨_, -, hnew, _, ⟨-, rfl⟩, _, ⟨hfits, rfl⟩, rfl⟩
        refine ⟨by rw [huploads]; exact hdistinct.mpr hnew, by rw [huploads]; exact hfits,
          by rw [huploads], fun tenantId => ?_, fun id => ?_⟩
        · rw [huploads, htenant, FinMap.getElem?_insert_eq]
          by_cases ht : upload.identity.tenantId = tenantId
          · subst ht
            simp
          · simp only [ht, if_false]
            exact h.tenants tenantId
        · rw [huploads, List.mem_cons, h.ids]
          simp [or_comm]
      · constructor
        · rintro ⟨_, _, hvalid, hnew, _, -, _, ⟨hfits, -⟩, -⟩
          exact ⟨hvalid, hdistinct.mpr hnew, hfits⟩
        · rintro ⟨hvalid, hnodup, hfits⟩
          have hsub : (ofTenant upload.identity.tenantId (uploadsOf done) ++ [upload]).Sublist
              (uploadsOf done ++ [upload]) :=
            List.filter_sublist.append_right _
          exact ⟨_, (), hvalid, hdistinct.mp hnodup, _, ⟨fits_of_sublist hsub hfits, rfl⟩, _,
            ⟨hfits, rfl⟩, rfl⟩

/-- What the whole loop needs, and what it has added up in the end. -/
theorem Totals.foldlM {done : List FileMultipartSnapshotV1}
    {state : FileMultipartAggregateQuotas × List String} (h : Totals done state)
    (rest : List FileMultipartSnapshotV1) :
    (∀ state', rest.foldlM Multipart.addSnapshot state = .ok state' →
        Totals (done ++ rest) state') ∧
      ((∃ state', rest.foldlM Multipart.addSnapshot state = .ok state') ↔
        (∀ snapshot ∈ rest, validateSnapshot snapshot = .ok ()) ∧
          ((uploadsOf (done ++ rest)).map (·.identity.uploadId)).Nodup ∧
          (usageOf (uploadsOf (done ++ rest))).Fits) := by
  induction rest generalizing done state with
  | nil =>
      simp only [List.foldlM_nil, pure_eq_ok, List.append_nil]
      exact ⟨fun _ heq => heq ▸ h, ⟨fun _ => ⟨by simp, h.distinct, h.fits⟩, fun _ => ⟨state, rfl⟩⟩⟩
  | cons snapshot rest ih =>
      obtain ⟨htotals, hiff⟩ := h.addSnapshot snapshot
      have happend : done ++ snapshot :: rest = (done ++ [snapshot]) ++ rest := by simp
      simp only [List.foldlM_cons, bind_eq_ok, happend]
      refine ⟨?_, ?_⟩
      · rintro state' ⟨next, hnext, hrest⟩
        exact (ih (htotals next hnext)).1 state' hrest
      · constructor
        · rintro ⟨state', next, hnext, hrest⟩
          obtain ⟨hvalid, -, -⟩ := hiff.mp ⟨next, hnext⟩
          obtain ⟨hvalids, hnodup, hfits⟩ := (ih (htotals next hnext)).2.mp ⟨state', hrest⟩
          exact ⟨List.forall_mem_cons.mpr ⟨hvalid, hvalids⟩, hnodup, hfits⟩
        · rintro ⟨hvalids, hnodup, hfits⟩
          obtain ⟨hvalid, hvalids⟩ := List.forall_mem_cons.mp hvalids
          -- Nothing that fails now would have been all right in the end.
          have hsub : (uploadsOf (done ++ [snapshot])).Sublist
              (uploadsOf ((done ++ [snapshot]) ++ rest)) := by
            rw [uploadsOf_append (done ++ [snapshot])]
            exact List.sublist_append_left _ _
          obtain ⟨next, hnext⟩ := hiff.mpr
            ⟨hvalid, hnodup.sublist (hsub.map _), fits_of_sublist hsub hfits⟩
          obtain ⟨state', hrest⟩ := (ih (htotals next hnext)).2.mpr ⟨hvalids, hnodup, hfits⟩
          exact ⟨state', next, hnext, hrest⟩

/-! ### The limits -/

theorem validateUsage_eq_ok {usage : FileMultipartQuotaUsage} {limit : ℕ} {u : Unit} :
    validateUsage usage limit = .ok u ↔ usage.Within limit := by
  simp only [validateUsage, bind_eq_ok, checkedAdd_eq_ok, rejectIf_eq_ok, not_lt,
    FileMultipartQuotaUsage.Within]
  constructor
  · rintro ⟨_, ⟨hfits, rfl⟩, hle⟩
    exact ⟨hfits, hle⟩
  · rintro ⟨hfits, hle⟩
    exact ⟨_, ⟨hfits, rfl⟩, hle⟩

theorem validateTenants_eq_ok {limits : StagingQuotaLimits} {usages : List FileMultipartQuotaUsage}
    {u : Unit} : validateTenants limits usages = .ok u ↔
      ∀ usage ∈ usages, usage.Within limits.tenantBytes ∧ usage.activeUploads ≤ maxActiveUploads := by
  induction usages with
  | nil => simp [validateTenants]
  | cons usage usages ih =>
      simp only [validateTenants, bind_eq_ok, validateUsage_eq_ok, rejectIf_eq_ok, exists_const,
        not_lt, ih, List.forall_mem_cons, and_assoc]

theorem within_nil (limit : ℕ) : (usageOf []).Within limit ∧
    (usageOf []).activeUploads ≤ maxActiveUploads := by
  simp [usageOf, FileMultipartQuotaUsage.Within, u64Bound]

/-- Reconstruction succeeds exactly on snapshots within the quotas. -/
theorem reconstructFileMultipartQuotas_isOk {snapshots : List FileMultipartSnapshotV1}
    {limits : StagingQuotaLimits} :
    (∃ result, reconstructFileMultipartQuotas snapshots limits = .ok result) ↔
      WithinQuotas limits snapshots := by
  obtain ⟨htotals, hiff⟩ := totals_nil.foldlM snapshots
  have hmem : ∀ {state : FileMultipartAggregateQuotas × List String}, Totals snapshots state →
      ((∀ usage ∈ state.1.tenants.toList.map Prod.snd,
          usage.Within limits.tenantBytes ∧ usage.activeUploads ≤ maxActiveUploads) ↔
        ∀ tenantId, (usageOf (ofTenant tenantId (uploadsOf snapshots))).Within limits.tenantBytes ∧
          (usageOf (ofTenant tenantId (uploadsOf snapshots))).activeUploads ≤
            maxActiveUploads) := by
    intro state hstate
    simp only [List.mem_map, Prod.exists, forall_exists_index, and_imp, FinMap.mem_toList]
    constructor
    · intro h tenantId
      by_cases hnil : ofTenant tenantId (uploadsOf snapshots) = []
      · rw [hnil]
        exact within_nil _
      · exact h _ tenantId _ (by rw [hstate.tenants, if_neg hnil]) rfl
    · rintro h _ tenantId usage hget rfl
      rw [hstate.tenants] at hget
      split at hget
      · cases hget
      · exact Option.some.inj hget ▸ h tenantId
  simp only [reconstructFileMultipartQuotas, bind_eq_ok, validateTenants_eq_ok, validateUsage_eq_ok,
    exists_const, pure_eq_ok]
  constructor
  · rintro ⟨_, ⟨result, ids⟩, hfold, hlimits, hglobal, -⟩
    have hstate := htotals _ hfold
    obtain ⟨hvalid, hdistinct, hfits⟩ := hiff.mp ⟨_, hfold⟩
    exact ⟨hvalid, hdistinct, hfits, (hmem hstate).mp hlimits, hstate.global ▸ hglobal⟩
  · intro h
    obtain ⟨state, hfold⟩ := hiff.mpr ⟨h.valid, h.distinct, h.fits⟩
    have hstate := htotals _ hfold
    exact ⟨_, state, hfold, (hmem hstate).mpr h.tenant, hstate.global ▸ h.total, rfl⟩

end Maskura.Multipart
