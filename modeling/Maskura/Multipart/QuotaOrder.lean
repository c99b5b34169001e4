import Maskura.Multipart.Quota
import Maskura.Multipart.Runs

/-!
Quotas in any order. What `reconstruct_file_multipart_quotas` returns are the sums
over the uploads, which no order changes; a sum that overflows on the way overflows
in every order, because it does in the end.
-/

namespace Maskura.Multipart

open Maskura.Lib Maskura.Persistence

/-! ### Sums by key -/

section Fibers

variable {α κ : Type} [DecidableEq κ]

theorem sum_map_ite_of_nodup {keys : List κ} (hnodup : keys.Nodup) {key : κ} (hkey : key ∈ keys)
    (n : ℕ) : (keys.map fun k => if key = k then n else 0).sum = n := by
  induction keys with
  | nil => cases hkey
  | cons k keys ih =>
      obtain ⟨hnot, hnodup⟩ := List.nodup_cons.mp hnodup
      rw [List.map_cons, List.sum_cons]
      by_cases heq : key = k
      · subst heq
        have hzero : (keys.map fun k => if key = k then n else 0).sum = 0 := by
          refine List.sum_eq_zero fun m hm => ?_
          obtain ⟨k, hk, rfl⟩ := List.mem_map.mp hm
          exact if_neg (ne_of_mem_of_not_mem hk hnot).symm
        rw [if_pos rfl, hzero, Nat.add_zero]
      · rw [if_neg heq, Nat.zero_add, ih hnodup ((List.mem_cons.mp hkey).resolve_left heq)]

/-- A sum is the sum over the keys of the sums of what has the key. -/
theorem sum_map_by_key {keys : List κ} (hnodup : keys.Nodup) (keyOf : α → κ) (measure : α → ℕ)
    {values : List α} (hcovered : ∀ value ∈ values, keyOf value ∈ keys) :
    (keys.map fun key => ((values.filter fun value => keyOf value = key).map measure).sum).sum =
      (values.map measure).sum := by
  induction values with
  | nil => simp
  | cons value values ih =>
      obtain ⟨hvalue, hvalues⟩ := List.forall_mem_cons.mp hcovered
      have hfiber (key : κ) :
          (((value :: values).filter fun value => keyOf value = key).map measure).sum =
            (if keyOf value = key then measure value else 0) +
              ((values.filter fun value => keyOf value = key).map measure).sum := by
        by_cases heq : keyOf value = key
        · simp [heq]
        · simp [heq]
      simp only [hfiber, List.sum_map_add, ih hvalues, List.map_cons, List.sum_cons,
        sum_map_ite_of_nodup hnodup hvalue]

end Fibers

/-! ### The result -/

/-- The sum of a counter over the tenants. -/
def FileMultipartAggregateQuotas.overTenants (quotas : FileMultipartAggregateQuotas)
    (counter : FileMultipartQuotaUsage → ℕ) : ℕ :=
  (quotas.tenants.toList.map fun tenant => counter tenant.2).sum

/-- The counters are the sums they should be, and all of them are below `2 ^ 64`. -/
structure ExactQuotas (snapshots : List FileMultipartSnapshotV1)
    (quotas : FileMultipartAggregateQuotas) : Prop where
  tenants : ∀ tenantId, quotas.tenants[tenantId]? =
    if ofTenant tenantId (uploadsOf snapshots) = [] then none
    else some (usageOf (ofTenant tenantId (uploadsOf snapshots)))
  staged : quotas.global.stagedBytes = quotas.overTenants (·.stagedBytes)
  reserved : quotas.global.reservedBytes = quotas.overTenants (·.reservedBytes)
  active : quotas.global.activeUploads = quotas.overTenants (·.activeUploads)
  fits : quotas.global.Fits ∧ ∀ tenant ∈ quotas.tenants.toList, tenant.2.Fits

/-- Equal as values: the same global counters and the same counters for every tenant. -/
structure SameQuotas (quotas quotas' : FileMultipartAggregateQuotas) : Prop where
  global : quotas.global = quotas'.global
  tenants : ∀ tenantId : String, quotas.tenants[tenantId]? = quotas'.tenants[tenantId]?

theorem reconstruct_totals {snapshots : List FileMultipartSnapshotV1} {limits : StagingQuotaLimits}
    {quotas : FileMultipartAggregateQuotas}
    (h : reconstructFileMultipartQuotas snapshots limits = .ok quotas) :
    ∃ ids, Totals snapshots (quotas, ids) := by
  simp only [reconstructFileMultipartQuotas, bind_eq_ok, pure_eq_ok] at h
  obtain ⟨⟨result, ids⟩, hfold, _, -, _, -, rfl⟩ := h
  exact ⟨ids, (totals_nil.foldlM snapshots).1 _ hfold⟩

section Totals

variable {snapshots : List FileMultipartSnapshotV1} {quotas : FileMultipartAggregateQuotas}
  {ids : List String}

/-- The tenants of the result are those of the uploads, with their usage. -/
theorem Totals.toList_eq (h : Totals snapshots (quotas, ids)) {tenantId : String}
    {usage : FileMultipartQuotaUsage} (hmem : (tenantId, usage) ∈ quotas.tenants.toList) :
    usage = usageOf (ofTenant tenantId (uploadsOf snapshots)) := by
  have hget := FinMap.mem_toList.mp hmem
  rw [h.tenants tenantId] at hget
  split at hget
  · cases hget
  · exact (Option.some.inj hget).symm

/-- A counter that is a sum over the uploads is the sum over the tenants. -/
theorem Totals.overTenants (h : Totals snapshots (quotas, ids))
    {counter : FileMultipartQuotaUsage → ℕ} (measure : MultipartUpload → ℕ)
    (hcounter : ∀ uploads, counter (usageOf uploads) = (uploads.map measure).sum) :
    quotas.overTenants counter = ((uploadsOf snapshots).map measure).sum := by
  have hcovered : ∀ upload ∈ uploadsOf snapshots,
      upload.identity.tenantId ∈ quotas.tenants.toList.map Prod.fst := by
    intro upload hupload
    have hmem : upload ∈ ofTenant upload.identity.tenantId (uploadsOf snapshots) :=
      List.mem_filter.mpr ⟨hupload, decide_eq_true rfl⟩
    have hget := h.tenants upload.identity.tenantId
    rw [if_neg (List.ne_nil_of_mem hmem)] at hget
    exact List.mem_map.mpr ⟨(_, _), FinMap.mem_toList.mpr hget, rfl⟩
  have hsum := sum_map_by_key (FinMap.nodup_toList_keys quotas.tenants)
    (fun upload : MultipartUpload => upload.identity.tenantId) measure hcovered
  rw [← hsum, FileMultipartAggregateQuotas.overTenants, List.map_map]
  refine congrArg List.sum (List.map_congr_left fun tenant hmem => ?_)
  rw [h.toList_eq hmem, hcounter]
  rfl

theorem Totals.exact (h : Totals snapshots (quotas, ids)) : ExactQuotas snapshots quotas where
  tenants := h.tenants
  staged := by
    rw [h.overTenants (·.stagedBytes) fun _ => rfl, h.global]
    rfl
  reserved := by
    rw [h.overTenants (·.reservedBytes) fun _ => rfl, h.global]
    rfl
  active := by
    rw [h.overTenants activeCount fun _ => rfl, h.global]
    rfl
  fits := by
    refine ⟨h.global ▸ h.fits, fun tenant hmem => ?_⟩
    rw [h.toList_eq hmem]
    exact fits_of_sublist List.filter_sublist h.fits

end Totals

theorem SameQuotas.of_perm {snapshots snapshots' : List FileMultipartSnapshotV1}
    {quotas quotas' : FileMultipartAggregateQuotas} {ids ids' : List String}
    (hperm : snapshots.Perm snapshots') (h : Totals snapshots (quotas, ids))
    (h' : Totals snapshots' (quotas', ids')) : SameQuotas quotas quotas' := by
  have huploads : (uploadsOf snapshots).Perm (uploadsOf snapshots') := hperm.filterMap _
  refine ⟨?_, fun tenantId => ?_⟩
  · exact h.global.trans ((usageOf_perm huploads).trans h'.global.symm)
  · have htenant : (ofTenant tenantId (uploadsOf snapshots)).Perm
        (ofTenant tenantId (uploadsOf snapshots')) := huploads.filter _
    have hnil : ofTenant tenantId (uploadsOf snapshots) = [] ↔
        ofTenant tenantId (uploadsOf snapshots') = [] :=
      ⟨fun heq => (heq ▸ htenant).symm.eq_nil, fun heq => (heq ▸ htenant).eq_nil⟩
    exact (h.tenants tenantId).trans
      ((if_congr hnil rfl (congrArg some (usageOf_perm htenant))).trans (h'.tenants tenantId).symm)

/-- In any order of the snapshots the reconstruction gives the same quotas, with exact
sums, or fails. -/
theorem reconstruct_order_independent {snapshots snapshots' : List FileMultipartSnapshotV1}
    (hperm : snapshots.Perm snapshots') (limits : StagingQuotaLimits) :
    (∃ quotas quotas', reconstructFileMultipartQuotas snapshots limits = .ok quotas ∧
        reconstructFileMultipartQuotas snapshots' limits = .ok quotas' ∧
        SameQuotas quotas quotas' ∧ ExactQuotas snapshots quotas) ∨
      ∃ error error', reconstructFileMultipartQuotas snapshots limits = .error error ∧
        reconstructFileMultipartQuotas snapshots' limits = .error error' := by
  cases hresult : reconstructFileMultipartQuotas snapshots limits with
  | ok quotas =>
      have hwithin := reconstructFileMultipartQuotas_isOk.mp ⟨quotas, hresult⟩
      obtain ⟨quotas', hresult'⟩ := reconstructFileMultipartQuotas_isOk.mpr (hwithin.perm hperm)
      obtain ⟨ids, htotals⟩ := reconstruct_totals hresult
      obtain ⟨ids', htotals'⟩ := reconstruct_totals hresult'
      exact .inl ⟨quotas, quotas', rfl, hresult', .of_perm hperm htotals htotals', htotals.exact⟩
  | error error =>
      cases hresult' : reconstructFileMultipartQuotas snapshots' limits with
      | error error' => exact .inr ⟨error, error', rfl, rfl⟩
      | ok quotas' =>
          have hwithin := reconstructFileMultipartQuotas_isOk.mp ⟨quotas', hresult'⟩
          obtain ⟨quotas, hok⟩ := reconstructFileMultipartQuotas_isOk.mpr (hwithin.perm hperm.symm)
          cases hresult.symm.trans hok

def otherIdentity : MultipartIdentity :=
  { sampleIdentity with
    tenantId := "other-tenant", uploadId := "01926b5e-0000-7000-8000-000000000003" }

/-- The sample upload with its part, and a new upload of another tenant. -/
def sampleSnapshots : List FileMultipartSnapshotV1 :=
  [(sampleReducer 3).snapshot,
    { (sampleReducer 1).snapshot with
      identity := some otherIdentity, upload := some { sampleUpload with identity := otherIdentity } }]

theorem reconstruct_sample_reversed : ∃ quotas quotas',
    reconstructFileMultipartQuotas sampleSnapshots ⟨1000, 1000⟩ = .ok quotas ∧
      reconstructFileMultipartQuotas sampleSnapshots.reverse ⟨1000, 1000⟩ = .ok quotas' ∧
      SameQuotas quotas quotas' ∧ ExactQuotas sampleSnapshots quotas ∧
      quotas.tenants.size = 2 ∧ quotas.global = ⟨200, 0, 2⟩ := by
  have hrun : (reconstructFileMultipartQuotas sampleSnapshots ⟨1000, 1000⟩).toOption.map
      (fun quotas => (quotas.tenants.size, quotas.global)) = some (2, ⟨200, 0, 2⟩) := by
    decide
  rcases reconstruct_order_independent sampleSnapshots.reverse_perm.symm ⟨1000, 1000⟩ with
    ⟨quotas, quotas', hquotas, hquotas', hsame, hexact⟩ | ⟨_, _, herror, -⟩
  · rw [hquotas] at hrun
    obtain ⟨hsize, hglobal⟩ := Prod.mk.inj (Option.some.inj hrun)
    exact ⟨quotas, quotas', hquotas, hquotas', hsame, hexact, hsize, hglobal⟩
  · rw [herror] at hrun
    cases hrun

end Maskura.Multipart
