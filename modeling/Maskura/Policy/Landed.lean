import Maskura.Lib.Sorted
import Maskura.Policy.Verify

/-!
The receipt an evidence artifact was exported for, and the head that verification
reports for it. The head is the last receipt of the sorted segment, and the carried
checkpoint is compared with that one; the approval is compared with the landed
receipt, wherever in the segment it stands.
-/

namespace Maskura.Policy

open Maskura.Lib
open Maskura.Persistence (Bytes)

variable {ρ : Type} {env : ArtifactEnvironment ρ} {receipts : List (SignedReceipt ρ)}

/-! ### The reported head -/

section Reported

variable {input : String} {state : TrustState} {evaluatedAt : ℕ} {builder : Builder}
  {artifact : ValidBundle ρ env.toTrustEnvironment}

theorem push_summary (builder : Builder) (finding : Finding) :
    (builder.push finding).summary = builder.summary := rfl

@[simp] theorem pushAll_summary (builder : Builder) (findings : List Finding) :
    (builder.pushAll findings).summary = builder.summary := by
  induction findings generalizing builder with
  | nil => rfl
  | cons finding rest ih => exact ih (builder.push finding)

/-- Of an artifact that went through all stages, the head of the segment is reported,
and its approval was compared. -/
theorem pipeline_reports (hread : fromJson env input = .ok artifact)
    (h : pipeline env input state evaluatedAt = .ok builder) :
    builder.summary.headSeq = some artifact.head.body.seq ∧
      builder.summary.headReceiptSha256 =
        (seqDigests env artifact.bundle.receipts).get artifact.head.body.seq ∧
      checkApproval artifact.bundle = .ok () := by
  simp only [pipeline, bind_eq_ok, orFail_eq_ok, pure_eq_ok] at h
  obtain ⟨artifact', hread', _, -, _, -, _, -, _, -, _, -, _, -, pin, -, outcome, -, _, -, _,
    happroval, rfl⟩ := h
  obtain rfl := Except.ok.inj (hread.symm.trans (mapError_eq_ok.mp hread'))
  simp only [push_summary, pushAll_summary]
  exact ⟨trivial, trivial, happroval⟩

end Reported

/-! ### The order of the tail -/

section Order

/-- What the stages before the segment ask of the receipts. -/
structure Presentable (env : ArtifactEnvironment ρ) (receipts : List (SignedReceipt ρ)) : Prop where
  digests : ∀ receipt ∈ receipts, ∃ digest, bodyDigest env receipt = .ok digest
  bodies : ∀ receipt ∈ receipts, checkBody env receipt = .ok ()
  distinct : (receipts.map (·.body.seq)).Nodup

theorem Presentable.perm {receipts receipts' : List (SignedReceipt ρ)}
    (h : Presentable env receipts) (hperm : receipts.Perm receipts') : Presentable env receipts' where
  digests receipt hmem := h.digests receipt (hperm.mem_iff.2 hmem)
  bodies receipt hmem := h.bodies receipt (hperm.mem_iff.2 hmem)
  distinct := (hperm.map _).nodup_iff.1 h.distinct

theorem checkDigests_eq_ok {builder : Builder} :
    checkDigests env builder receipts = .ok () ↔
      ∀ receipt ∈ receipts, ∃ digest, bodyDigest env receipt = .ok digest := by
  refine ⟨checkDigests_ok, fun h => ?_⟩
  have hnone : receipts.filterMap (digestFailure env) = [] := by
    refine List.filterMap_eq_nil_iff.2 fun receipt hmem => ?_
    obtain ⟨digest, hdigest⟩ := h receipt hmem
    rw [digestFailure, hdigest]
  rw [checkDigests, hnone]

theorem checkDigests_summary {builder failed : Builder}
    (h : checkDigests env builder receipts = .error failed) : failed.summary = builder.summary := by
  have hfold : ∀ (failures : List Failure) (builder : Builder),
      (failures.foldl Builder.fail builder).summary = builder.summary := by
    intro failures
    induction failures with
    | nil => exact fun _ => rfl
    | cons failure failures ih => exact fun builder => ih (builder.fail failure)
  rw [checkDigests] at h
  split at h
  · cases h
  · obtain rfl := Except.error.inj h
    exact hfold _ _

theorem checkDuplicates_eq_ok
    (hdigests : ∀ receipt ∈ receipts, ∃ digest, bodyDigest env receipt = .ok digest) :
    checkDuplicates receipts (seqDigests env receipts) = .ok () ↔
      (receipts.map (·.body.seq)).Nodup := by
  refine ⟨checkDuplicates_ok hdigests, fun hnodup => ?_⟩
  rw [checkDuplicates, seqDigests_keys hdigests, hnodup.dedup, rejectIf_neg (by simp)]

@[simp] theorem orFail_ok {α : Type} (builder : Builder) (a : α) :
    builder.orFail (.ok a) = .ok a := rfl

theorem Presentable.checkDigests (h : Presentable env receipts) (builder : Builder) :
    checkDigests env builder receipts = .ok () :=
  checkDigests_eq_ok.2 h.digests

theorem Presentable.checkBodies (h : Presentable env receipts) :
    receipts.forM (checkBody env) = .ok () := forM_eq_ok.2 h.bodies

theorem Presentable.checkDuplicates (h : Presentable env receipts) :
    checkDuplicates receipts (seqDigests env receipts) = .ok () :=
  (checkDuplicates_eq_ok h.digests).2 h.distinct

/-- The digests are looked up by sequence, so their order does not matter. -/
theorem seqDigests_get_perm {receipts receipts' : List (SignedReceipt ρ)}
    (h : Presentable env receipts) (hperm : receipts.Perm receipts') (seq : ℕ) :
    (seqDigests env receipts').get seq = (seqDigests env receipts).get seq := by
  have h' := h.perm hperm
  by_cases hseq : ∃ receipt ∈ receipts, receipt.body.seq = seq
  · obtain ⟨receipt, hmem, rfl⟩ := hseq
    obtain ⟨digest, hdigest⟩ := h.digests receipt hmem
    rw [seqDigests_get h.digests h.distinct hmem hdigest,
      seqDigests_get h'.digests h'.distinct (hperm.mem_iff.1 hmem) hdigest]
  · have hnone : ∀ rs : List (SignedReceipt ρ), (∀ receipt ∈ rs, receipt.body.seq ≠ seq) →
        (seqDigests env rs).get seq = none := fun rs hrs => by
      refine List.lookup_eq_none_iff.2 fun pair hpair => ?_
      obtain ⟨receipt, hmem, hpair⟩ := List.mem_filterMap.1 hpair
      obtain ⟨digest, -, rfl⟩ := Option.map_eq_some_iff.1 hpair
      simpa using (hrs receipt hmem).symm
    push Not at hseq
    rw [hnone receipts hseq, hnone receipts' fun receipt hmem => hseq receipt (hperm.mem_iff.2 hmem)]

section Lookup

variable {digests digests' : SeqDigests} (hget : ∀ seq, digests'.get seq = digests.get seq)
include hget

theorem checkSegment_congr (segment : List (SignedReceipt ρ)) :
    checkSegment digests' segment = checkSegment digests segment := by
  fun_induction checkSegment digests segment with
  | case1 => rfl
  | case2 => rfl
  | case3 current next rest ih => rw [checkSegment, hget, ih]

theorem verifyInterior_congr (pin : TrustPin) (retained : List Checkpoint) (bundle : EvidenceBundle ρ)
    (segment : List (SignedReceipt ρ)) (first head : SignedReceipt ρ) :
    verifyInterior env pin retained digests' bundle segment first head =
      verifyInterior env pin retained digests bundle segment first head := by
  simp only [verifyInterior, interiorCheckpoint, reconfirmedHead, hget]

theorem consistencyFindings_congr (retained : List Checkpoint) (firstSeq headSeq : ℕ)
    (outcome : SegmentOutcome) :
    consistencyFindings digests' retained firstSeq headSeq outcome =
      consistencyFindings digests retained firstSeq headSeq outcome := by
  simp only [consistencyFindings, divergent, hget]

end Lookup

variable {artifact : EvidenceArtifact ρ} {tail : List (SignedReceipt ρ)}
  {hshape : (EvidenceBundle.evidence artifact).validate env.toTrustEnvironment = .ok ()}
  {hshape' : (EvidenceBundle.evidence { artifact with chainTail := tail }).validate
    env.toTrustEnvironment = .ok ()} {input input' : String} {state : TrustState} {evaluatedAt : ℕ}

theorem pipeline_perm (hperm : artifact.chainTail.Perm tail)
    (hread : fromJson env input = .ok ⟨.evidence artifact, hshape⟩)
    (hread' : fromJson env input' = .ok ⟨.evidence { artifact with chainTail := tail }, hshape'⟩)
    (h : Presentable env (EvidenceBundle.evidence artifact).receipts) :
    pipeline env input' state evaluatedAt = pipeline env input state evaluatedAt := by
  set valid : ValidBundle ρ env.toTrustEnvironment := ⟨.evidence artifact, hshape⟩
  set valid' : ValidBundle ρ env.toTrustEnvironment :=
    ⟨.evidence { artifact with chainTail := tail }, hshape'⟩
  have h : Presentable env valid.bundle.receipts := h
  have hreceipts : valid.bundle.receipts.Perm valid'.bundle.receipts := hperm.append_right _
  have h' : Presentable env valid'.bundle.receipts := h.perm hreceipts
  have hget := seqDigests_get_perm h hreceipts
  have hsegment : valid'.bundle.segment = valid.bundle.segment :=
    (insertionSort_key_eq_of_perm hreceipts h.distinct).symm
  have hhead : valid'.head = valid.head := by simp only [ValidBundle.head, hsegment]
  have hfirst : valid'.first = valid.first := by simp only [ValidBundle.first, hsegment]
  have hlinks : checkLinks env valid' (seqDigests env valid'.bundle.receipts) =
      checkLinks env valid (seqDigests env valid.bundle.receipts) := by
    simp only [checkLinks, valid, valid', checkContainerLinks]
    rw [hhead, hget]
  have hverify : ∀ pin retained,
      verifySegment env pin retained (seqDigests env valid'.bundle.receipts) valid' =
        verifySegment env pin retained (seqDigests env valid.bundle.receipts) valid := by
    intro pin retained
    simp only [verifySegment]
    rw [hfirst, hhead, hsegment, verifyInterior_congr hget]
    rfl
  have hcontainer : readContainer env input = .ok valid := mapError_eq_ok.2 hread
  have hcontainer' : readContainer env input' = .ok valid' := mapError_eq_ok.2 hread'
  -- No other stage looks at the tail.
  have hkind : valid'.bundle.kind = valid.bundle.kind := rfl
  have hworkspace : valid'.bundle.workspaceId = valid.bundle.workspaceId := rfl
  have hpin : checkPin env state valid'.bundle = checkPin env state valid.bundle := rfl
  have hsources : ∀ pin retained, resetSources pin retained valid'.bundle =
      resetSources pin retained valid.bundle := fun _ _ => rfl
  have hcarried : ∀ head report, checkCarried env valid'.bundle head report =
      checkCarried env valid.bundle head report := fun _ _ => rfl
  have happroval : checkApproval valid'.bundle = checkApproval valid.bundle := rfl
  have hwitness : valid'.bundle.witness = valid.bundle.witness := rfl
  simp only [pipeline, hcontainer, hcontainer', orFail_ok, ok_bind, h.checkDigests, h'.checkDigests,
    h.checkBodies, h'.checkBodies, h.checkDuplicates, h'.checkDuplicates, hsegment,
    checkSegment_congr hget, hfirst, hlinks, hhead, hget, hverify, consistencyFindings_congr hget,
    hkind, hworkspace, hpin, hsources, hcarried, happroval, hwitness]

/-- A bundle with a receipt that is not presentable fails before any head is reported. -/
theorem pipeline_not_presentable (state : TrustState) (evaluatedAt : ℕ)
    {valid : ValidBundle ρ env.toTrustEnvironment}
    (hread : fromJson env input = .ok valid) (h : ¬Presentable env valid.bundle.receipts) :
    ∃ builder, pipeline env input state evaluatedAt = .error builder ∧ builder.fatal = true ∧
      builder.summary.headSeq = none ∧ builder.summary.headReceiptSha256 = none := by
  have hcontainer : readContainer env input = .ok valid := mapError_eq_ok.2 hread
  simp only [pipeline, hcontainer, orFail_ok, ok_bind]
  cases hdigests : checkDigests env _ valid.bundle.receipts with
  | error builder =>
      refine ⟨builder, rfl, checkDigests_failsFatally _ _ _ hdigests, ?_⟩
      rw [checkDigests_summary hdigests]
      exact ⟨rfl, rfl⟩
  | ok =>
      rw [ok_bind]
      cases hbodies : valid.bundle.receipts.forM (checkBody env) with
      | error failure => exact ⟨_, rfl, fail_fatal _ _, rfl, rfl⟩
      | ok =>
          rw [orFail_ok, ok_bind]
          cases hduplicates : checkDuplicates valid.bundle.receipts
              (seqDigests env valid.bundle.receipts) with
          | error failure => exact ⟨_, rfl, fail_fatal _ _, rfl, rfl⟩
          | ok =>
              have hdigests := checkDigests_ok hdigests
              exact absurd ⟨hdigests, forM_eq_ok.1 hbodies, checkDuplicates_ok hdigests hduplicates⟩ h

/-- The order of the tail changes neither the verdict nor the reported head. -/
theorem verifyArtifact_perm (hperm : artifact.chainTail.Perm tail)
    (hread : fromJson env input = .ok ⟨.evidence artifact, hshape⟩)
    (hread' : fromJson env input' = .ok ⟨.evidence { artifact with chainTail := tail }, hshape'⟩)
    (now : ℕ) (opts : VerifyOptions) :
    (verifyArtifact env now input' state opts).verdict =
        (verifyArtifact env now input state opts).verdict ∧
      (verifyArtifact env now input' state opts).artifact.headSeq =
        (verifyArtifact env now input state opts).artifact.headSeq ∧
      (verifyArtifact env now input' state opts).artifact.headReceiptSha256 =
        (verifyArtifact env now input state opts).artifact.headReceiptSha256 := by
  by_cases h : Presentable env (EvidenceBundle.evidence artifact).receipts
  · rw [verifyArtifact, verifyArtifact, pipeline_perm hperm hread hread' h]
    exact ⟨rfl, rfl, rfl⟩
  · have h' : ¬Presentable env (EvidenceBundle.evidence { artifact with chainTail := tail }).receipts :=
      fun hpresentable => h (hpresentable.perm (hperm.symm.append_right _))
    obtain ⟨builder, hpipeline, hfatal, hseq, hdigest⟩ :=
      pipeline_not_presentable state (opts.at?.getD now) hread h
    obtain ⟨builder', hpipeline', hfatal', hseq', hdigest'⟩ :=
      pipeline_not_presentable state (opts.at?.getD now) hread' h'
    simp [verifyArtifact, hpipeline, hpipeline', Builder.finish, hfatal, hfatal', hseq, hseq', hdigest,
      hdigest']

end Order

/-! ### The landed receipt -/

/-- The report is about the landed receipt, which the approval belongs to. -/
structure LandedIsHead (env : ArtifactEnvironment ρ) (artifact : EvidenceArtifact ρ)
    (report : VerificationReport) : Prop where
  seq : report.artifact.headSeq = some artifact.receipt.body.seq
  digest : ∃ digest, bodyDigest env artifact.receipt = .ok digest ∧
    report.artifact.headReceiptSha256 = some digest
  tail : ∀ receipt ∈ artifact.chainTail, receipt.body.seq < artifact.receipt.body.seq
  approval : ∀ receipt ∈ (EvidenceBundle.evidence artifact).receipts,
    report.artifact.headSeq = some receipt.body.seq → artifact.approval.proof = receipt.proof

section Landed

variable {artifact : EvidenceArtifact ρ}
  {hshape : (EvidenceBundle.evidence artifact).validate env.toTrustEnvironment = .ok ()}
  {input : String} {state : TrustState}

/-- No presented receipt is behind the head. -/
theorem seq_le_head {valid : ValidBundle ρ env.toTrustEnvironment} {receipt : SignedReceipt ρ}
    (hmem : receipt ∈ valid.bundle.receipts) : receipt.body.seq ≤ valid.head.body.seq := by
  have : Std.Total fun a b : SignedReceipt ρ => a.body.seq ≤ b.body.seq := ⟨fun a b => le_total _ _⟩
  have : IsTrans (SignedReceipt ρ) fun a b => a.body.seq ≤ b.body.seq := ⟨fun _ _ _ => le_trans⟩
  have hsorted : valid.bundle.segment.Pairwise fun a b => a.body.seq ≤ b.body.seq :=
    List.pairwise_insertionSort _ _
  obtain ⟨front, last, hsplit⟩ := (List.eq_nil_or_concat' _).resolve_left valid.segment_ne_nil
  have hlast : valid.head = last := by simp [ValidBundle.head, hsplit]
  rw [hsplit] at hsorted
  have hmem : receipt ∈ front ++ [last] := hsplit ▸ mem_segment.mpr hmem
  rcases List.mem_append.1 hmem with hfront | hend
  · rw [hlast]
    exact (List.pairwise_append.1 hsorted).2.2 receipt hfront last List.mem_cons_self
  · rw [hlast, List.mem_singleton.1 hend]

theorem landedIsHead_iff {now : ℕ} {opts : VerifyOptions}
    (hread : fromJson env input = .ok ⟨.evidence artifact, hshape⟩)
    (hverified : (verifyArtifact env now input state opts).verdict = .verified) :
    LandedIsHead env artifact (verifyArtifact env now input state opts) ↔
      artifact.checkpoint.receiptSeq = artifact.receipt.body.seq := by
  obtain ⟨valid, pin, outcome, hread', hpassed, -⟩ := verified_passed hverified
  obtain rfl := Except.ok.inj (hread.symm.trans hread')
  set valid : ValidBundle ρ env.toTrustEnvironment := ⟨.evidence artifact, hshape⟩
  have hseq : artifact.checkpoint.receiptSeq = valid.head.body.seq :=
    (checkCheckpointLink_ok hpassed.links).seq
  -- The summary of the report is the one of the pipeline.
  obtain ⟨builder, hpipeline, hreport⟩ : ∃ builder,
      pipeline env input state (opts.at?.getD now) = .ok builder ∧
        verifyArtifact env now input state opts = builder.finish := by
    cases hpipeline : pipeline env input state (opts.at?.getD now) with
    | ok builder => exact ⟨builder, rfl, by rw [verifyArtifact, hpipeline]⟩
    | error builder =>
        rw [verifyArtifact, hpipeline] at hverified
        simp [Builder.finish, pipeline_failsFatally _ _ _ builder hpipeline] at hverified
  obtain ⟨hheadSeq, hheadDigest, happroval⟩ := pipeline_reports hread hpipeline
  have hlanded : artifact.receipt ∈ valid.bundle.receipts :=
    List.mem_append_right _ List.mem_cons_self
  rw [hreport, hseq]
  constructor
  · intro h
    exact Option.some.inj (hheadSeq.symm.trans h.seq)
  · intro hhead
    have hsame : valid.head = artifact.receipt :=
      List.inj_on_of_nodup_map hpassed.distinct (head_mem valid) hlanded hhead
    obtain ⟨digest, hdigest⟩ := hpassed.digests _ hlanded
    have hproof : artifact.approval.proof = artifact.receipt.proof := by
      have hmatches := mapError_eq_ok.mp happroval
      simp only [approvalMatches, bind_eq_ok, rejectIf_eq_ok, exists_const, not_not, ne_eq]
        at hmatches
      exact hmatches.2
    refine ⟨hheadSeq.trans (by rw [hsame]), ⟨digest, hdigest, hheadDigest.trans ?_⟩, ?_, ?_⟩
    · rw [hsame]
      exact seqDigests_get hpassed.digests hpassed.distinct hlanded hdigest
    · intro receipt hmem
      have hpresented : receipt ∈ valid.bundle.receipts := List.mem_append_left _ hmem
      have hle : receipt.body.seq ≤ artifact.receipt.body.seq := hsame ▸ seq_le_head hpresented
      refine lt_of_le_of_ne hle fun hseq => ?_
      -- No two presented receipts have one sequence, and the landed one stands behind the tail.
      have hdistinct : ((artifact.chainTail ++ [artifact.receipt]).map (·.body.seq)).Nodup :=
        hpassed.distinct
      rw [List.map_append, List.nodup_append] at hdistinct
      exact hdistinct.2.2 _ (List.mem_map_of_mem hmem) _ (List.mem_map_of_mem List.mem_cons_self) hseq
    · intro receipt hmem hreceipt
      have : receipt = artifact.receipt := by
        refine List.inj_on_of_nodup_map hpassed.distinct hmem hlanded ?_
        exact Option.some.inj (hreceipt.symm.trans (hheadSeq.trans (by rw [hsame])))
      rw [this, hproof]

/-- Of an evidence artifact that verifies, the landed receipt is the reported head
exactly if the carried checkpoint is one of that receipt; and for no artifact does the
order of the tail matter. -/
theorem landed_receipt_is_head_iff (env : ArtifactEnvironment ρ) (now : ℕ) (input : String)
    (state : TrustState) (opts : VerifyOptions) (artifact : EvidenceArtifact ρ)
    (hshape : (EvidenceBundle.evidence artifact).validate env.toTrustEnvironment = .ok ())
    (hread : fromJson env input = .ok ⟨.evidence artifact, hshape⟩) :
    ((verifyArtifact env now input state opts).verdict = .verified →
      (LandedIsHead env artifact (verifyArtifact env now input state opts) ↔
        artifact.checkpoint.receiptSeq = artifact.receipt.body.seq)) ∧
    ∀ (input' : String) (tail : List (SignedReceipt ρ))
      (hshape' : (EvidenceBundle.evidence { artifact with chainTail := tail }).validate
        env.toTrustEnvironment = .ok ()), artifact.chainTail.Perm tail →
      fromJson env input' = .ok ⟨.evidence { artifact with chainTail := tail }, hshape'⟩ →
      (verifyArtifact env now input' state opts).verdict =
          (verifyArtifact env now input state opts).verdict ∧
        (verifyArtifact env now input' state opts).artifact.headSeq =
          (verifyArtifact env now input state opts).artifact.headSeq ∧
        (verifyArtifact env now input' state opts).artifact.headReceiptSha256 =
          (verifyArtifact env now input state opts).artifact.headReceiptSha256 :=
  ⟨landedIsHead_iff hread, fun _ _ _ hperm hread' => verifyArtifact_perm hperm hread hread' now opts⟩

end Landed

/-! ### A chain of three receipts -/

section Sample

/-- An export of the last receipt of the sample chain, or of the first one with the
later receipts as its tail. -/
def sampleEvidence (receipt : SignedReceipt Unit) (tail : List (SignedReceipt Unit)) :
    EvidenceArtifact Unit where
  schemaVersion := evidenceSchemaVersion
  workspaceId := "ws-1"
  trustRootFingerprint := sampleRoot
  receipt := receipt
  checkpoint :=
    { sampleCheckpoint sampleRotatedBundle with receiptSeq := 3, receiptSha256 := sampleDigest [3] }
  approval := ⟨receipt.proof, -7⟩
  chainTail := tail
  witness := []

def sampleEvidenceEnvironment : ArtifactEnvironment Unit where
  toReceiptEnvironment := sampleReceiptEnvironment
  parseEvidence text :=
    if text = "landed" then .ok (.evidence (sampleEvidence sampleRotated [sampleRotation, sampleReceipt 1]))
    else if text = "permuted" then
      .ok (.evidence (sampleEvidence sampleRotated [sampleReceipt 1, sampleRotation]))
    else if text = "first" then
      .ok (.evidence (sampleEvidence (sampleReceipt 1) [sampleRotation, sampleRotated]))
    else .error (.invalid "evidence must be a JSON object")

theorem landed_receipt_is_head_sample :
    LandedIsHead sampleEvidenceEnvironment (sampleEvidence sampleRotated [sampleRotation, sampleReceipt 1])
        (verifyArtifact sampleEvidenceEnvironment 50 "landed" ⟨some samplePin, []⟩ ⟨none⟩) ∧
      (verifyArtifact sampleEvidenceEnvironment 50 "permuted" ⟨some samplePin, []⟩ ⟨none⟩).verdict =
        .verified := by
  have hverified : (verifyArtifact sampleEvidenceEnvironment 50 "landed" ⟨some samplePin, []⟩
      ⟨none⟩).verdict = .verified := rfl
  obtain ⟨hhead, hperm⟩ := landed_receipt_is_head_iff sampleEvidenceEnvironment 50 "landed"
    ⟨some samplePin, []⟩ ⟨none⟩ (sampleEvidence sampleRotated [sampleRotation, sampleReceipt 1]) rfl rfl
  exact ⟨(hhead hverified).2 rfl,
    (hperm "permuted" [sampleReceipt 1, sampleRotation] rfl (List.Perm.swap _ _ _) rfl).1.trans
      hverified⟩

/-- The first receipt is exported with the approval of it and verifies with the third
as its head. -/
theorem landed_receipt_not_head :
    fromJson sampleEvidenceEnvironment "first" =
        .ok ⟨.evidence (sampleEvidence (sampleReceipt 1) [sampleRotation, sampleRotated]), rfl⟩ ∧
      (verifyArtifact sampleEvidenceEnvironment 50 "first" ⟨some samplePin, []⟩ ⟨none⟩).verdict =
        .verified ∧
      (verifyArtifact sampleEvidenceEnvironment 50 "first" ⟨some samplePin, []⟩ ⟨none⟩).artifact.headSeq =
        some 3 ∧
      (sampleEvidence (sampleReceipt 1) [sampleRotation, sampleRotated]).receipt.body.seq = 1 ∧
      (sampleEvidence (sampleReceipt 1) [sampleRotation, sampleRotated]).approval.proof ≠
        sampleRotated.proof := by
  refine ⟨rfl, rfl, rfl, rfl, ?_⟩
  decide

end Sample

end Maskura.Policy
