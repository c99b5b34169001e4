import Maskura.Policy.Verify

/-!
What a history can still hide once it is verified. A chain is bound to its
head: each receipt names the digest of the one before it, so two accepted
chains with the same head are the same. An artifact is compared with the
checkpoints that the customer retained: none may contradict it. Whether it may
stop short of them is another question, and the verifier asks it only where
nothing anchors the artifact.
-/

namespace Maskura.Policy

open Maskura.Lib

variable {ρ : Type}

/-! ### One history for each head -/

section History

variable {env : ReceiptEnvironment ρ} {initial : TrustBundle}

/-- No body of the first list has the digest of another body of the second. -/
def NoReceiptCollision (env : ReceiptEnvironment ρ) (xs ys : List (SignedReceipt ρ)) : Prop :=
  ∀ x ∈ xs, ∀ y ∈ ys, ∀ digest, x.body.receiptDigest env = .ok digest →
    y.body.receiptDigest env = .ok digest → x.body = y.body

/-- Two runs from one state that end at the same sequence with the same head
took the same receipts. -/
theorem bodies_eq_of_head {s t u : ChainStart} {xs ys : List (SignedReceipt ρ)}
    (hcollision : NoReceiptCollision env xs ys)
    (hxs : xs.foldlM (advanceReceipt env) s = .ok t)
    (hys : ys.foldlM (advanceReceipt env) s = .ok u) (hseq : t.seq = u.seq)
    (hhead : t.head = u.head) : xs.map (·.body) = ys.map (·.body) := by
  -- The sequence numbers make the lists equally long.
  have hlength : xs.length = ys.length := by
    have ht := (chain_seq hxs).1
    have hu := (chain_seq hys).1
    omega
  induction xs using List.reverseRecOn generalizing ys t u with
  | nil => rw [List.length_eq_zero_iff.mp hlength.symm]
  | append_singleton xs x ih =>
      obtain ⟨ys, y, rfl⟩ : ∃ front last, ys = front ++ [last] := by
        refine (List.eq_nil_or_concat' ys).resolve_left fun hnil => ?_
        simp [hnil] at hlength
      obtain ⟨m, hm, hx⟩ := foldlM_concat_eq_ok.mp hxs
      obtain ⟨n, hn, hy⟩ := foldlM_concat_eq_ok.mp hys
      have hx := advanceReceipt_ok hx
      have hy := advanceReceipt_ok hy
      have hbody : x.body = y.body :=
        hcollision x (by simp) y (by simp) t.head hx.digest (hhead ▸ hy.digest)
      -- Equal bodies name the same predecessor.
      have hprev : m.head = n.head := by rw [← hx.prev, ← hy.prev, hbody]
      have hprevSeq : m.seq = n.seq := by
        have hxseq := hx.seq
        have hyseq := hy.seq
        rw [hbody] at hxseq
        omega
      have hfront := ih (fun a ha b hb => hcollision a (by simp [ha]) b (by simp [hb])) hm hn
        hprevSeq hprev (by simpa using hlength)
      rw [List.map_append, List.map_append, hfront, List.map_singleton, List.map_singleton, hbody]

/-- What a receipt may do to the envelope and the approved state. -/
structure EnvelopeLaw (version : ℕ) (envelope state : String) (body : ReceiptBody ρ) : Prop where
  monotone : version ≤ body.envelopeVersion
  version : body.purpose = .policyEnvelope ↔ version < body.envelopeVersion
  digest : body.purpose = .policyEnvelope ↔ envelope ≠ body.envelopeDigest
  state : body.purpose = .signerAuthority → body.effectiveStateDigest = state

theorem advanceReceipt_reapproves {s t : ChainStart} {receipt : SignedReceipt ρ}
    (h : advanceReceipt env s receipt = .ok t) (hpurpose : receipt.body.purpose = .signerAuthority) :
    receipt.body.effectiveStateDigest = s.state := by
  simp only [advanceReceipt, bind_eq_ok, rejectIf_eq_ok, exists_const] at h
  obtain ⟨-, -, _, -, hstate, -⟩ := h
  exact not_not.mp fun hne => hstate ⟨hpurpose, hne⟩

theorem advanceReceipt_envelopeLaw {s t : ChainStart} {receipt : SignedReceipt ρ}
    (h : advanceReceipt env s receipt = .ok t) :
    EnvelopeLaw s.version s.envelope s.state receipt.body := by
  have hrotation := (advanceReceipt_ok h).rotation
  unfold checkEnvelope at hrotation
  split at hrotation
  · next hpurpose =>
    simp only [rejectIf_eq_ok, not_or, not_le] at hrotation
    exact ⟨hrotation.1.le, iff_of_true hpurpose hrotation.1,
      iff_of_true hpurpose (Ne.symm hrotation.2), advanceReceipt_reapproves h⟩
  · next hpurpose =>
    simp only [rejectIf_eq_ok, not_or, not_not] at hrotation
    obtain ⟨-, henvelope, hversion⟩ := hrotation
    exact ⟨hversion.ge, iff_of_false hpurpose (by omega),
      iff_of_false hpurpose (not_not.mpr henvelope.symm), advanceReceipt_reapproves h⟩

/-- The law between two receipts in a row. -/
def KeepsEnvelope (earlier later : ReceiptBody ρ) : Prop :=
  EnvelopeLaw earlier.envelopeVersion earlier.envelopeDigest earlier.effectiveStateDigest later

/-- Along a run the law holds from the start to the first receipt and between
any two in a row. -/
theorem run_keepsEnvelope {s t : ChainStart} {receipts : List (SignedReceipt ρ)}
    (h : receipts.foldlM (advanceReceipt env) s = .ok t) :
    (∀ first ∈ receipts.head?, EnvelopeLaw s.version s.envelope s.state first.body) ∧
      (receipts.map (·.body)).IsChain KeepsEnvelope := by
  induction receipts generalizing s with
  | nil => exact ⟨fun _ hnone => (Option.not_mem_none _ hnone).elim, .nil⟩
  | cons receipt rest ih =>
      obtain ⟨m, hm, hrest⟩ := foldlM_cons_eq_ok.mp h
      obtain ⟨hnext, hchain⟩ := ih hrest
      have hadvance := advanceReceipt_ok hm
      refine ⟨fun first hfirst => ?_, ?_⟩
      · obtain rfl : receipt = first := Option.some.inj hfirst
        exact advanceReceipt_envelopeLaw hm
      · cases rest with
        | nil => exact .singleton _
        | cons second rest =>
            refine List.isChain_cons_cons.mpr ⟨?_, hchain⟩
            have hlaw := hnext second rfl
            rw [hadvance.version', hadvance.envelope', hadvance.state'] at hlaw
            exact hlaw

/-- Two accepted chains with one head are one chain, and along an accepted
chain the envelope only moves forward, at its rotations, while a change of
signers keeps the approved state. -/
theorem history_tamper_evident (env : ReceiptEnvironment ρ) (initial : TrustBundle)
    (xs ys : List (SignedReceipt ρ)) (p q : ChainReport)
    (hxs : verifyReceiptChain env xs initial none = .ok p)
    (hys : verifyReceiptChain env ys initial none = .ok q) :
    (NoReceiptCollision env xs ys → p.headReceiptSha256 = q.headReceiptSha256 →
        xs.map (·.body) = ys.map (·.body)) ∧
      (∀ first ∈ xs.head?, EnvelopeLaw 0 "" "" first.body) ∧
      (xs.map (·.body)).IsChain KeepsEnvelope := by
  obtain ⟨hxsNe, -, root, t, hroot, ht, rfl⟩ := verifyReceiptChain_none_eq_ok.mp hxs
  obtain ⟨hysNe, -, root', u, hroot', hu, rfl⟩ := verifyReceiptChain_none_eq_ok.mp hys
  refine ⟨fun hcollision hhead => ?_, run_keepsEnvelope ht⟩
  -- The last bodies have one digest, hence one sequence.
  obtain ⟨xs, x, rfl⟩ := (List.eq_nil_or_concat' xs).resolve_left hxsNe
  obtain ⟨ys, y, rfl⟩ := (List.eq_nil_or_concat' ys).resolve_left hysNe
  obtain ⟨m, -, hx⟩ := foldlM_concat_eq_ok.mp ht
  obtain ⟨n, -, hy⟩ := foldlM_concat_eq_ok.mp hu
  have hx := advanceReceipt_ok hx
  have hy := advanceReceipt_ok hy
  have hhead : t.head = u.head := hhead
  have hbody : x.body = y.body :=
    hcollision x (by simp) y (by simp) t.head hx.digest (hhead ▸ hy.digest)
  exact bodies_eq_of_head hcollision ht hu (by rw [hx.seq', hy.seq', hbody]) hhead

end History

/-- The second sample receipt under another assertion of its signer. -/
def sampleReasserted : SignedReceipt Unit :=
  { sampleReceipt 2 with proof := ⟨"cred-a", "", "", "again"⟩ }

/-- The bodies of the receipts have different digests, so the two chains with one head have
the same bodies, whoever asserted them when. -/
theorem sample_history_tamper_evident :
    sampleReasserted.proof ≠ (sampleReceipt 2).proof ∧
      ∃ p q, verifyReceiptChain sampleReceiptEnvironment [sampleReceipt 1, sampleReceipt 2]
          sampleGenesis none = .ok p ∧
        verifyReceiptChain sampleReceiptEnvironment [sampleReceipt 1, sampleReasserted]
          sampleGenesis none = .ok q ∧
        [sampleReceipt 1, sampleReceipt 2].map (·.body) =
          [sampleReceipt 1, sampleReasserted].map (·.body) ∧
        (∀ first ∈ [sampleReceipt 1, sampleReceipt 2].head?, EnvelopeLaw 0 "" "" first.body) ∧
        ([sampleReceipt 1, sampleReceipt 2].map (·.body)).IsChain KeepsEnvelope := by
  have hcollision : NoReceiptCollision sampleReceiptEnvironment [sampleReceipt 1, sampleReceipt 2]
      [sampleReceipt 1, sampleReasserted] := by
    -- Two different bodies would have to have one digest.
    intro x hx y hy digest hdx hdy
    have hsame := hdx.trans hdy.symm
    simp only [List.mem_cons, List.not_mem_nil, or_false] at hx hy
    rcases hx with rfl | rfl <;> rcases hy with rfl | rfl
    · rfl
    · exact absurd hsame (by decide)
    · exact absurd hsame (by decide)
    · rfl
  obtain ⟨hbodies, hfirst, hchain⟩ := history_tamper_evident sampleReceiptEnvironment sampleGenesis
    [sampleReceipt 1, sampleReceipt 2] [sampleReceipt 1, sampleReasserted] _ _ rfl rfl
  exact ⟨by decide, _, _, rfl, rfl, hbodies hcollision rfl, hfirst, hchain⟩

/-! ### Retained checkpoints -/

section Rollback

variable {env : ArtifactEnvironment ρ}

theorem divergent_none {digests : SeqDigests} {retained : List Checkpoint}
    (h : divergent digests retained = none) {checkpoint : Checkpoint}
    (hmem : checkpoint ∈ retained) {digest : String}
    (hdigest : digests.get checkpoint.receiptSeq = some digest) :
    digest = checkpoint.receiptSha256 := by
  have hnone := List.findSome?_eq_none_iff.mp h checkpoint hmem
  rw [hdigest] at hnone
  by_contra hne
  simp [Option.filter, hne] at hnone

/-- A verified artifact contradicts no retained checkpoint. -/
theorem verified_not_divergent {now : ℕ} {input : String} {state : TrustState}
    {opts : VerifyOptions} {pin : TrustPin} {valid : ValidBundle ρ env.toTrustEnvironment}
    (hpin : state.pin = some pin) (hinput : fromJson env input = .ok valid)
    (hverified : (verifyArtifact env now input state opts).verdict = .verified)
    {checkpoint : Checkpoint} (hmem : checkpoint ∈ state.lineage pin) {receipt : SignedReceipt ρ}
    (hreceipt : receipt ∈ valid.bundle.receipts)
    (hseq : receipt.body.seq = checkpoint.receiptSeq) :
    bodyDigest env receipt = .ok checkpoint.receiptSha256 := by
  obtain ⟨valid', pin', outcome, hinput', hpassed, hconsistent⟩ := verified_passed hverified
  obtain rfl := Except.ok.inj (hinput.symm.trans hinput')
  obtain rfl := Option.some.inj (hpin.symm.trans hpassed.pinned)
  have hnone : divergent (seqDigests env valid.bundle.receipts) (state.lineage pin) = none := by
    unfold consistencyFindings at hconsistent
    split at hconsistent
    · simp at hconsistent
    · assumption
  obtain ⟨digest, hdigest⟩ := hpassed.digests receipt hreceipt
  have hget := seqDigests_get hpassed.digests hpassed.distinct hreceipt hdigest
  rw [hseq] at hget
  rw [hdigest, divergent_none hnone hmem hget]

/-- No retained checkpoint has another digest at the sequence of a presented
receipt, and a head below the highest retained sequence is itself retained. -/
structure NoRollback (env : ArtifactEnvironment ρ) (retained : List Checkpoint)
    (artifact : ValidBundle ρ env.toTrustEnvironment) : Prop where
  agrees : ∀ checkpoint ∈ retained, ∀ receipt ∈ artifact.bundle.receipts,
    receipt.body.seq = checkpoint.receiptSeq →
      bodyDigest env receipt = .ok checkpoint.receiptSha256
  known : ∀ headSeq ∈ retainedHead retained, artifact.head.body.seq < headSeq →
    ∃ checkpoint ∈ retained, checkpoint.receiptSeq = artifact.head.body.seq ∧
      bodyDigest env artifact.head = .ok checkpoint.receiptSha256

/-- What links a segment to the pinned root or to retained history. -/
inductive AnchoredSegment (env : ArtifactEnvironment ρ) (pin : TrustPin)
    (retained : List Checkpoint) (artifact : ValidBundle ρ env.toTrustEnvironment) : Prop
  | previous {checkpoint : Checkpoint} (hmem : checkpoint ∈ retained)
      (hseq : checkpoint.receiptSeq + 1 = artifact.first.body.seq)
  | genesis {root : TrustBundle} (hroot : pin.genesisRoot env = some root)
      (hseq : artifact.first.body.seq = 1)
  | interior {checkpoint : Checkpoint} (hmem : checkpoint ∈ retained)
      (hfirst : artifact.first.body.seq ≤ checkpoint.receiptSeq)
      (hhead : checkpoint.receiptSeq < artifact.head.body.seq)
      (hdigest : (seqDigests env artifact.bundle.receipts).get checkpoint.receiptSeq =
        some checkpoint.receiptSha256)

/-- Where the verifier does not compare the head with the retained history: an anchored
segment that ends before a retained checkpoint, at a sequence with none. -/
structure HeadUnchecked (env : ArtifactEnvironment ρ) (pin : TrustPin)
    (retained : List Checkpoint) (artifact : ValidBundle ρ env.toTrustEnvironment) : Prop where
  anchored : AnchoredSegment env pin retained artifact
  beyond : ∃ checkpoint ∈ retained, artifact.head.body.seq < checkpoint.receiptSeq
  unknown : ∀ checkpoint ∈ retained, checkpoint.receiptSeq ≠ artifact.head.body.seq

theorem mem_of_maxBySeq {checkpoints : List Checkpoint} {best : Checkpoint}
    (h : maxBySeq checkpoints = some best) : best ∈ checkpoints := by
  induction checkpoints generalizing best with
  | nil => cases h
  | cons checkpoint rest ih =>
      rw [maxBySeq] at h
      split at h
      next found hfound =>
        split at h <;> cases h
        · exact List.mem_cons_self
        · exact List.mem_cons_of_mem _ (ih hfound)
      next =>
        cases h
        exact List.mem_cons_self

variable {pin : TrustPin} {retained : List Checkpoint}
  {artifact : ValidBundle ρ env.toTrustEnvironment} {outcome : SegmentOutcome}

/-- A segment that is verified is anchored, ends at a retained checkpoint, or stands by itself. -/
theorem verifySegment_linkage
    (h : verifySegment env pin retained (seqDigests env artifact.bundle.receipts) artifact =
      .ok outcome) :
    AnchoredSegment env pin retained artifact ∨
      (∃ checkpoint ∈ retained, checkpoint.receiptSeq = artifact.head.body.seq) ∨
      outcome.linkage = .selfContained := by
  rw [verifySegment] at h
  split at h
  next checkpoint hprevious =>
    rw [previousCheckpoint] at hprevious
    split at hprevious
    · cases hprevious
    · have hseq := List.find?_some hprevious
      simp only [decide_eq_true_eq] at hseq
      exact .inl (.previous (List.mem_of_find?_eq_some hprevious) (by omega))
  split at h
  next root hroot =>
    obtain ⟨hroot, hseq⟩ := Option.filter_eq_some_iff.mp hroot
    exact .inl (.genesis hroot (of_decide_eq_true hseq))
  rw [verifyInterior] at h
  split at h
  next checkpoint hinterior =>
    obtain ⟨hmem, hinside⟩ := List.mem_filter.mp (mem_of_maxBySeq hinterior)
    obtain ⟨hfirst, hhead, hdigest⟩ := of_decide_eq_true hinside
    exact .inl (.interior hmem hfirst hhead hdigest)
  split at h
  next checkpoint hhead =>
    have hfound := (Option.filter_eq_some_iff.mp hhead).1
    have hseq := List.find?_some hfound
    simp only [decide_eq_true_eq] at hseq
    exact .inr (.inl ⟨checkpoint, List.mem_of_find?_eq_some hfound, hseq.1⟩)
  next =>
    rw [verifyCarried] at h
    split at h
    · obtain ⟨-, -, houtcome⟩ := bind_eq_ok.mp h
      rw [← Except.ok.inj houtcome]
      exact .inr (.inr rfl)
    · cases h

/-- A segment that stands by itself beside retained history is a gap or a rollback. -/
theorem consistencyFindings_selfContained {digests : SeqDigests} {firstSeq headSeq : ℕ}
    (hretained : retained ≠ []) (hlinkage : outcome.linkage = .selfContained) :
    (consistencyFindings digests retained firstSeq headSeq outcome).any Finding.fatal = true := by
  rw [consistencyFindings]
  split
  · rfl
  · rw [if_neg hretained, hlinkage, linkageFindings]
    cases hhead : retainedHead retained with
    | none => exact absurd (by simpa [retainedHead] using hhead) hretained
    | some headRetained =>
        simp only [Option.toList_some, List.map_cons, List.map_nil, List.any_cons, List.any_nil]
        split <;> rfl

/-- With a checkpoint of the pinned lineage retained, a verified artifact rolls nothing back
if and only if it is not one whose head goes unchecked. -/
theorem no_rollback_iff_head_checked (env : ArtifactEnvironment ρ) (now : ℕ) (input : String)
    (state : TrustState) (opts : VerifyOptions) (pin : TrustPin)
    (artifact : ValidBundle ρ env.toTrustEnvironment) (hpin : state.pin = some pin)
    (hretained : state.lineage pin ≠ []) (hinput : fromJson env input = .ok artifact)
    (hverified : (verifyArtifact env now input state opts).verdict = .verified) :
    NoRollback env (state.lineage pin) artifact ↔
      ¬HeadUnchecked env pin (state.lineage pin) artifact := by
  constructor
  · rintro hnone ⟨-, ⟨checkpoint, hmem, hbeyond⟩, hunknown⟩
    obtain ⟨highest, hhighest⟩ : ∃ highest, retainedHead (state.lineage pin) = some highest := by
      refine Option.ne_none_iff_exists'.mp fun hnone => hretained ?_
      simpa [retainedHead] using hnone
    have hle := (List.max?_eq_some_iff.mp hhighest).2 _
      (List.mem_map_of_mem (f := (·.receiptSeq)) hmem)
    obtain ⟨known, hknown, hseq, -⟩ := hnone.known highest hhighest (hbeyond.trans_le hle)
    exact hunknown known hknown hseq
  · intro hchecked
    have hagrees : ∀ checkpoint ∈ state.lineage pin, ∀ receipt ∈ artifact.bundle.receipts,
        receipt.body.seq = checkpoint.receiptSeq →
          bodyDigest env receipt = .ok checkpoint.receiptSha256 :=
      fun _ hmem _ hreceipt hseq => verified_not_divergent hpin hinput hverified hmem hreceipt hseq
    refine ⟨hagrees, fun headSeq hhead hbelow => ?_⟩
    by_contra hnone
    have hunknown : ∀ checkpoint ∈ state.lineage pin,
        checkpoint.receiptSeq ≠ artifact.head.body.seq := fun checkpoint hmem hseq =>
      hnone ⟨checkpoint, hmem, hseq, hagrees checkpoint hmem _ (head_mem artifact) hseq.symm⟩
    obtain ⟨highest, hhighest, rfl⟩ := List.mem_map.mp (List.max?_eq_some_iff.mp hhead).1
    obtain ⟨artifact', pin', outcome, hinput', hpassed, hconsistent⟩ := verified_passed hverified
    obtain rfl := Except.ok.inj (hinput.symm.trans hinput')
    obtain rfl := Option.some.inj (hpin.symm.trans hpassed.pinned)
    rcases verifySegment_linkage hpassed.segment with hanchored | ⟨checkpoint, hmem, hseq⟩ | halone
    · exact hchecked ⟨hanchored, ⟨highest, hhighest, hbelow⟩, hunknown⟩
    · exact hunknown checkpoint hmem hseq
    · rw [consistencyFindings_selfContained hretained halone] at hconsistent
      cases hconsistent

end Rollback

/-- The history up to the rotation, without what came after it. -/
def sampleShortArtifact : ChainArtifact Unit where
  schemaVersion := evidenceSchemaVersion
  workspaceId := "ws-1"
  trustRootFingerprint := sampleRoot
  receipts := [sampleReceipt 1, sampleRotation]
  checkpoints := []
  witness := []

def sampleShortEnvironment : ArtifactEnvironment Unit :=
  { sampleArtifactEnvironment with parseEvidence := fun _ => .ok (.chain sampleShortArtifact) }

def sampleShortBundle : ValidBundle Unit sampleShortEnvironment.toTrustEnvironment :=
  ⟨.chain sampleShortArtifact, rfl⟩

/-- A checkpoint of the receipt after the rotation. -/
def sampleLaterCheckpoint : Checkpoint :=
  { sampleCheckpoint sampleRotatedBundle with
    receiptSeq := 3
    receiptSha256 := sampleDigest [3] }

/-- A customer who pinned the genesis and retained these checkpoints. -/
def sampleCustomer (retained : List Checkpoint) : TrustState := ⟨some samplePin, retained⟩

/-- A customer who retained the third receipt is shown the first two, from the
pinned genesis, and the verdict is `verified`. -/
theorem short_history_verified :
    fromJson sampleShortEnvironment "short" = .ok sampleShortBundle ∧
      (sampleCustomer [sampleLaterCheckpoint]).lineage samplePin ≠ [] ∧
      (verifyArtifact sampleShortEnvironment 50 "short" (sampleCustomer [sampleLaterCheckpoint])
        ⟨none⟩).verdict = .verified ∧
      ¬NoRollback sampleShortEnvironment
        ((sampleCustomer [sampleLaterCheckpoint]).lineage samplePin) sampleShortBundle := by
  refine ⟨rfl, List.cons_ne_nil _ _, rfl, fun h => ?_⟩
  obtain ⟨checkpoint, hmem, hseq, -⟩ := h.known 3 rfl (by decide)
  obtain rfl := List.mem_singleton.mp hmem
  exact absurd hseq (by decide)

/-- With the rotation retained as well, its head is known. -/
theorem sample_no_rollback_iff_head_checked :
    NoRollback sampleShortEnvironment
      ((sampleCustomer [sampleCheckpoint sampleRotatedBundle, sampleLaterCheckpoint]).lineage
        samplePin) sampleShortBundle :=
  (no_rollback_iff_head_checked sampleShortEnvironment 50 "short"
    (sampleCustomer [sampleCheckpoint sampleRotatedBundle, sampleLaterCheckpoint]) ⟨none⟩
    samplePin sampleShortBundle rfl (List.cons_ne_nil _ _) rfl rfl).mpr
    fun h => h.unknown (sampleCheckpoint sampleRotatedBundle) List.mem_cons_self rfl

end Maskura.Policy
