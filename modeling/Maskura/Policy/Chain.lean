import Maskura.Lib.Fold
import Maskura.Policy.Receipt

/-!
Receipt chains: the reducer that carries the authority from one receipt to the
next, and its three entry points. A checkpoint is the whole state of the
reducer, so a chain may be verified in one go or in two.
-/

namespace Maskura.Policy

open Maskura.Lib
open Maskura.Persistence (Bytes u64Bound)

variable {ρ : Type}

/-! ### The reducer -/

structure ChainReport where
  headSeq : ℕ
  headReceiptSha256 : String
  envelopeDigest : String
  envelopeVersion : ℕ
  effectiveStateDigest : String
  initialBundleSha256 : String
  authorization : TrustBundle
  receiptCount : ℕ
  extendsCheckpoint : Bool
  deriving DecidableEq, Repr

def ChainReport.checkpoint (self : ChainReport) (verifiedAt : ℕ) : Checkpoint where
  schemaVersion := checkpointSchemaVersion
  workspaceId := self.authorization.workspaceId
  receiptSeq := self.headSeq
  receiptSha256 := self.headReceiptSha256
  envelopeDigest := self.envelopeDigest
  envelopeVersion := self.envelopeVersion
  effectiveStateDigest := self.effectiveStateDigest
  initialBundleSha256 := self.initialBundleSha256
  authorization := self.authorization
  verifiedAt := verifiedAt

/-- What the loop of `advance_chain` carries. -/
structure ChainStart where
  authority : TrustBundle
  seq : ℕ
  head : String
  envelope : String
  version : ℕ
  state : String
  deriving DecidableEq, Repr

/-- The chain before its first receipt. -/
def ChainStart.genesis (initial : TrustBundle) : ChainStart :=
  ⟨initial, 0, genesisPrev, "", 0, ""⟩

def ChainStart.ofCheckpoint (checkpoint : Checkpoint) : ChainStart :=
  ⟨checkpoint.authorization, checkpoint.receiptSeq, checkpoint.receiptSha256,
    checkpoint.envelopeDigest, checkpoint.envelopeVersion, checkpoint.effectiveStateDigest⟩

/-- Revoke the first credential with this id, if there is one. -/
def retireCredential (id : Option String) (epoch : ℕ) :
    List TrustCredential → Option (List TrustCredential)
  | [] => none
  | credential :: rest =>
      if some credential.credentialId = id then
        some ({ credential with status := .revoked, revokedEpoch := some epoch } :: rest)
      else
        (retireCredential id epoch rest).map (credential :: ·)

/-- The credentials that stay, the retired one among them. -/
def keptCredentials (body : ReceiptBody ρ) (epoch : ℕ) (credentials : List TrustCredential) :
    Except ConfigError (List TrustCredential) :=
  if body.action = .replaceSigner then
    okOr (retireCredential body.replacedCredentialId epoch credentials)
      (.approval "unknown transition authorizer")
  else .ok credentials

/-- Only a rotation changes the envelope, and it always does. -/
def checkEnvelope (s : ChainStart) (body : ReceiptBody ρ) : Except ConfigError Unit :=
  if body.purpose = .policyEnvelope then
    rejectIf (body.envelopeVersion ≤ s.version ∨ body.envelopeDigest = s.envelope)
      (.approval "envelope rotation must advance version and artifact")
  else
    rejectIf (s.version = 0 ∨ body.envelopeDigest ≠ s.envelope ∨ body.envelopeVersion ≠ s.version)
      (.approval "envelope must be activated first and changed only by rotation")

section Advance

variable (env : ReceiptEnvironment ρ)

/-- The authority after a receipt that introduces a credential. -/
def applyTransition (body : ReceiptBody ρ) (authority : TrustBundle)
    (replacement : TrustCredential) : Except ConfigError TrustBundle := do
  let epoch := body.signerEpoch + 1
  rejectIf (epoch ≥ u64Bound) (.approval "authorization epoch overflow")
  let kept ← keptCredentials body epoch authority.credentials
  let authority :=
    { authority with signerEpoch := epoch, credentials := kept ++ [replacement] }
  authority.validate env.toTrustEnvironment
  return authority

def nextAuthority (body : ReceiptBody ρ) (authority : TrustBundle) :
    Except ConfigError TrustBundle :=
  match body.replacement with
  | some replacement => applyTransition env body authority replacement
  | none => .ok authority

/-- One round of `advance_chain`. -/
def advanceReceipt (s : ChainStart) (receipt : SignedReceipt ρ) : Except ConfigError ChainStart := do
  let body := receipt.body
  let next := s.seq + 1
  rejectIf (next ≥ u64Bound) (.approval "receipt sequence overflow")
  rejectIf (body.seq ≠ next ∨ body.prevReceiptSha256 ≠ s.head)
    (.approval "receipt sequence or predecessor mismatch")
  checkEnvelope s body
  rejectIf (body.purpose = .signerAuthority ∧ body.effectiveStateDigest ≠ s.state)
    (.approval "replacement must re-approve the current resolved configuration")
  let _ ← verifyReceipt env receipt s.authority
  let authority ← nextAuthority env body s.authority
  let head ← body.receiptDigest env
  return ⟨authority, body.seq, head, body.envelopeDigest, body.envelopeVersion,
    body.effectiveStateDigest⟩

def ChainStart.report (self : ChainStart) (root : String) (receiptCount : ℕ)
    (extendsCheckpoint : Bool) : ChainReport where
  headSeq := self.seq
  headReceiptSha256 := self.head
  envelopeDigest := self.envelope
  envelopeVersion := self.version
  effectiveStateDigest := self.state
  initialBundleSha256 := root
  authorization := self.authority
  receiptCount := receiptCount
  extendsCheckpoint := extendsCheckpoint

def advanceChain (receipts : List (SignedReceipt ρ)) (start : ChainStart) (root : String)
    (extendsCheckpoint : Bool) : Except ConfigError ChainReport := do
  let s ← receipts.foldlM (advanceReceipt env) start
  return s.report root receipts.length extendsCheckpoint

/-- The checkpoint continues a chain from this bundle. -/
def checkLineage (checkpoint : Checkpoint) (initial : TrustBundle) (root : String) :
    Except ConfigError Unit :=
  rejectIf (checkpoint.initialBundleSha256 ≠ root ∨
      checkpoint.workspaceId ≠ initial.workspaceId ∨
      checkpoint.authorization.audience ≠ initial.audience ∨
      checkpoint.authorization.rpId ≠ initial.rpId ∨
      checkpoint.authorization.origins ≠ initial.origins ∨
      checkpoint.authorization.trustResets ≠ initial.trustResets)
    (.approval "checkpoint does not belong to pinned trust history")

def chainStart (initial : TrustBundle) (root : String) :
    Option Checkpoint → Except ConfigError ChainStart
  | some checkpoint => do
      checkpoint.validate env.toTrustEnvironment
      checkLineage checkpoint initial root
      return .ofCheckpoint checkpoint
  | none => .ok (.genesis initial)

/-- A bundle that nothing has been added to or retired from. -/
def TrustBundle.IsGenesis (self : TrustBundle) : Prop :=
  self.signerEpoch = 1 ∧ self.credentials ≠ [] ∧
    ∀ c ∈ self.credentials, c.status = .active ∧ c.authorizedFromEpoch = 1

instance (bundle : TrustBundle) : Decidable bundle.IsGenesis :=
  inferInstanceAs (Decidable (_ ∧ _ ∧ _))

/-- Verify a chain from the pinned genesis authority, or a suffix of it from a
retained checkpoint. -/
def verifyReceiptChain (receipts : List (SignedReceipt ρ)) (initial : TrustBundle)
    (checkpoint : Option Checkpoint) : Except ConfigError ChainReport := do
  initial.validate env.toTrustEnvironment
  rejectIf (¬initial.IsGenesis)
    (.approval "full trust anchor must be the pinned genesis authority")
  let root ← initial.digest env.toTrustEnvironment
  let start ← chainStart env initial root checkpoint
  rejectIf (receipts = [] ∧ checkpoint = none)
    (.approval "receipt chain must not be empty without a checkpoint")
  advanceChain env receipts start root checkpoint.isSome

/-- Verify a suffix of a chain from a retained checkpoint, bound to the pinned
root by its fingerprint. -/
def verifyReceiptSuffix (receipts : List (SignedReceipt ρ)) (checkpoint : Checkpoint)
    (rootFingerprint : String) : Except ConfigError ChainReport := do
  checkpoint.validate env.toTrustEnvironment
  rejectIf (isHex64 rootFingerprint = false ∨ checkpoint.initialBundleSha256 ≠ rootFingerprint)
    (.approval "checkpoint does not belong to the pinned trust root")
  rejectIf (receipts = []) (.approval "receipt suffix must not be empty")
  advanceChain env receipts (.ofCheckpoint checkpoint) rootFingerprint true

end Advance

/-! ### What one receipt does -/

section Spec

variable {env : ReceiptEnvironment ρ} {s t : ChainStart} {receipt : SignedReceipt ρ}

/-- A receipt that the chain accepted, between the states before and after
it. -/
structure Advances (env : ReceiptEnvironment ρ) (s : ChainStart) (receipt : SignedReceipt ρ)
    (t : ChainStart) : Prop where
  bound : s.seq + 1 < u64Bound
  seq : receipt.body.seq = s.seq + 1
  prev : receipt.body.prevReceiptSha256 = s.head
  rotation : checkEnvelope s receipt.body = .ok ()
  approved : Approved env receipt s.authority
  authority : nextAuthority env receipt.body s.authority = .ok t.authority
  digest : receipt.body.receiptDigest env = .ok t.head
  seq' : t.seq = receipt.body.seq
  envelope' : t.envelope = receipt.body.envelopeDigest
  version' : t.version = receipt.body.envelopeVersion
  state' : t.state = receipt.body.effectiveStateDigest

theorem advanceReceipt_ok (h : advanceReceipt env s receipt = .ok t) : Advances env s receipt t := by
  simp only [advanceReceipt, bind_eq_ok, rejectIf_eq_ok, exists_const, pure_eq_ok] at h
  obtain ⟨hbound, hlink, _, hrotation, -, standing, hverified, authority, hauthority, head,
    hhead, rfl⟩ := h
  obtain ⟨hseq, hprev⟩ := not_or.mp hlink
  exact ⟨Nat.lt_of_not_ge hbound, not_not.mp hseq, not_not.mp hprev, hrotation,
    (verifyReceipt_ok hverified).2, hauthority, hhead, rfl, rfl, rfl, rfl⟩

variable {receipts : List (SignedReceipt ρ)} {initial : TrustBundle} {report : ChainReport}
  {checkpoint : Checkpoint}

theorem advanceChain_eq_ok {root : String} {extendsCheckpoint : Bool} :
    advanceChain env receipts s root extendsCheckpoint = .ok report ↔
      ∃ t, receipts.foldlM (advanceReceipt env) s = .ok t ∧
        t.report root receipts.length extendsCheckpoint = report := by
  simp only [advanceChain, bind_eq_ok, pure_eq_ok]

theorem verifyReceiptChain_none_eq_ok :
    verifyReceiptChain env receipts initial none = .ok report ↔
      receipts ≠ [] ∧ initial.IsGenesis ∧ ∃ root t,
        initial.digest env.toTrustEnvironment = .ok root ∧
        receipts.foldlM (advanceReceipt env) (.genesis initial) = .ok t ∧
        t.report root receipts.length false = report := by
  simp only [verifyReceiptChain, chainStart, bind_eq_ok, rejectIf_eq_ok, exists_const, not_not,
    and_true, Option.isSome_none, advanceChain_eq_ok, Except.ok.injEq, exists_eq_left']
  constructor
  · rintro ⟨_, -, hgenesis, root, hroot, hne, t, hloop, hreport⟩
    exact ⟨hne, hgenesis, root, t, hroot, hloop, hreport⟩
  · rintro ⟨hne, hgenesis, root, t, hroot, hloop, hreport⟩
    obtain ⟨_, hvalid, -⟩ := bind_eq_ok.mp hroot
    exact ⟨(), hvalid, hgenesis, root, hroot, hne, t, hloop, hreport⟩

theorem verifyReceiptChain_some_eq_ok :
    verifyReceiptChain env receipts initial (some checkpoint) = .ok report ↔
      initial.IsGenesis ∧ ∃ root t, initial.digest env.toTrustEnvironment = .ok root ∧
        checkpoint.validate env.toTrustEnvironment = .ok () ∧
        checkLineage checkpoint initial root = .ok () ∧
        receipts.foldlM (advanceReceipt env) (.ofCheckpoint checkpoint) = .ok t ∧
        t.report root receipts.length true = report := by
  simp only [verifyReceiptChain, chainStart, bind_eq_ok, rejectIf_eq_ok, exists_const, not_not,
    reduceCtorEq, and_false, not_false_eq_true, true_and, Option.isSome_some, advanceChain_eq_ok,
    pure_eq_ok]
  constructor
  · rintro ⟨_, -, hgenesis, root, hroot, _, ⟨_, hvalid, _, hlineage, rfl⟩, t, hloop, hreport⟩
    exact ⟨hgenesis, root, t, hroot, hvalid, hlineage, hloop, hreport⟩
  · rintro ⟨hgenesis, root, t, hroot, hvalid, hlineage, hloop, hreport⟩
    obtain ⟨_, hinitial, -⟩ := bind_eq_ok.mp hroot
    exact ⟨(), hinitial, hgenesis, root, hroot, _, ⟨(), hvalid, (), hlineage, rfl⟩, t, hloop,
      hreport⟩

theorem verifyReceiptSuffix_eq_ok (hne : receipts ≠ []) {root : String} :
    verifyReceiptSuffix env receipts checkpoint root = .ok report ↔
      checkpoint.validate env.toTrustEnvironment = .ok () ∧ isHex64 root = true ∧
        checkpoint.initialBundleSha256 = root ∧
        ∃ t, receipts.foldlM (advanceReceipt env) (.ofCheckpoint checkpoint) = .ok t ∧
          t.report root receipts.length true = report := by
  simp only [verifyReceiptSuffix, bind_eq_ok, rejectIf_eq_ok, exists_const, not_or, hne,
    not_false_eq_true, true_and, advanceChain_eq_ok, Bool.not_eq_false, ne_eq, not_not]
  constructor
  · rintro ⟨_, hvalid, ⟨hhex, hroot⟩, hrest⟩
    exact ⟨hvalid, hhex, hroot, hrest⟩
  · rintro ⟨hvalid, hhex, hroot, hrest⟩
    exact ⟨(), hvalid, ⟨hhex, hroot⟩, hrest⟩

end Spec

/-! ### Resuming from a checkpoint -/

section Resume

variable {env : ReceiptEnvironment ρ} {initial : TrustBundle} {s t : ChainStart}
  {receipt : SignedReceipt ρ} {receipts : List (SignedReceipt ρ)}

/-- What every authority of a chain has in common with the first. -/
structure Continues (env : ReceiptEnvironment ρ) (initial authority : TrustBundle) : Prop where
  valid : authority.validate env.toTrustEnvironment = .ok ()
  workspaceId : authority.workspaceId = initial.workspaceId
  audience : authority.audience = initial.audience
  rpId : authority.rpId = initial.rpId
  origins : authority.origins = initial.origins
  trustResets : authority.trustResets = initial.trustResets

theorem applyTransition_ok {body : ReceiptBody ρ} {authority authority' : TrustBundle}
    {replacement : TrustCredential}
    (h : applyTransition env body authority replacement = .ok authority') :
    authority'.validate env.toTrustEnvironment = .ok () ∧ body.signerEpoch + 1 < u64Bound ∧
      ∃ kept, keptCredentials body (body.signerEpoch + 1) authority.credentials = .ok kept ∧
        authority' = { authority with
          signerEpoch := body.signerEpoch + 1, credentials := kept ++ [replacement] } := by
  simp only [applyTransition, bind_eq_ok, rejectIf_eq_ok, exists_const, pure_eq_ok] at h
  obtain ⟨hbound, kept, hkept, _, hvalid, rfl⟩ := h
  exact ⟨hvalid, Nat.lt_of_not_ge hbound, kept, hkept, rfl⟩

theorem Continues.advance (h : Continues env initial s.authority)
    (hstep : Advances env s receipt t) : Continues env initial t.authority := by
  have hnext := hstep.authority
  rw [nextAuthority] at hnext
  split at hnext
  · obtain ⟨hvalid, -, kept, -, heq⟩ := applyTransition_ok hnext
    refine ⟨hvalid, ?_, ?_, ?_, ?_, ?_⟩ <;> rw [heq]
    exacts [h.workspaceId, h.audience, h.rpId, h.origins, h.trustResets]
  · rw [← Except.ok.inj hnext]
    exact h

/-- A state behind at least one receipt. -/
structure Settled (s : ChainStart) : Prop where
  seq : 1 ≤ s.seq
  head : isHex64 s.head = true
  envelope : isHex64 s.envelope = true
  version : s.version ≠ 0
  state : isHex64 s.state = true

theorem Advances.settled (h : Advances env s receipt t) : Settled t := by
  have hbody := validate_ok h.approved.bodyValid
  obtain ⟨_, -, hdigest⟩ := bind_eq_ok.mp h.digest
  refine ⟨?_, digestOf_isHex64 hdigest, ?_, ?_, ?_⟩
  · rw [h.seq', h.seq]
    exact Nat.le_add_left 1 _
  · rw [h.envelope']
    exact hbody.envelope
  · rw [h.version']
    exact hbody.version
  · rw [h.state']
    exact hbody.state

/-- Behind the first receipt of a chain, its state makes a valid checkpoint of
the same lineage. -/
theorem chain_resumable (hne : receipts ≠ [])
    (hinitial : initial.validate env.toTrustEnvironment = .ok ())
    (hloop : receipts.foldlM (advanceReceipt env) (.genesis initial) = .ok t) :
    Continues env initial t.authority ∧ Settled t := by
  have hcontinues : Continues env initial t.authority :=
    foldlM_preserves (I := fun s : ChainStart => Continues env initial s.authority) hloop
      (fun _ _ _ _ h hstep => h.advance (advanceReceipt_ok hstep))
      ⟨hinitial, rfl, rfl, rfl, rfl, rfl⟩
  obtain ⟨front, last, rfl⟩ := (List.eq_nil_or_concat' receipts).resolve_left hne
  obtain ⟨m, -, hlast⟩ := foldlM_concat_eq_ok.mp hloop
  exact ⟨hcontinues, (advanceReceipt_ok hlast).settled⟩

variable {root : String}

theorem checkpoint_validate (count verifiedAt : ℕ) (extendsCheckpoint : Bool)
    (h : Continues env initial s.authority) (hs : Settled s)
    (hroot : isHex64 root = true) :
    ((s.report root count extendsCheckpoint).checkpoint verifiedAt).validate
      env.toTrustEnvironment = .ok () := by
  -- The workspace of a valid authority has a name.
  have hname : isBlank s.authority.workspaceId = false := by
    have hvalid := h.valid
    simp only [TrustBundle.validate, bind_eq_ok, rejectIf_eq_ok, exists_const] at hvalid
    exact Bool.eq_false_iff.mpr hvalid.2.1
  have hseq := hs.seq
  simp only [Checkpoint.validate, ChainReport.checkpoint, ChainStart.report, bind_eq_ok,
    rejectIf_eq_ok, exists_const, hs.head, hs.envelope, hs.state, hs.version, hroot, hname, h.valid]
  simp
  omega

theorem checkpoint_lineage (count verifiedAt : ℕ) (extendsCheckpoint : Bool)
    (h : Continues env initial s.authority) :
    checkLineage ((s.report root count extendsCheckpoint).checkpoint verifiedAt) initial root =
      .ok () := by
  simp [checkLineage, ChainReport.checkpoint, ChainStart.report, h.workspaceId, h.audience, h.rpId,
    h.origins, h.trustResets]

/-- A checkpoint saves the whole state of the reducer. -/
theorem ofCheckpoint_report (s : ChainStart) (count verifiedAt : ℕ) (extendsCheckpoint : Bool) :
    ChainStart.ofCheckpoint ((s.report root count extendsCheckpoint).checkpoint verifiedAt) = s :=
  rfl

variable {front rest : List (SignedReceipt ρ)} {p : ChainReport} {m : ChainStart}

/-- A checkpoint that `front` made: both ways to resume from it are the loop
over `rest`, from the state the loop over `front` ended in. -/
theorem resume_eq_ok (verifiedAt : ℕ) (hrest : rest ≠ [])
    (h : verifyReceiptChain env front initial none = .ok p)
    (hroot : initial.digest env.toTrustEnvironment = .ok root)
    (hloop : front.foldlM (advanceReceipt env) (.genesis initial) = .ok m) :
    (∀ report, verifyReceiptChain env rest initial (some (p.checkpoint verifiedAt)) =
        .ok report ↔
      ∃ t, rest.foldlM (advanceReceipt env) m = .ok t ∧
        t.report root rest.length true = report) ∧
    ∀ report, verifyReceiptSuffix env rest (p.checkpoint verifiedAt) root = .ok report ↔
      ∃ t, rest.foldlM (advanceReceipt env) m = .ok t ∧
        t.report root rest.length true = report := by
  obtain ⟨hfront, hgenesis, root', m', hroot', hloop', rfl⟩ := verifyReceiptChain_none_eq_ok.mp h
  obtain rfl := Except.ok.inj (hroot.symm.trans hroot')
  obtain rfl := Except.ok.inj (hloop.symm.trans hloop')
  obtain ⟨_, hinitial, hdigest⟩ := bind_eq_ok.mp hroot
  obtain ⟨hcontinues, hsettled⟩ := chain_resumable hfront hinitial hloop
  have hhex := digestOf_isHex64 hdigest
  have hvalid := checkpoint_validate front.length verifiedAt false hcontinues hsettled hhex
  refine ⟨fun report => ?_, fun report => ?_⟩
  · rw [verifyReceiptChain_some_eq_ok, ofCheckpoint_report]
    constructor
    · rintro ⟨-, root', t, hroot', -, -, hrun, hreport⟩
      obtain rfl := Except.ok.inj (hroot.symm.trans hroot')
      exact ⟨t, hrun, hreport⟩
    · rintro ⟨t, hrun, hreport⟩
      exact ⟨hgenesis, root, t, hroot, hvalid, checkpoint_lineage _ _ _ hcontinues, hrun, hreport⟩
  · rw [verifyReceiptSuffix_eq_ok hrest, ofCheckpoint_report]
    exact ⟨fun h => h.2.2.2, fun h => ⟨hvalid, hhex, rfl, h⟩⟩

/-- The run over the whole list is the run over `front`, then the one over `rest`. -/
theorem verifyReceiptChain_append_eq_ok (hfront : front ≠ []) :
    verifyReceiptChain env (front ++ rest) initial none = .ok report ↔
      ∃ p root m t, verifyReceiptChain env front initial none = .ok p ∧
        initial.digest env.toTrustEnvironment = .ok root ∧
        front.foldlM (advanceReceipt env) (.genesis initial) = .ok m ∧
        rest.foldlM (advanceReceipt env) m = .ok t ∧
        t.report root (front ++ rest).length false = report := by
  rw [verifyReceiptChain_none_eq_ok]
  constructor
  · rintro ⟨-, hgenesis, root, t, hroot, hloop, hreport⟩
    obtain ⟨m, hm, ht⟩ := foldlM_append_eq_ok.mp hloop
    exact ⟨_, root, m, t, verifyReceiptChain_none_eq_ok.mpr
      ⟨hfront, hgenesis, root, m, hroot, hm, rfl⟩, hroot, hm, ht, hreport⟩
  · rintro ⟨p, root, m, t, hp, hroot, hm, ht, hreport⟩
    obtain ⟨-, hgenesis, -⟩ := verifyReceiptChain_none_eq_ok.mp hp
    exact ⟨List.append_ne_nil_of_left_ne_nil hfront rest, hgenesis, root, t, hroot,
      foldlM_append_eq_ok.mpr ⟨m, hm, ht⟩, hreport⟩

/-- Two reports of the same chain, apart from how it was cut. -/
structure ChainReport.Agrees (a b : ChainReport) : Prop where
  headSeq : a.headSeq = b.headSeq
  head : a.headReceiptSha256 = b.headReceiptSha256
  envelopeDigest : a.envelopeDigest = b.envelopeDigest
  envelopeVersion : a.envelopeVersion = b.envelopeVersion
  state : a.effectiveStateDigest = b.effectiveStateDigest
  root : a.initialBundleSha256 = b.initialBundleSha256
  authorization : a.authorization = b.authorization

/-- Verifying a chain, resuming it from a checkpoint against the genesis
bundle, and resuming it against the digest of that bundle all succeed
together, and then report the same. -/
theorem checkpointed_verification (env : ReceiptEnvironment ρ) (initial : TrustBundle)
    (front rest : List (SignedReceipt ρ)) (hfront : front ≠ []) (hrest : rest ≠ [])
    (verifiedAt : ℕ) :
    ((∃ report, verifyReceiptChain env (front ++ rest) initial none = .ok report) ↔
        ∃ p, verifyReceiptChain env front initial none = .ok p ∧
          ∃ report, verifyReceiptChain env rest initial (some (p.checkpoint verifiedAt)) =
            .ok report) ∧
      ((∃ report, verifyReceiptChain env (front ++ rest) initial none = .ok report) ↔
        ∃ p, verifyReceiptChain env front initial none = .ok p ∧
          ∃ root report, initial.digest env.toTrustEnvironment = .ok root ∧
            verifyReceiptSuffix env rest (p.checkpoint verifiedAt) root = .ok report) ∧
      ∀ full p resumed root suffix,
        verifyReceiptChain env (front ++ rest) initial none = .ok full →
        verifyReceiptChain env front initial none = .ok p →
        verifyReceiptChain env rest initial (some (p.checkpoint verifiedAt)) = .ok resumed →
        initial.digest env.toTrustEnvironment = .ok root →
        verifyReceiptSuffix env rest (p.checkpoint verifiedAt) root = .ok suffix →
        full.Agrees resumed ∧ full.Agrees suffix := by
  simp only [verifyReceiptChain_append_eq_ok hfront]
  refine ⟨⟨?_, ?_⟩, ⟨?_, ?_⟩, ?_⟩
  · rintro ⟨full, p, root, m, t, hp, hroot, hm, ht, -⟩
    exact ⟨p, hp, _, ((resume_eq_ok verifiedAt hrest hp hroot hm).1 _).mpr ⟨t, ht, rfl⟩⟩
  · rintro ⟨p, hp, report, hreport⟩
    obtain ⟨-, -, root, m, hroot, hm, -⟩ := verifyReceiptChain_none_eq_ok.mp hp
    obtain ⟨t, ht, -⟩ := ((resume_eq_ok verifiedAt hrest hp hroot hm).1 report).mp hreport
    exact ⟨_, p, root, m, t, hp, hroot, hm, ht, rfl⟩
  · rintro ⟨full, p, root, m, t, hp, hroot, hm, ht, -⟩
    exact ⟨p, hp, root, _, hroot, ((resume_eq_ok verifiedAt hrest hp hroot hm).2 _).mpr ⟨t, ht, rfl⟩⟩
  · rintro ⟨p, hp, root, report, hroot, hreport⟩
    obtain ⟨-, -, -, m, -, hm, -⟩ := verifyReceiptChain_none_eq_ok.mp hp
    obtain ⟨t, ht, -⟩ := ((resume_eq_ok verifiedAt hrest hp hroot hm).2 report).mp hreport
    exact ⟨_, p, root, m, t, hp, hroot, hm, ht, rfl⟩
  · rintro full p resumed root suffix ⟨-, root', m, t, -, hroot', hm, ht, rfl⟩ hp hresumed hroot hreport
    obtain rfl := Except.ok.inj (hroot.symm.trans hroot')
    obtain ⟨hresume, hsuffix⟩ := resume_eq_ok verifiedAt hrest hp hroot hm
    obtain ⟨t₁, ht₁, rfl⟩ := (hresume resumed).mp hresumed
    obtain ⟨t₂, ht₂, rfl⟩ := (hsuffix suffix).mp hreport
    obtain rfl := Except.ok.inj (ht.symm.trans ht₁)
    obtain rfl := Except.ok.inj (ht.symm.trans ht₂)
    exact ⟨⟨rfl, rfl, rfl, rfl, rfl, rfl, rfl⟩, ⟨rfl, rfl, rfl, rfl, rfl, rfl, rfl⟩⟩

end Resume

/-! ### A chain of two receipts -/

section Sample

def textBytes (text : String) : Bytes := text.toList.map fun c => .ofNat c.toNat

/-- Keeps the first 32 bytes, which tell the values below apart. -/
def sampleSha256 : Sha256 where
  digest bytes := (bytes ++ List.replicate 32 0).take 32
  length_digest bytes := by simp

/-- An environment in which every assertion is signed in time. -/
def sampleReceiptEnvironment : ReceiptEnvironment Unit where
  sha256 := sampleSha256
  bundleCbor bundle :=
    .ok (.ofNat bundle.signerEpoch ::
      bundle.credentials.flatMap fun c => textBytes c.credentialId)
  base64 text := some (textBytes text)
  parseCose raw := .ok ⟨raw, []⟩
  parseUrl origin :=
    if origin = "https://maskura.dev" then some ⟨"https", origin, some "maskura.dev"⟩ else none
  debug text := text
  bodyCbor body := .ok [.ofNat body.seq]
  stateDigest _ := .ok genesisPrev
  verifyAssertion _ _ _ := .ok ⟨0, 100⟩

def sampleCredential (id : String) (epoch : ℕ) : TrustCredential :=
  ⟨id, "laptop", -7, id, .active, epoch, none⟩

def sampleGenesis : TrustBundle :=
  ⟨trustBundleSchemaVersion, "ws-1", "maskura.dev", ["https://maskura.dev"], "https://maskura.dev", 1,
    [sampleCredential "cred-a" 1], []⟩

def sampleDigest (bytes : Bytes) : String := hexEncode (sampleSha256.digest bytes)

/-- Receipt number `seq` of a chain under the genesis authority, which first
activates an envelope. -/
def sampleReceipt (seq : ℕ) : SignedReceipt Unit where
  body :=
    { schemaVersion := receiptSchemaVersion
      purpose := if seq = 1 then .policyEnvelope else .pipelineExport
      action := .activate
      audience := "https://maskura.dev"
      workspaceId := "ws-1"
      effectiveState := ⟨"https://maskura.dev", "ws-1", ()⟩
      effectiveStateDigest := genesisPrev
      envelopeDigest := sampleDigest [7]
      envelopeVersion := 1
      signerEpoch := 1
      authorityDigest := sampleDigest (1 :: textBytes "cred-a")
      seq := seq
      prevReceiptSha256 := sampleDigest [.ofNat (seq - 1)]
      issuedAt := 10
      replacement := none
      replacedCredentialId := none }
  proof := ⟨"cred-a", "", "", ""⟩
  counterProof := none

/-- Both receipts verify in one go, so the second also verifies from the
checkpoint behind the first. -/
theorem sample_checkpointed_verification :
    ∃ p, verifyReceiptChain sampleReceiptEnvironment [sampleReceipt 1] sampleGenesis none = .ok p ∧
      ∃ report, verifyReceiptChain sampleReceiptEnvironment [sampleReceipt 2] sampleGenesis
        (some (p.checkpoint 50)) = .ok report :=
  (checkpointed_verification sampleReceiptEnvironment sampleGenesis [sampleReceipt 1]
    [sampleReceipt 2] (by simp) (by simp) 50).1.mp ⟨_, rfl⟩

end Sample

end Maskura.Policy
