import Maskura.Policy.Chain
import Mathlib.Data.List.Nodup

/-!
Who may approve, along a whole chain. A receipt leaves the authority as it is,
adds a credential, or revokes one and adds one. Credentials never leave the
bundle, so a revoked one keeps its id and its key occupied for good.
-/

namespace Maskura.Policy

open Maskura.Lib
open Maskura.Persistence (Bytes u64Bound)

variable {ρ : Type} {env : ReceiptEnvironment ρ}

/-! ### Valid bundles -/

theorem validateCredentials_ok {env : TrustEnvironment} {epoch : ℕ} {seen : List String}
    {credentials : List TrustCredential}
    (h : validateCredentials env epoch seen credentials = .ok ()) :
    (credentials.map (·.credentialId)).Nodup ∧ (∀ c ∈ credentials, c.credentialId ∉ seen) ∧
      ∀ c ∈ credentials, ∃ key, c.parsedKey env = .ok key := by
  induction credentials generalizing seen with
  | nil => simp
  | cons credential rest ih =>
      obtain ⟨_, hfirst, hrest⟩ := bind_eq_ok.mp h
      obtain ⟨hnodup, hfresh, hkeys⟩ := ih hrest
      simp only [validateCredential, bind_eq_ok, rejectIf_eq_ok, exists_const] at hfirst
      obtain ⟨key, hkey, -, hunseen, -⟩ := hfirst
      refine ⟨List.nodup_cons.mpr ⟨?_, hnodup⟩, ?_, ?_⟩
      · intro hmem
        obtain ⟨c, hc, hid⟩ := List.mem_map.mp hmem
        exact hfresh c hc (hid ▸ List.mem_cons_self)
      · intro c hc
        rcases List.mem_cons.mp hc with rfl | hc
        · exact hunseen
        · exact fun hseen => hfresh c hc (List.mem_cons_of_mem _ hseen)
      · intro c hc
        rcases List.mem_cons.mp hc with rfl | hc
        · exact ⟨key, hkey⟩
        · exact hkeys c hc

/-- The ids of a valid bundle are distinct, and each of its keys parses. -/
theorem TrustBundle.validate_ok {env : TrustEnvironment} {bundle : TrustBundle}
    (h : bundle.validate env = .ok ()) :
    (bundle.credentials.map (·.credentialId)).Nodup ∧
      ∀ c ∈ bundle.credentials, ∃ key, c.parsedKey env = .ok key := by
  simp only [TrustBundle.validate, bind_eq_ok, rejectIf_eq_ok, exists_const] at h
  obtain ⟨-, -, -, -, _, -, -, -, _, hcredentials, -⟩ := h
  obtain ⟨hnodup, -, hkeys⟩ := validateCredentials_ok hcredentials
  exact ⟨hnodup, hkeys⟩

theorem TrustBundle.lookup_ok {env : TrustEnvironment} {bundle : TrustBundle} {id : String}
    {found : TrustCredential × CoseEs256Key} (h : bundle.lookup env id = .ok found) :
    found.1 ∈ bundle.credentials ∧ found.1.credentialId = id ∧
      found.1.parsedKey env = .ok found.2 := by
  simp only [TrustBundle.lookup, bind_eq_ok, okOr_eq_ok, pure_eq_ok] at h
  obtain ⟨_, -, credential, hfind, key, hkey, rfl⟩ := h
  exact ⟨List.mem_of_find?_eq_some hfind, by simpa using List.find?_some hfind, hkey⟩

/-- Current standing is that of an active credential. -/
theorem TrustBundle.authorize_current {env : TrustEnvironment} {bundle : TrustBundle} {id : String}
    {epoch : ℕ} (h : bundle.authorize env id epoch = .ok .current) :
    ∃ found, bundle.lookup env id = .ok found ∧ found.1.status = .active := by
  simp only [TrustBundle.authorize, bind_eq_ok, rejectIf_eq_ok, exists_const, pure_eq_ok] at h
  obtain ⟨found, hlookup, -, -, _, -, hstanding⟩ := h
  refine ⟨found, hlookup, ?_⟩
  by_contra hstatus
  rw [if_neg fun hcurrent => hstatus hcurrent.1] at hstanding
  cases hstanding

/-! ### What a receipt does to the authority -/

def TrustCredential.revoke (self : TrustCredential) (epoch : ℕ) : TrustCredential :=
  { self with status := .revoked, revokedEpoch := some epoch }

theorem retireCredential_ok {id : Option String} {epoch : ℕ}
    {credentials kept : List TrustCredential}
    (h : retireCredential id epoch credentials = some kept) :
    ∃ front c back, credentials = front ++ c :: back ∧ id = some c.credentialId ∧
      kept = front ++ c.revoke epoch :: back := by
  induction credentials generalizing kept with
  | nil => cases h
  | cons credential rest ih =>
      rw [retireCredential] at h
      split at h
      case isTrue hid =>
        exact ⟨[], credential, rest, rfl, hid.symm, (Option.some.inj h).symm⟩
      case isFalse =>
        obtain ⟨kept', hkept', rfl⟩ := Option.map_eq_some_iff.mp h
        obtain ⟨front, c, back, rfl, hid, rfl⟩ := ih hkept'
        exact ⟨credential :: front, c, back, rfl, hid, rfl⟩

def ReceiptBody.ChangesSigners (self : ReceiptBody ρ) : Prop :=
  self.action = .addSigner ∨ self.action = .replaceSigner

instance (body : ReceiptBody ρ) : Decidable body.ChangesSigners :=
  inferInstanceAs (Decidable (_ ∨ _))

theorem validateAction_ok {body : ReceiptBody ρ} (h : body.validateAction env = .ok ()) :
    (body.replacement = none ∧ ¬body.ChangesSigners) ∨
      ∃ new, body.replacement = some new ∧ new.status = .active ∧ body.ChangesSigners := by
  have htransition : body.validateTransition env = .ok () → body.ChangesSigners →
      ∃ new, body.replacement = some new ∧ new.status = .active ∧ body.ChangesSigners := by
    intro h hchanges
    simp only [ReceiptBody.validateTransition, bind_eq_ok, okOr_eq_ok, rejectIf_eq_ok,
      exists_const] at h
    obtain ⟨-, new, hnew, -, -, _, -, hfields⟩ := h
    simp only [not_or, not_not] at hfields
    exact ⟨new, hnew, hfields.2.2.1, hchanges⟩
  rw [ReceiptBody.validateAction] at h
  split at h
  case h_1 _ haction | h_2 _ haction | h_3 _ haction =>
    obtain ⟨hplain, -⟩ := not_not.mp ((rejectIf_eq_ok ..).mp h)
    refine .inl ⟨Option.isNone_iff_eq_none.mp hplain, ?_⟩
    rintro (hadd | hreplace)
    · cases haction.symm.trans hadd
    · cases haction.symm.trans hreplace
  case h_4 _ haction => exact .inr (htransition h (.inr haction))
  case h_5 _ haction => exact .inr (htransition h (.inl haction))
  case h_6 => cases h

/-- The three things an accepted receipt may do to the authority. -/
inductive AuthorityStep (a : TrustBundle) (body : ReceiptBody ρ) (b : TrustBundle) : Prop
  | keep (hnew : body.replacement = none) (hplain : ¬body.ChangesSigners) (hb : b = a)
  | add (new : TrustCredential) (hnew : body.replacement = some new)
      (hactive : new.status = .active) (haction : body.action = .addSigner)
      (hepoch : b.signerEpoch = a.signerEpoch + 1)
      (hb : b.credentials = a.credentials ++ [new])
  | replace (new c : TrustCredential) (front back : List TrustCredential)
      (hnew : body.replacement = some new) (hactive : new.status = .active)
      (haction : body.action = .replaceSigner)
      (hepoch : b.signerEpoch = a.signerEpoch + 1)
      (hretired : body.replacedCredentialId = some c.credentialId)
      (ha : a.credentials = front ++ c :: back)
      (hb : b.credentials = front ++ c.revoke b.signerEpoch :: back ++ [new])

section Step

variable {s t : ChainStart} {receipt : SignedReceipt ρ} {a b : TrustBundle} {body : ReceiptBody ρ}

theorem Advances.step (h : Advances env s receipt t) :
    AuthorityStep s.authority receipt.body t.authority := by
  have hnext := h.authority
  have hepoch := h.approved.epoch
  rw [nextAuthority] at hnext
  rcases validateAction_ok (validate_ok h.approved.bodyValid).action with
    ⟨hnone, hplain⟩ | ⟨new, hnew, hactive, hchanges⟩
  · rw [hnone] at hnext
    exact .keep hnone hplain (Except.ok.inj hnext).symm
  · rw [hnew] at hnext
    obtain ⟨-, -, kept, hkept, heq⟩ := applyTransition_ok hnext
    rw [hepoch] at hkept heq
    rw [keptCredentials] at hkept
    rcases hchanges with haction | haction
    · rw [if_neg (by simp [haction])] at hkept
      obtain rfl := Except.ok.inj hkept
      exact .add new hnew hactive haction (by rw [heq]) (by rw [heq])
    · rw [if_pos haction, okOr_eq_ok] at hkept
      obtain ⟨front, c, back, ha, hretired, rfl⟩ := retireCredential_ok hkept
      exact .replace new c front back hnew hactive haction (by rw [heq]) hretired ha
        (by simp [heq])

theorem AuthorityStep.epoch (h : AuthorityStep a body b) :
    b.signerEpoch = if body.ChangesSigners then a.signerEpoch + 1 else a.signerEpoch := by
  cases h with
  | keep hnew hplain hb => rw [if_neg hplain, hb]
  | add new hnew hactive haction hepoch hb => rw [if_pos (show body.ChangesSigners from .inl haction), hepoch]
  | replace new c front back hnew hactive haction hepoch hretired ha hb =>
      rw [if_pos (show body.ChangesSigners from .inr haction), hepoch]

/-- What revocation leaves alone only ever grows by the new credential. -/
theorem AuthorityStep.map {κ : Type} {f : TrustCredential → κ}
    (hf : ∀ c epoch, f (c.revoke epoch) = f c) (h : AuthorityStep a body b) :
    b.credentials.map f = a.credentials.map f ++ (body.replacement.map f).toList := by
  cases h with
  | keep hnew hplain hb => simp [hb, hnew]
  | add new hnew hactive haction hepoch hb => simp [hb, hnew]
  | replace new c front back hnew hactive haction hepoch hretired ha hb =>
      simp [ha, hb, hnew, hf]

/-- A revoked credential with this id, or this key, stays around. -/
theorem AuthorityStep.revoked {κ : Type} {f : TrustCredential → κ}
    (hf : ∀ c epoch, f (c.revoke epoch) = f c) (h : AuthorityStep a body b) {k : κ}
    (hrevoked : ∃ c ∈ a.credentials, f c = k ∧ c.status = .revoked) :
    ∃ c ∈ b.credentials, f c = k ∧ c.status = .revoked := by
  obtain ⟨d, hd, hk, hstatus⟩ := hrevoked
  cases h with
  | keep hnew hplain hb => exact ⟨d, hb ▸ hd, hk, hstatus⟩
  | add new hnew hactive haction hepoch hb =>
      exact ⟨d, by rw [hb]; exact List.mem_append_left _ hd, hk, hstatus⟩
  | replace new c front back hnew hactive haction hepoch hretired ha hb =>
      rw [ha, List.mem_append, List.mem_cons] at hd
      -- The retired credential itself is revoked again, under the same id and key.
      rcases hd with hd | rfl | hd
      · exact ⟨d, by simp [hb, hd], hk, hstatus⟩
      · exact ⟨d.revoke b.signerEpoch, by simp [hb], by rw [hf, hk], rfl⟩
      · exact ⟨d, by simp [hb, hd], hk, hstatus⟩

theorem AuthorityStep.retires (h : AuthorityStep a body b)
    (haction : body.action = .replaceSigner) :
    ∃ c ∈ a.credentials, body.replacedCredentialId = some c.credentialId ∧
      c.revoke b.signerEpoch ∈ b.credentials := by
  cases h with
  | keep hnew hplain hb => exact absurd (Or.inr haction) hplain
  | add new hnew hactive haction' hepoch hb => cases haction.symm.trans haction'
  | replace new c front back hnew hactive haction hepoch hretired ha hb =>
      exact ⟨c, by simp [ha], hretired, by simp [hb]⟩

theorem rejectKnownKey_ok {key : CoseEs256Key} {credentials : List TrustCredential}
    (h : rejectKnownKey env key credentials = .ok ()) :
    ∀ c ∈ credentials, c.parsedKey env.toTrustEnvironment ≠ .ok key := by
  induction credentials with
  | nil => simp
  | cons credential rest ih =>
      simp only [rejectKnownKey, bind_eq_ok, rejectIf_eq_ok, exists_const] at h
      obtain ⟨known, hknown, hother, hrest⟩ := h
      rintro c (_ | ⟨_, hc⟩) heq
      · exact hother (Except.ok.inj (hknown.symm.trans heq))
      · exact ih hrest c hc heq

/-- The parsed key depends on the text of the key alone. -/
theorem parsedKey_congr {env : TrustEnvironment} {c d : TrustCredential} {key key' : CoseEs256Key}
    (hc : c.parsedKey env = .ok key) (hd : d.parsedKey env = .ok key')
    (htext : c.cosePublicKey = d.cosePublicKey) : key = key' := by
  simp only [TrustCredential.parsedKey, bind_eq_ok, okOr_eq_ok, rejectIf_eq_ok, exists_const]
    at hc hd
  obtain ⟨-, raw, hraw, hkey⟩ := hc
  obtain ⟨-, raw', hraw', hkey'⟩ := hd
  rw [htext, hraw'] at hraw
  obtain rfl := Option.some.inj hraw
  exact Except.ok.inj (hkey.symm.trans hkey')

/-- A new credential has an id and a key that no credential before it had. -/
theorem Advances.fresh (h : Advances env s receipt t) {new : TrustCredential}
    (hnew : new ∈ receipt.body.replacement) :
    new.credentialId ∉ s.authority.credentials.map (·.credentialId) ∧
      new.parsedKey env.toTrustEnvironment ∉
        s.authority.credentials.map (·.parsedKey env.toTrustEnvironment) ∧
      new.cosePublicKey ∉ s.authority.credentials.map (·.cosePublicKey) := by
  obtain ⟨expected, hcounter⟩ := h.approved.counter
  rw [verifyCounter, hnew] at hcounter
  simp only [verifyReplacement, bind_eq_ok, okOr_eq_ok, rejectIf_eq_ok, exists_const] at hcounter
  obtain ⟨_, -, counter, -, hids, key, hkey, _, hknown, -⟩ := hcounter
  have hother := rejectKnownKey_ok hknown
  refine ⟨?_, ?_, ?_⟩
  · intro hmem
    obtain ⟨c, hc, hid⟩ := List.mem_map.mp hmem
    exact hids (.inr (.inr ⟨c, hc, hid⟩))
  · intro hmem
    obtain ⟨c, hc, hsame⟩ := List.mem_map.mp hmem
    exact hother c hc (hsame.trans hkey)
  · intro hmem
    obtain ⟨c, hc, hsame⟩ := List.mem_map.mp hmem
    obtain ⟨key', hkey'⟩ := (TrustBundle.validate_ok h.approved.authorityValid).2 c hc
    exact hother c hc (parsedKey_congr hkey' hkey hsame ▸ hkey')

/-- The approver of a receipt, and its key. -/
theorem Advances.approver (h : Advances env s receipt t) :
    ∃ c key, s.authority.lookup env.toTrustEnvironment receipt.proof.credentialId =
        .ok (c, key) ∧
      c ∈ s.authority.credentials ∧ c.credentialId = receipt.proof.credentialId ∧
      c.parsedKey env.toTrustEnvironment = .ok key ∧ c.status = .active := by
  obtain ⟨⟨c, key⟩, hlookup, hactive⟩ := TrustBundle.authorize_current h.approved.approver
  obtain ⟨hmem, hid, hkey⟩ := TrustBundle.lookup_ok hlookup
  exact ⟨c, key, hlookup, hmem, hid, hkey, hactive⟩

/-- Where ids or keys are distinct, an active credential shares none with a
revoked one. -/
theorem active_ne_revoked {κ : Type} {f : TrustCredential → κ} {k : κ}
    (hnodup : (s.authority.credentials.map f).Nodup)
    (hrevoked : ∃ c ∈ s.authority.credentials, f c = k ∧ c.status = .revoked)
    {c : TrustCredential} (hc : c ∈ s.authority.credentials) (hactive : c.status = .active) :
    f c ≠ k := by
  obtain ⟨d, hd, rfl, hstatus⟩ := hrevoked
  intro heq
  obtain rfl := List.inj_on_of_nodup_map hnodup hc hd heq
  cases hactive.symm.trans hstatus

def TrustBundle.activeCount (self : TrustBundle) : ℕ :=
  self.credentials.countP fun c => c.status = .active

theorem AuthorityStep.activeCount_le (h : AuthorityStep a body b) :
    a.activeCount ≤ b.activeCount := by
  cases h with
  | keep hnew hplain hb => rw [hb]
  | add new hnew hactive haction hepoch hb => simp [TrustBundle.activeCount, hb]
  | replace new c front back hnew hactive haction hepoch hretired ha hb =>
      simp only [TrustBundle.activeCount, ha, hb, List.countP_append, List.countP_cons,
        List.countP_nil, hactive, TrustCredential.revoke]
      grind

end Step

/-! ### Along the chain -/

/-- The authority behind these receipts. -/
def derivedAuthority (env : ReceiptEnvironment ρ) (initial : TrustBundle)
    (receipts : List (SignedReceipt ρ)) : Except ConfigError TrustBundle := do
  let s ← receipts.foldlM (advanceReceipt env) (.genesis initial)
  return s.authority

section Runs

variable {initial a b : TrustBundle} {before mid : List (SignedReceipt ρ)}
  {receipt : SignedReceipt ρ} {κ : Type} {f : TrustCredential → κ}

theorem derivedAuthority_eq_ok {receipts : List (SignedReceipt ρ)} :
    derivedAuthority env initial receipts = .ok a ↔
      ∃ s, receipts.foldlM (advanceReceipt env) (.genesis initial) = .ok s ∧ s.authority = a := by
  simp only [derivedAuthority, bind_eq_ok, pure_eq_ok]

/-- A credential that has been revoked is revoked in every later authority. -/
theorem revoked_stays {s t : ChainStart} (hf : ∀ c epoch, f (c.revoke epoch) = f c)
    (hloop : mid.foldlM (advanceReceipt env) s = .ok t) {k : κ}
    (hrevoked : ∃ c ∈ s.authority.credentials, f c = k ∧ c.status = .revoked) :
    ∃ c ∈ t.authority.credentials, f c = k ∧ c.status = .revoked :=
  foldlM_preserves
    (I := fun s : ChainStart => ∃ c ∈ s.authority.credentials, f c = k ∧ c.status = .revoked)
    hloop (fun _ _ _ _ h hstep => (advanceReceipt_ok hstep).step.revoked hf h) hrevoked

/-- Ids and keys stay in the bundle. -/
theorem credentials_stay {s t : ChainStart} (hf : ∀ c epoch, f (c.revoke epoch) = f c)
    (hloop : mid.foldlM (advanceReceipt env) s = .ok t) :
    s.authority.credentials.map f <+: t.authority.credentials.map f :=
  foldlM_preserves
    (I := fun t : ChainStart => s.authority.credentials.map f <+: t.authority.credentials.map f)
    hloop
    (fun _ _ _ _ h hstep =>
      h.trans (((advanceReceipt_ok hstep).step.map hf) ▸ List.prefix_append _ _))
    (List.prefix_refl _)

/-- If a new credential is always told apart from those before it, then all of
them are. -/
theorem credentials_nodup {s : ChainStart} (hf : ∀ c epoch, f (c.revoke epoch) = f c)
    (hnew : ∀ {s t : ChainStart} {receipt : SignedReceipt ρ}, Advances env s receipt t →
      ∀ new ∈ receipt.body.replacement, f new ∉ s.authority.credentials.map f)
    (hloop : mid.foldlM (advanceReceipt env) (.genesis initial) = .ok s)
    (hinitial : (initial.credentials.map f).Nodup) :
    (s.authority.credentials.map f).Nodup :=
  foldlM_preserves (I := fun s : ChainStart => (s.authority.credentials.map f).Nodup) hloop
    (fun _ _ receipt _ h hstep => by
      have hadvance := advanceReceipt_ok hstep
      rw [hadvance.step.map hf]
      cases hreplacement : receipt.body.replacement with
      | none => simpa using h
      | some new => simpa [List.nodup_append, h] using hnew hadvance new hreplacement)
    hinitial

/-- What holds of a receipt of an accepted chain, between the authorities `a`
before it and `b` behind it. -/
structure Sound (env : ReceiptEnvironment ρ) (initial : TrustBundle)
    (before : List (SignedReceipt ρ)) (receipt : SignedReceipt ρ) (after : List (SignedReceipt ρ))
    (a b : TrustBundle) : Prop where
  approver : ∃ c ∈ a.credentials, c.credentialId = receipt.proof.credentialId ∧ c.status = .active
  epoch : b.signerEpoch =
    if receipt.body.ChangesSigners then a.signerEpoch + 1 else a.signerEpoch
  /-- Nothing behind the receipt is approved by the credential it retires. The
  key is compared both as it was parsed and as it was written. -/
  retired : receipt.body.action = .replaceSigner →
    ∃ c ∈ a.credentials, receipt.body.replacedCredentialId = some c.credentialId ∧
      ∀ mid later rest a', after = mid ++ later :: rest →
        derivedAuthority env initial (before ++ receipt :: mid) = .ok a' →
        later.proof.credentialId ≠ c.credentialId ∧
        ∃ d key, a'.lookup env.toTrustEnvironment later.proof.credentialId = .ok (d, key) ∧
          ((initial.credentials.map (·.parsedKey env.toTrustEnvironment)).Nodup →
            c.parsedKey env.toTrustEnvironment ≠ .ok key) ∧
          ((initial.credentials.map (·.cosePublicKey)).Nodup →
            c.cosePublicKey ≠ d.cosePublicKey)
  /-- The ids and keys of all credentials so far are taken. -/
  fresh : ∀ earlier a₀, earlier <+: before → derivedAuthority env initial earlier = .ok a₀ →
    ∀ old ∈ a₀.credentials, ∀ new ∈ receipt.body.replacement,
      new.credentialId ≠ old.credentialId ∧
      new.parsedKey env.toTrustEnvironment ≠ old.parsedKey env.toTrustEnvironment ∧
      new.cosePublicKey ≠ old.cosePublicKey
  active : a.activeCount ≤ b.activeCount

/-- An accepted chain that goes on behind `before` has a state there. -/
theorem chain_split {receipts after : List (SignedReceipt ρ)} {t : ChainStart}
    (hloop : receipts.foldlM (advanceReceipt env) (.genesis initial) = .ok t)
    (hsplit : receipts = before ++ receipt :: after) :
    ∃ s s', before.foldlM (advanceReceipt env) (.genesis initial) = .ok s ∧
      advanceReceipt env s receipt = .ok s' ∧
      after.foldlM (advanceReceipt env) s' = .ok t := by
  rw [hsplit] at hloop
  obtain ⟨s, hs, hrest⟩ := foldlM_append_eq_ok.mp hloop
  obtain ⟨s', hs', hafter⟩ := foldlM_cons_eq_ok.mp hrest
  exact ⟨s, s', hs, hs', hafter⟩

/-- Behind a receipt that retires `c`, the approver of each later receipt has
another id, and another key if keys were distinct to begin with. -/
theorem approver_ne_retired {s s' t : ChainStart} {c d : TrustCredential}
    (hf : ∀ c epoch, f (c.revoke epoch) = f c)
    (hnew : ∀ {s t : ChainStart} {receipt : SignedReceipt ρ}, Advances env s receipt t →
      ∀ new ∈ receipt.body.replacement, f new ∉ s.authority.credentials.map f)
    (hbefore : before.foldlM (advanceReceipt env) (.genesis initial) = .ok s)
    (hstep : advanceReceipt env s receipt = .ok s')
    (hmid : mid.foldlM (advanceReceipt env) s' = .ok t)
    (hinitial : (initial.credentials.map f).Nodup)
    (hc : c.revoke s'.authority.signerEpoch ∈ s'.authority.credentials)
    (hd : d ∈ t.authority.credentials) (hactive : d.status = .active) :
    f d ≠ f c := by
  have hnodup := credentials_nodup hf hnew
    (foldlM_append_eq_ok.mpr ⟨s, hbefore, foldlM_cons_eq_ok.mpr ⟨s', hstep, hmid⟩⟩) hinitial
  exact active_ne_revoked hnodup (revoked_stays hf hmid ⟨_, hc, hf _ _, rfl⟩) hd hactive

theorem chain_retired {s s' t : ChainStart} {after : List (SignedReceipt ρ)}
    (hinitial : initial.validate env.toTrustEnvironment = .ok ())
    (hbefore : before.foldlM (advanceReceipt env) (.genesis initial) = .ok s)
    (hstep : advanceReceipt env s receipt = .ok s')
    (hafter : after.foldlM (advanceReceipt env) s' = .ok t)
    (haction : receipt.body.action = .replaceSigner) :
    ∃ c ∈ s.authority.credentials, receipt.body.replacedCredentialId = some c.credentialId ∧
      ∀ mid later rest a', after = mid ++ later :: rest →
        derivedAuthority env initial (before ++ receipt :: mid) = .ok a' →
        later.proof.credentialId ≠ c.credentialId ∧
        ∃ d key, a'.lookup env.toTrustEnvironment later.proof.credentialId = .ok (d, key) ∧
          ((initial.credentials.map (·.parsedKey env.toTrustEnvironment)).Nodup →
            c.parsedKey env.toTrustEnvironment ≠ .ok key) ∧
          ((initial.credentials.map (·.cosePublicKey)).Nodup →
            c.cosePublicKey ≠ d.cosePublicKey) := by
  obtain ⟨c, hc, hreplaced, hretired⟩ := (advanceReceipt_ok hstep).step.retires haction
  refine ⟨c, hc, hreplaced, ?_⟩
  rintro mid later rest a' rfl hderived
  obtain ⟨m, hm, hrest⟩ := foldlM_append_eq_ok.mp hafter
  obtain ⟨m', hlater, -⟩ := foldlM_cons_eq_ok.mp hrest
  -- The authority that approves `later` is the one behind `mid`.
  have hloop := foldlM_append_eq_ok.mpr
    ⟨s, hbefore, foldlM_cons_eq_ok.mpr ⟨s', hstep, hm⟩⟩
  obtain ⟨m₁, hm₁, rfl⟩ := derivedAuthority_eq_ok.mp hderived
  obtain rfl := Except.ok.inj (hloop.symm.trans hm₁)
  obtain ⟨d, key, hlookup, hd, hid, hkey, hactive⟩ := (advanceReceipt_ok hlater).approver
  refine ⟨?_, d, key, hlookup, ?_, ?_⟩
  · rw [← hid]
    exact approver_ne_retired (f := (·.credentialId)) (fun _ _ => rfl)
      (fun h _ hnew => (h.fresh hnew).1) hbefore hstep hm
      (TrustBundle.validate_ok hinitial).1 hretired hd hactive
  · intro hdistinct
    rw [← hkey]
    exact (approver_ne_retired (f := (·.parsedKey env.toTrustEnvironment)) (fun _ _ => rfl)
      (fun h _ hnew => (h.fresh hnew).2.1) hbefore hstep hm hdistinct hretired hd hactive).symm
  · intro hdistinct
    exact (approver_ne_retired (f := (·.cosePublicKey)) (fun _ _ => rfl)
      (fun h _ hnew => (h.fresh hnew).2.2) hbefore hstep hm hdistinct hretired hd hactive).symm

theorem chain_fresh {s s' : ChainStart}
    (hbefore : before.foldlM (advanceReceipt env) (.genesis initial) = .ok s)
    (hstep : advanceReceipt env s receipt = .ok s') {earlier : List (SignedReceipt ρ)}
    {a₀ : TrustBundle} (hearlier : earlier <+: before)
    (hderived : derivedAuthority env initial earlier = .ok a₀) {old new : TrustCredential}
    (hold : old ∈ a₀.credentials) (hnew : new ∈ receipt.body.replacement) :
    new.credentialId ≠ old.credentialId ∧
      new.parsedKey env.toTrustEnvironment ≠ old.parsedKey env.toTrustEnvironment ∧
      new.cosePublicKey ≠ old.cosePublicKey := by
  obtain ⟨rest, rfl⟩ := hearlier
  obtain ⟨m, hm, hrest⟩ := foldlM_append_eq_ok.mp hbefore
  obtain ⟨m', hm', rfl⟩ := derivedAuthority_eq_ok.mp hderived
  obtain rfl := Except.ok.inj (hm.symm.trans hm')
  have hstays : ∀ {κ : Type} {f : TrustCredential → κ}, (∀ c epoch, f (c.revoke epoch) = f c) →
      f old ∈ s.authority.credentials.map f :=
    fun hf => (credentials_stay hf hrest).subset (List.mem_map_of_mem hold)
  obtain ⟨hid, hkey, htext⟩ := (advanceReceipt_ok hstep).fresh hnew
  refine ⟨?_, ?_, ?_⟩
  · exact fun heq => hid (heq ▸ hstays (f := (·.credentialId)) fun _ _ => rfl)
  · exact fun heq => hkey
      (heq ▸ hstays (f := (·.parsedKey env.toTrustEnvironment)) fun _ _ => rfl)
  · exact fun heq => htext (heq ▸ hstays (f := (·.cosePublicKey)) fun _ _ => rfl)

end Runs

/-- The authority of every accepted chain starts with the genesis bundle in
epoch 1, ends with the reported one, and is sound at each receipt. -/
theorem signer_authority_sound (env : ReceiptEnvironment ρ) (initial : TrustBundle)
    (receipts : List (SignedReceipt ρ)) (report : ChainReport)
    (h : verifyReceiptChain env receipts initial none = .ok report) :
    derivedAuthority env initial [] = .ok initial ∧ initial.signerEpoch = 1 ∧
      derivedAuthority env initial receipts = .ok report.authorization ∧
      ∀ before receipt after, receipts = before ++ receipt :: after →
        ∃ a b, derivedAuthority env initial before = .ok a ∧
          derivedAuthority env initial (before ++ [receipt]) = .ok b ∧
          Sound env initial before receipt after a b := by
  obtain ⟨-, hgenesis, root, t, hroot, hloop, rfl⟩ := verifyReceiptChain_none_eq_ok.mp h
  obtain ⟨_, hinitial, -⟩ := bind_eq_ok.mp hroot
  refine ⟨rfl, hgenesis.1, derivedAuthority_eq_ok.mpr ⟨t, hloop, rfl⟩, ?_⟩
  intro before receipt after hsplit
  obtain ⟨s, s', hbefore, hstep, hafter⟩ := chain_split hloop hsplit
  have hadvance := advanceReceipt_ok hstep
  refine ⟨s.authority, s'.authority, derivedAuthority_eq_ok.mpr ⟨s, hbefore, rfl⟩,
    derivedAuthority_eq_ok.mpr ⟨s', foldlM_concat_eq_ok.mpr ⟨s, hbefore, hstep⟩, rfl⟩, ?_⟩
  constructor
  case approver =>
    obtain ⟨c, -, -, hc, hid, -, hactive⟩ := hadvance.approver
    exact ⟨c, hc, hid, hactive⟩
  case epoch => exact hadvance.step.epoch
  case retired => exact chain_retired hinitial hbefore hstep hafter
  case fresh =>
    intro earlier a₀ hearlier hderived old hold new hnew
    exact chain_fresh hbefore hstep hearlier hderived hold hnew
  case active => exact hadvance.step.activeCount_le

/-- The sample credential `cred-b` takes over from `cred-a`, which approves
that. -/
def sampleRotation : SignedReceipt Unit where
  body :=
    { (sampleReceipt 2).body with
      purpose := .signerAuthority
      action := .replaceSigner
      replacement := some (sampleCredential "cred-b" 2)
      replacedCredentialId := some "cred-a" }
  proof := ⟨"cred-a", "", "", ""⟩
  counterProof := some ⟨"cred-b", "", "", ""⟩

/-- Behind the rotation, `cred-b` approves. -/
def sampleRotated : SignedReceipt Unit where
  body :=
    { (sampleReceipt 3).body with
      signerEpoch := 2
      authorityDigest := sampleDigest (2 :: textBytes "cred-acred-b") }
  proof := ⟨"cred-b", "", "", ""⟩
  counterProof := none

theorem sample_signer_authority_sound :
    ∃ report, verifyReceiptChain sampleReceiptEnvironment
        [sampleReceipt 1, sampleRotation, sampleRotated] sampleGenesis none = .ok report ∧
      ∃ a b, derivedAuthority sampleReceiptEnvironment sampleGenesis [sampleReceipt 1] = .ok a ∧
        derivedAuthority sampleReceiptEnvironment sampleGenesis [sampleReceipt 1, sampleRotation] =
          .ok b ∧
        Sound sampleReceiptEnvironment sampleGenesis [sampleReceipt 1] sampleRotation
          [sampleRotated] a b :=
  ⟨_, rfl, (signer_authority_sound sampleReceiptEnvironment sampleGenesis
    [sampleReceipt 1, sampleRotation, sampleRotated] _ rfl).2.2.2 [sampleReceipt 1] sampleRotation
    [sampleRotated] rfl⟩

end Maskura.Policy
