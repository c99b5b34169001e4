import Maskura.Lib.Framing
import Maskura.Lib.Sorted
import Maskura.Policy.Canonical
import Mathlib.Data.Prod.Lex
import Mathlib.Data.String.Basic

/-!
The digests that bind an approved policy to where the data goes. Gateway and
control plane hash the same bytes: a domain and the destination's fields, with a
NUL between them, and for the placement policy the sorted backends with every
field behind its length.
-/

namespace Maskura.Policy

open Maskura.Lib
open Persistence (Bytes)

section Digests

variable (sha256 : Bytes → Bytes)

def hexDigest (preimage : Bytes) : String := hexEncode (sha256 preimage)

def presignedConfigurationSha256 (origin : String) : String :=
  hexDigest sha256 (utf8Bytes "maskura-presigned\x00" ++ utf8Bytes origin)

def s3CompatibleConfigurationSha256 (endpoint region : String) : String :=
  hexDigest sha256
    (utf8Bytes "maskura-s3-compatible\x00" ++ utf8Bytes endpoint ++ [0] ++ utf8Bytes region)

def awsRoleConfigurationSha256 (roleArn region : String) : String :=
  hexDigest sha256
    (utf8Bytes "maskura-aws-role\x00" ++ utf8Bytes roleArn ++ [0] ++ utf8Bytes region)

def globalS3ConfigurationSha256 : String :=
  hexDigest sha256 (utf8Bytes "maskura-global-s3\x00")

def managedBackendConfigurationSha256 (provider providerInstanceId providerAccountId endpoint
    region bucket : String) (placementWeight placementCapacityUnits credentialEpoch : UInt64) :
    String :=
  hexDigest sha256
    (utf8Bytes "maskura-managed-backend\x00" ++ utf8Bytes provider ++ [0] ++
      utf8Bytes providerInstanceId ++ [0] ++ utf8Bytes providerAccountId ++ [0] ++
      utf8Bytes endpoint ++ [0] ++ utf8Bytes region ++ [0] ++ utf8Bytes bucket ++ [0] ++
      beBytes 8 placementWeight.toNat ++ beBytes 8 placementCapacityUnits.toNat ++
      beBytes 8 credentialEpoch.toNat)

/-- A call of one of the digest functions. -/
inductive DigestCall
  | presigned (origin : String)
  | s3Compatible (endpoint region : String)
  | awsRole (roleArn region : String)
  | globalS3
  | managedBackend (provider providerInstanceId providerAccountId endpoint region bucket : String)
      (placementWeight placementCapacityUnits credentialEpoch : UInt64)
  deriving DecidableEq

def DigestCall.digest : DigestCall → String
  | presigned origin => presignedConfigurationSha256 sha256 origin
  | s3Compatible endpoint region => s3CompatibleConfigurationSha256 sha256 endpoint region
  | awsRole roleArn region => awsRoleConfigurationSha256 sha256 roleArn region
  | globalS3 => globalS3ConfigurationSha256 sha256
  | managedBackend provider instanceId accountId endpoint region bucket weight capacity epoch =>
      managedBackendConfigurationSha256 sha256 provider instanceId accountId endpoint region bucket
        weight capacity epoch

/-- One backend of a placement policy. No text is longer than its `u64` length. -/
structure BackendFacts where
  backendId : String
  weight : UInt64
  capacity : UInt64
  length_lt : (utf8Bytes backendId).length < 256 ^ 8

/-- `facts.sort()` compares the id, the weight and the capacity in turn. -/
def BackendFacts.key (facts : BackendFacts) : String ×ₗ ℕ ×ₗ ℕ :=
  toLex (facts.backendId, toLex (facts.weight.toNat, facts.capacity.toNat))

theorem BackendFacts.key_injective : Function.Injective BackendFacts.key := by
  rintro ⟨id, weight, capacity, _⟩ ⟨id', weight', capacity', _⟩ h
  obtain ⟨rfl, hrest⟩ := Prod.mk.inj h
  obtain ⟨hweight, hcapacity⟩ := Prod.mk.inj hrest
  rw [UInt64.toNat_inj] at hweight hcapacity
  subst hweight hcapacity
  rfl

instance : LinearOrder BackendFacts := LinearOrder.lift' _ BackendFacts.key_injective

/-- `hash_field`: the value behind its length. -/
def hashField (value : Bytes) : Bytes := Framing.framed 8 value

def BackendFacts.fields (facts : BackendFacts) : Bytes :=
  hashField (utf8Bytes facts.backendId) ++ hashField (beBytes 8 facts.weight.toNat) ++
    hashField (beBytes 8 facts.capacity.toNat)

def placementPolicyFingerprint (version : UInt32) (backends : List BackendFacts) : String :=
  hexDigest sha256 (utf8Bytes "s4-placement-policy\x00" ++ beBytes 4 version.toNat ++
    (backends.insertionSort (· ≤ ·)).flatMap BackendFacts.fields)

end Digests

/-! ### Telling the calls apart -/

theorem beBytes_injOn {width n m : ℕ} (hn : n < 256 ^ width) (hm : m < 256 ^ width)
    (h : beBytes width n = beBytes width m) : n = m := by
  rw [← beNat_beBytes_of_lt hn, h, beNat_beBytes_of_lt hm]

namespace DigestCall

/-- What is hashed first, before the NUL. -/
def domain : DigestCall → String
  | presigned _ => "maskura-presigned"
  | s3Compatible .. => "maskura-s3-compatible"
  | awsRole .. => "maskura-aws-role"
  | globalS3 => "maskura-global-s3"
  | managedBackend .. => "maskura-managed-backend"

/-- What is hashed behind the domain. -/
def body : DigestCall → Bytes
  | presigned origin => utf8Bytes origin
  | s3Compatible endpoint region => utf8Bytes endpoint ++ 0 :: utf8Bytes region
  | awsRole roleArn region => utf8Bytes roleArn ++ 0 :: utf8Bytes region
  | globalS3 => []
  | managedBackend provider instanceId accountId endpoint region bucket weight capacity epoch =>
      Framing.terminated 0 ([provider, instanceId, accountId, endpoint, region, bucket].map
        utf8Bytes) ++ (beBytes 8 weight.toNat ++ beBytes 8 capacity.toNat ++ beBytes 8 epoch.toNat)

theorem digest_eq (sha256 : Bytes → Bytes) (call : DigestCall) :
    call.digest sha256 = hexDigest sha256 (utf8Bytes call.domain ++ 0 :: call.body) := by
  have hpresigned : utf8Bytes "maskura-presigned\x00" = utf8Bytes "maskura-presigned" ++ [0] := by
    decide
  have hs3 : utf8Bytes "maskura-s3-compatible\x00" = utf8Bytes "maskura-s3-compatible" ++ [0] := by
    decide
  have haws : utf8Bytes "maskura-aws-role\x00" = utf8Bytes "maskura-aws-role" ++ [0] := by decide
  have hglobal : utf8Bytes "maskura-global-s3\x00" = utf8Bytes "maskura-global-s3" ++ [0] := by
    decide
  have hmanaged : utf8Bytes "maskura-managed-backend\x00" =
      utf8Bytes "maskura-managed-backend" ++ [0] := by decide
  cases call with
  | presigned => simp [digest, presignedConfigurationSha256, hpresigned, domain, body]
  | s3Compatible => simp [digest, s3CompatibleConfigurationSha256, hs3, domain, body]
  | awsRole => simp [digest, awsRoleConfigurationSha256, haws, domain, body]
  | globalS3 => simp [digest, globalS3ConfigurationSha256, hglobal, domain, body]
  | managedBackend =>
      simp [digest, managedBackendConfigurationSha256, hmanaged, domain, body, Framing.terminated]

/-- The domains have no NUL, so the first one ends the domain. -/
theorem digest_eq_digest_iff {sha256 : Bytes → Bytes} (hsha : Function.Injective sha256)
    {a b : DigestCall} :
    a.digest sha256 = b.digest sha256 ↔ a.domain = b.domain ∧ a.body = b.body := by
  have hfree : ∀ call : DigestCall, 0 ∉ utf8Bytes call.domain := by
    intro call
    cases call <;> simp only [domain] <;> decide
  rw [digest_eq, digest_eq, hexDigest, hexDigest, hexEncode_injective.eq_iff, hsha.eq_iff]
  constructor
  · intro h
    obtain ⟨hdomain, hbody⟩ := Framing.append_cons_inj (hfree a) (hfree b) h
    exact ⟨utf8Bytes_injective hdomain, hbody⟩
  · rintro ⟨hdomain, hbody⟩
    rw [hdomain, hbody]

/-- No text of the call but a presigned origin, which is the last thing hashed, has a
NUL. -/
def NulFree : DigestCall → Prop
  | presigned _ => True
  | s3Compatible endpoint region => '\x00' ∉ endpoint.toList ∧ '\x00' ∉ region.toList
  | awsRole roleArn region => '\x00' ∉ roleArn.toList ∧ '\x00' ∉ region.toList
  | globalS3 => True
  | managedBackend provider instanceId accountId endpoint region bucket _ _ _ =>
      ∀ text ∈ [provider, instanceId, accountId, endpoint, region, bucket], '\x00' ∉ text.toList

theorem pair_inj {a b a' b' : String} (ha : '\x00' ∉ a.toList) (hb : '\x00' ∉ b.toList)
    (h : utf8Bytes a ++ 0 :: utf8Bytes b = utf8Bytes a' ++ 0 :: utf8Bytes b') :
    a = a' ∧ b = b' := by
  have hfields : Framing.terminated 0 [utf8Bytes a, utf8Bytes b] =
      Framing.terminated 0 [utf8Bytes a', utf8Bytes b'] := by
    simpa [Framing.terminated] using congrArg (· ++ [0]) h
  have hfree : ∀ field ∈ [utf8Bytes a, utf8Bytes b], 0 ∉ field := by
    simp [zero_mem_utf8Bytes, ha, hb]
  have hlists := Framing.terminated_inj hfree (by simp) hfields
  simp only [List.cons.injEq, and_true] at hlists
  exact ⟨utf8Bytes_injective hlists.1, utf8Bytes_injective hlists.2⟩

theorem beBytes_toNat_inj {a b : UInt64} (h : beBytes 8 a.toNat = beBytes 8 b.toNat) : a = b :=
  UInt64.toNat_inj.1 (beBytes_injOn a.toNat_lt b.toNat_lt h)

/-- The numbers are the last 24 bytes; what stands before them are the texts. -/
theorem managed_body_inj {texts texts' : List String} {weight capacity epoch weight' capacity'
    epoch' : UInt64} (hfree : ∀ text ∈ texts, '\x00' ∉ text.toList)
    (hlength : texts.length = texts'.length)
    (h : Framing.terminated 0 (texts.map utf8Bytes) ++
        (beBytes 8 weight.toNat ++ beBytes 8 capacity.toNat ++ beBytes 8 epoch.toNat) =
      Framing.terminated 0 (texts'.map utf8Bytes) ++
        (beBytes 8 weight'.toNat ++ beBytes 8 capacity'.toNat ++ beBytes 8 epoch'.toNat)) :
    texts = texts' ∧ weight = weight' ∧ capacity = capacity' ∧ epoch = epoch' := by
  obtain ⟨htexts, hnumbers⟩ := List.append_inj' h (by simp)
  obtain ⟨hnumbers, hepoch⟩ := List.append_inj' hnumbers (by simp)
  obtain ⟨hweight, hcapacity⟩ := List.append_inj hnumbers (by simp)
  refine ⟨?_, beBytes_toNat_inj hweight, beBytes_toNat_inj hcapacity, beBytes_toNat_inj hepoch⟩
  refine List.map_injective_iff.2 utf8Bytes_injective
    (Framing.terminated_inj ?_ (by simpa using hlength) htexts)
  simpa [zero_mem_utf8Bytes] using hfree

/-- Two neighbours among the texts may be cut elsewhere. -/
theorem exists_other_neighbours (front back : List String) {a b : String}
    (h : '\x00' ∈ a.toList ∨ '\x00' ∈ b.toList) :
    ∃ texts', texts'.length = (front ++ a :: b :: back).length ∧ front ++ a :: b :: back ≠ texts' ∧
      Framing.terminated 0 ((front ++ a :: b :: back).map utf8Bytes) =
        Framing.terminated 0 (texts'.map utf8Bytes) := by
  obtain ⟨a', b', hne, hcut⟩ := exists_other_cut h
  refine ⟨front ++ a' :: b' :: back, by simp, ?_, ?_⟩
  · intro heq
    exact hne (List.cons.inj (List.append_cancel_left heq)).1.symm
  · have hpair := congrArg (· ++ 0 :: Framing.terminated 0 (back.map utf8Bytes)) hcut
    simpa [Framing.terminated] using hpair

theorem exists_other_texts {texts : List String} (htwo : 2 ≤ texts.length) {text : String}
    (hmem : text ∈ texts) (hnul : '\x00' ∈ text.toList) :
    ∃ texts', texts'.length = texts.length ∧ texts ≠ texts' ∧
      Framing.terminated 0 (texts.map utf8Bytes) =
        Framing.terminated 0 (texts'.map utf8Bytes) := by
  obtain ⟨front, back, rfl⟩ := List.append_of_mem hmem
  -- The neighbour is the next text, or the one before when this is the last.
  cases back with
  | cons next back => exact exists_other_neighbours front back (.inl hnul)
  | nil =>
      obtain rfl | ⟨front, last, rfl⟩ := List.eq_nil_or_concat' front
      · simp at htwo
      · simpa using exists_other_neighbours front [] (.inr hnul)

/-- A call shares its digest with no other exactly when its texts have no NUL. -/
theorem digest_unique_iff {sha256 : Bytes → Bytes} (hsha : Function.Injective sha256)
    (call : DigestCall) :
    (∀ other : DigestCall, call.digest sha256 = other.digest sha256 → call = other) ↔
      call.NulFree := by
  simp only [digest_eq_digest_iff hsha]
  constructor
  · intro hunique
    by_contra hnul
    cases call with
    | presigned => exact hnul trivial
    | globalS3 => exact hnul trivial
    | s3Compatible endpoint region =>
        rw [NulFree, not_and_or, not_not, not_not] at hnul
        obtain ⟨endpoint', region', hne, hcut⟩ := exists_other_cut hnul
        have heq := hunique (s3Compatible endpoint' region') ⟨rfl, hcut⟩
        exact hne (s3Compatible.inj heq).1.symm
    | awsRole roleArn region =>
        rw [NulFree, not_and_or, not_not, not_not] at hnul
        obtain ⟨roleArn', region', hne, hcut⟩ := exists_other_cut hnul
        have heq := hunique (awsRole roleArn' region') ⟨rfl, hcut⟩
        exact hne (awsRole.inj heq).1.symm
    | managedBackend provider instanceId accountId endpoint region bucket weight capacity epoch =>
        simp only [NulFree, not_forall, not_not] at hnul
        obtain ⟨text, hmem, hnul⟩ := hnul
        obtain ⟨texts, hlength, hne, hcut⟩ := exists_other_texts (by simp) hmem hnul
        obtain ⟨provider', instanceId', accountId', endpoint', region', bucket', rfl⟩ :
            ∃ p i a e r b, texts = [p, i, a, e, r, b] := by
          match texts, hlength with
          | [p, i, a, e, r, b], _ => exact ⟨p, i, a, e, r, b, rfl⟩
        have heq := hunique (managedBackend provider' instanceId' accountId' endpoint' region'
          bucket' weight capacity epoch) ⟨rfl, congrArg (· ++ _) hcut⟩
        injection heq with h₁ h₂ h₃ h₄ h₅ h₆
        exact hne (by rw [h₁, h₂, h₃, h₄, h₅, h₆])
  · rintro hfree other ⟨hdomain, hbody⟩
    -- Calls of two functions differ in the domain.
    cases call <;> cases other <;> simp only [domain, String.reduceEq] at hdomain
    case presigned.presigned => rw [utf8Bytes_injective hbody]
    case globalS3.globalS3 => rfl
    case s3Compatible.s3Compatible =>
      obtain ⟨rfl, rfl⟩ := pair_inj hfree.1 hfree.2 hbody
      rfl
    case awsRole.awsRole =>
      obtain ⟨rfl, rfl⟩ := pair_inj hfree.1 hfree.2 hbody
      rfl
    case managedBackend.managedBackend =>
      obtain ⟨htexts, rfl, rfl, rfl⟩ := managed_body_inj hfree (by simp) hbody
      simp only [List.cons.injEq, and_true] at htexts
      obtain ⟨rfl, rfl, rfl, rfl, rfl, rfl⟩ := htexts
      rfl

end DigestCall

/-! ### The placement policy -/

theorem BackendFacts.fields_append_inj (a b : BackendFacts) (s t : Bytes)
    (h : a.fields ++ s = b.fields ++ t) : a = b ∧ s = t := by
  obtain ⟨id, weight, capacity, hid⟩ := a
  obtain ⟨id', weight', capacity', hid'⟩ := b
  have hnumber : ∀ n : ℕ, (beBytes 8 n).length < 256 ^ 8 := by simp
  simp only [fields, hashField, List.append_assoc] at h
  obtain ⟨hids, hnumbers⟩ := Framing.framed_append_inj hid hid' h
  obtain ⟨hweight, hlast⟩ := Framing.framed_append_inj (hnumber _) (hnumber _) hnumbers
  obtain ⟨hcapacity, hrest⟩ := Framing.framed_append_inj (hnumber _) (hnumber _) hlast
  obtain rfl := utf8Bytes_injective hids
  obtain rfl := DigestCall.beBytes_toNat_inj hweight
  obtain rfl := DigestCall.beBytes_toNat_inj hcapacity
  exact ⟨rfl, hrest⟩

theorem BackendFacts.fields_ne_nil (facts : BackendFacts) : facts.fields ≠ [] := by
  intro h
  have := congrArg List.length h
  simp [fields, hashField, Framing.framed] at this

theorem placementPolicyFingerprint_eq_iff {sha256 : Bytes → Bytes}
    (hsha : Function.Injective sha256) {version version' : UInt32}
    {backends backends' : List BackendFacts} :
    placementPolicyFingerprint sha256 version backends =
        placementPolicyFingerprint sha256 version' backends' ↔
      version = version' ∧ backends.Perm backends' := by
  rw [placementPolicyFingerprint, placementPolicyFingerprint, hexDigest, hexDigest,
    hexEncode_injective.eq_iff, hsha.eq_iff, ← insertionSort_eq_iff_perm]
  constructor
  · intro h
    obtain ⟨hversion, hbackends⟩ := List.append_inj h (by simp)
    have hversion := beBytes_injOn version.toNat_lt version'.toNat_lt
      (List.append_cancel_left hversion)
    exact ⟨UInt32.toNat_inj.1 hversion, Text.flatMap_injective BackendFacts.fields_ne_nil
      BackendFacts.fields_append_inj hbackends⟩
  · rintro ⟨rfl, hbackends⟩
    rw [hbackends]

/-- With a hash that never collides, a destination shares its digest with no other
exactly when its texts have no NUL, and a placement policy's fingerprint stands for
the version and the backends in any order. -/
theorem destination_bindings_unambiguous_iff (sha256 : Bytes → Bytes)
    (hsha : Function.Injective sha256) :
    (∀ call : DigestCall,
      (∀ other : DigestCall, call.digest sha256 = other.digest sha256 → call = other) ↔
        call.NulFree) ∧
    (∀ (version version' : UInt32) (backends backends' : List BackendFacts),
      placementPolicyFingerprint sha256 version backends =
          placementPolicyFingerprint sha256 version' backends' ↔
        version = version' ∧ backends.Perm backends') :=
  ⟨DigestCall.digest_unique_iff hsha, fun _ _ _ _ => placementPolicyFingerprint_eq_iff hsha⟩

def sampleRole : DigestCall := .awsRole "arn:aws:iam::123:role/r" "us-west-2"

def sampleBackends : List BackendFacts := [⟨"a", 1, 2, by decide⟩, ⟨"b", 3, 4, by decide⟩]

/-- An injective function with the values of SHA-256 on the sample's preimages. -/
def bindingSha256 : Bytes ≃ Bytes :=
  (Equiv.swap (utf8Bytes sampleRole.domain ++ 0 :: sampleRole.body)
    (beBytes 32 0x377979a6b0447458e0317edca55d75d922fa909e32a5690835da0ddfd83f8995)).trans
  (Equiv.swap (utf8Bytes "s4-placement-policy\x00" ++ beBytes 4 1 ++
      sampleBackends.flatMap BackendFacts.fields)
    (beBytes 32 0x1450298f70f46a4f639440b1721e9f516ee0093ab61de73508d67270b7617fe9))

/-- The digest of a role, and the fingerprint of two backends in either order. -/
theorem destination_bindings_unambiguous_sample :
    sampleRole.digest bindingSha256 =
        "377979a6b0447458e0317edca55d75d922fa909e32a5690835da0ddfd83f8995" ∧
    (∀ other : DigestCall, sampleRole.digest bindingSha256 = other.digest bindingSha256 →
      sampleRole = other) ∧
    placementPolicyFingerprint bindingSha256 1 sampleBackends =
        "1450298f70f46a4f639440b1721e9f516ee0093ab61de73508d67270b7617fe9" ∧
    placementPolicyFingerprint bindingSha256 1 sampleBackends =
      placementPolicyFingerprint bindingSha256 1 sampleBackends.reverse := by
  obtain ⟨hcalls, hpolicies⟩ :=
    destination_bindings_unambiguous_iff bindingSha256 bindingSha256.injective
  exact ⟨by decide +kernel, (hcalls _).2 ⟨by decide, by decide⟩, by decide +kernel,
    (hpolicies _ _ _ _).2 ⟨rfl, .swap _ _ _⟩⟩

/-- Two roles whose digests agree, whatever the hash: the NUL of one's region stands
where the other's role ends. -/
theorem awsRole_digests_collide :
    (∀ sha256 : Bytes → Bytes,
      awsRoleConfigurationSha256 sha256 "arn:aws:iam::1:role/a" "b\x00c" =
        awsRoleConfigurationSha256 sha256 "arn:aws:iam::1:role/a\x00b" "c") ∧
    DigestCall.awsRole "arn:aws:iam::1:role/a" "b\x00c" ≠
      DigestCall.awsRole "arn:aws:iam::1:role/a\x00b" "c" := by
  refine ⟨fun sha256 => congrArg (hexDigest sha256) ?_, by decide⟩
  decide +kernel

end Maskura.Policy
