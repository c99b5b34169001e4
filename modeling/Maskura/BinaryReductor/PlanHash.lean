import Maskura.BinaryIr.Schema
import Maskura.Lib.Delimited
import Maskura.Policy.Canonical

/-!
The hash of a reduction plan. The parts of the plan go to SHA-256 one after the other,
each behind its length; a list of claims goes behind its number, and so does the path
of each claim.
-/

namespace Maskura.BinaryReductor

open Lib BinaryIr Policy Persistence

/-- One logical schema subtree owned by a custom reductor. -/
structure BinaryReductorClaim where
  path : SchemaPath
  typeId : String
  deriving DecidableEq

/-! ### What is hashed -/

def planHashDomain : Bytes := utf8Bytes "maskura.binary-reductor.plan.v1"

def usizeBytes (value : ℕ) : Bytes := beBytes 8 (min value (2 ^ 64 - 1))

/-- What `hash_part` feeds to the hasher. -/
def hashPart (bytes : Bytes) : Bytes := usizeBytes bytes.length ++ bytes

def hashSegment : SchemaPathSegment → Bytes
  | .field name => hashPart (utf8Bytes "field") ++ hashPart (utf8Bytes name)
  | .arrayElement => hashPart (utf8Bytes "array-element")
  | .mapValue => hashPart (utf8Bytes "map-value")
  | .logicalValue => hashPart (utf8Bytes "logical-value")

def hashClaim (claim : BinaryReductorClaim) : Bytes :=
  hashPart (utf8Bytes claim.typeId) ++
    (hashPart (usizeBytes claim.path.length) ++ claim.path.flatMap hashSegment)

def hashClaims (claims : List BinaryReductorClaim) : Bytes :=
  hashPart (usizeBytes claims.length) ++ claims.flatMap hashClaim

variable (sha256 : Bytes → Bytes)

def hashReductionPlan (owner : String) (sourceSchema reducedSchema : Bytes)
    (claims customCoverage : List BinaryReductorClaim) (opaquePlan : Bytes) : Bytes :=
  sha256 (hashPart planHashDomain ++ (hashPart (utf8Bytes owner) ++ (hashPart sourceSchema ++
    (hashPart reducedSchema ++ (hashClaims claims ++ (hashClaims customCoverage ++
      hashPart opaquePlan))))))

def hashParts (domain : Bytes) (parts : List Bytes) : Bytes :=
  sha256 (hashPart domain ++ parts.flatMap hashPart)

/-! ### Values in memory -/

/-- The largest length of a slice or a text. -/
def isizeMax : ℕ := 2 ^ 63 - 1

/-- A slice of bytes. -/
structure Slice where
  bytes : Bytes
  length_le : bytes.length ≤ isizeMax

def SegmentFits : SchemaPathSegment → Prop
  | .field name => (utf8Bytes name).length ≤ isizeMax
  | .arrayElement | .mapValue | .logicalValue => True

structure ClaimFits (claim : BinaryReductorClaim) : Prop where
  typeId_le : (utf8Bytes claim.typeId).length ≤ isizeMax
  path_le : claim.path.length ≤ isizeMax
  segments : ∀ segment ∈ claim.path, SegmentFits segment

structure ClaimsFit (claims : List BinaryReductorClaim) : Prop where
  length_le : claims.length ≤ isizeMax
  claims : ∀ claim ∈ claims, ClaimFits claim

/-- What the hash of a plan is made from. -/
structure PlanArguments where
  owner : String
  sourceSchema : SchemaIr
  reducedSchema : SchemaIr
  claims : List BinaryReductorClaim
  customCoverage : List BinaryReductorClaim
  opaquePlan : Bytes
  owner_le : (utf8Bytes owner).length ≤ isizeMax
  claims_fit : ClaimsFit claims
  customCoverage_fit : ClaimsFit customCoverage
  opaquePlan_le : opaquePlan.length ≤ isizeMax

/-- The hash that `BinaryReductionPlan::new` takes once it has canonicalized the claims, of
these claims and of the schemas in their canonical form. -/
def PlanArguments.planHash (toCanonicalJson : SchemaIr → Option Slice) (plan : PlanArguments) :
    Option Bytes := do
  let sourceEncoded ← toCanonicalJson plan.sourceSchema
  let reducedEncoded ← toCanonicalJson plan.reducedSchema
  return hashReductionPlan sha256 plan.owner sourceEncoded.bytes reducedEncoded.bytes plan.claims
    plan.customCoverage plan.opaquePlan

/-! ### Parts are delimited -/

theorem usizeBytes_inj {m n : ℕ} (hm : m ≤ isizeMax) (h : usizeBytes m = usizeBytes n) : m = n := by
  have hle : ∀ k, min k (2 ^ 64 - 1) < 256 ^ 8 := fun k =>
    (Nat.min_le_right _ _).trans_lt (by decide)
  have hmin : min m (2 ^ 64 - 1) = min n (2 ^ 64 - 1) := by
    rw [← beNat_beBytes_of_lt (hle m), ← beNat_beBytes_of_lt (hle n)]
    exact congrArg beNat h
  unfold isizeMax at hm
  omega

/-- One of the two parts needs to be one that fits in memory. -/
theorem hashPart_append_inj {a b s t : Bytes} (ha : a.length ≤ isizeMax)
    (h : hashPart a ++ s = hashPart b ++ t) : a = b ∧ s = t := by
  rw [hashPart, hashPart, List.append_assoc, List.append_assoc] at h
  obtain ⟨hlengths, hrest⟩ := List.append_inj h (by simp [usizeBytes])
  exact List.append_inj hrest (usizeBytes_inj ha hlengths)

theorem hashPart_delimited : DelimitedOn (fun bytes : Bytes => bytes.length ≤ isizeMax) hashPart :=
  fun _ _ _ _ ha _ h => hashPart_append_inj ha h

theorem hashText_delimited :
    DelimitedOn (fun text => (utf8Bytes text).length ≤ isizeMax) fun text => hashPart (utf8Bytes text) :=
  hashPart_delimited.comap utf8Bytes_injective

theorem hashCount_delimited :
    DelimitedOn (fun n => n ≤ isizeMax) fun n => hashPart (usizeBytes n) := by
  intro m n s t hm _ h
  have hlength : (usizeBytes m).length ≤ isizeMax := by
    simp [usizeBytes, isizeMax]
  obtain ⟨hsame, rfl⟩ := hashPart_append_inj hlength h
  exact ⟨usizeBytes_inj hm hsame, rfl⟩

/-- The word a segment starts with. -/
def segmentTag : SchemaPathSegment → String
  | .field _ => "field"
  | .arrayElement => "array-element"
  | .mapValue => "map-value"
  | .logicalValue => "logical-value"

/-- What stands behind the word. -/
def segmentName : SchemaPathSegment → Bytes
  | .field name => hashPart (utf8Bytes name)
  | .arrayElement | .mapValue | .logicalValue => []

theorem segmentTag_length_le (segment : SchemaPathSegment) :
    (utf8Bytes (segmentTag segment)).length ≤ isizeMax := by
  cases segment with
  | field name => exact (by decide : (utf8Bytes "field").length ≤ isizeMax)
  | arrayElement | mapValue | logicalValue => decide

theorem hashSegment_eq (segment : SchemaPathSegment) :
    hashSegment segment = hashPart (utf8Bytes (segmentTag segment)) ++ segmentName segment := by
  cases segment with
  | field name => rfl
  | arrayElement | mapValue | logicalValue => exact (List.append_nil _).symm

theorem hashSegment_delimited : DelimitedOn SegmentFits hashSegment := by
  intro a b s t ha hb h
  rw [hashSegment_eq, hashSegment_eq, List.append_assoc, List.append_assoc] at h
  obtain ⟨htags, hrest⟩ := hashPart_append_inj (segmentTag_length_le a) h
  have htag : segmentTag a = segmentTag b := utf8Bytes_injective htags
  -- the word tells the kind of the segment, and only a field has more
  cases a with
  | field name =>
      cases b with
      | field name' =>
          obtain ⟨rfl, rfl⟩ := hashText_delimited ha hb hrest
          exact ⟨rfl, rfl⟩
      | arrayElement | mapValue | logicalValue => simp [segmentTag] at htag
  | arrayElement =>
      cases b with
      | arrayElement => exact ⟨rfl, hrest⟩
      | field | mapValue | logicalValue => simp [segmentTag] at htag
  | mapValue =>
      cases b with
      | mapValue => exact ⟨rfl, hrest⟩
      | field | arrayElement | logicalValue => simp [segmentTag] at htag
  | logicalValue =>
      cases b with
      | logicalValue => exact ⟨rfl, hrest⟩
      | field | arrayElement | mapValue => simp [segmentTag] at htag

theorem hashClaim_delimited : DelimitedOn ClaimFits hashClaim := by
  have hparts := hashText_delimited.prod (hashCount_delimited.counted hashSegment_delimited)
  have hfields : Function.Injective fun claim : BinaryReductorClaim => (claim.typeId, claim.path) := by
    rintro ⟨path, typeId⟩ ⟨path', typeId'⟩ h
    obtain ⟨rfl, rfl⟩ := Prod.mk.inj h
    rfl
  exact (hparts.comap hfields).mono fun claim h => ⟨h.typeId_le, h.path_le, h.segments⟩

theorem hashClaims_delimited : DelimitedOn ClaimsFit hashClaims :=
  (hashCount_delimited.counted hashClaim_delimited).mono fun _ h => ⟨h.length_le, h.claims⟩

theorem planHashDomain_length_le : planHashDomain.length ≤ isizeMax := by
  decide

/-! ### Plans and their hashes -/

section Plans

variable {sha256} {toCanonicalJson : SchemaIr → Option Slice} {plan : PlanArguments}
  {hash : Bytes}

/-- A plan that has a hash, with the forms of its schemas. -/
theorem PlanArguments.planHash_eq_some :
    plan.planHash sha256 toCanonicalJson = some hash ↔
      ∃ source reduced, toCanonicalJson plan.sourceSchema = some source ∧
        toCanonicalJson plan.reducedSchema = some reduced ∧
        hashReductionPlan sha256 plan.owner source.bytes reduced.bytes plan.claims
          plan.customCoverage plan.opaquePlan = hash := by
  simp [planHash, Option.bind_eq_some_iff]

/-- The domain stands first in what is hashed. -/
theorem hashParts_ne_planHash (hsha : Function.Injective sha256) {domain : Bytes}
    (hdomain : domain ≠ planHashDomain) (parts : List Bytes)
    (hplan : plan.planHash sha256 toCanonicalJson = some hash) :
    hashParts sha256 domain parts ≠ hash := by
  obtain ⟨source, reduced, -, -, rfl⟩ := PlanArguments.planHash_eq_some.mp hplan
  intro hsame
  exact hdomain (hashPart_append_inj planHashDomain_length_le (hsha hsame.symm)).1.symm

end Plans

/-- With a hash function and a schema form that tell their arguments apart, plans with
one hash are one plan, and no hash of a plan is one of parts under another domain. -/
theorem planHash_identifies_plan (sha256 : Bytes → Bytes) (hsha : Function.Injective sha256)
    (toCanonicalJson : SchemaIr → Option Slice)
    (hjson : ∀ a b slice, toCanonicalJson a = some slice → toCanonicalJson b = some slice → a = b) :
    (∀ (plan plan' : PlanArguments) hash, plan.planHash sha256 toCanonicalJson = some hash →
      plan'.planHash sha256 toCanonicalJson = some hash → plan = plan') ∧
    ∀ (plan : PlanArguments) hash domain parts, plan.planHash sha256 toCanonicalJson = some hash →
      domain ≠ planHashDomain → hashParts sha256 domain parts ≠ hash := by
  refine ⟨fun plan plan' hash hplan hplan' => ?_, fun plan hash domain parts hplan hdomain => ?_⟩
  · obtain ⟨source, reduced, hsource, hreduced, rfl⟩ := PlanArguments.planHash_eq_some.mp hplan
    obtain ⟨source', reduced', hsource', hreduced', hhash⟩ :=
      PlanArguments.planHash_eq_some.mp hplan'
    obtain ⟨-, h⟩ := hashPart_append_inj planHashDomain_length_le (hsha hhash.symm)
    obtain ⟨howner, h⟩ := hashText_delimited plan.owner_le plan'.owner_le h
    obtain ⟨hsources, h⟩ := hashPart_append_inj source.length_le h
    obtain ⟨hreduceds, h⟩ := hashPart_append_inj reduced.length_le h
    obtain ⟨hclaims, h⟩ := hashClaims_delimited plan.claims_fit plan'.claims_fit h
    obtain ⟨hcoverage, h⟩ := hashClaims_delimited plan.customCoverage_fit plan'.customCoverage_fit h
    have hopaque := hashPart_delimited.injOn plan.opaquePlan_le plan'.opaquePlan_le h
    have hslice : ∀ a b : Slice, a.bytes = b.bytes → a = b := by
      rintro ⟨a, ha⟩ ⟨b, hb⟩ rfl
      rfl
    obtain rfl := hslice _ _ hsources
    obtain rfl := hslice _ _ hreduceds
    have hschema := hjson _ _ _ hsource hsource'
    have hschema' := hjson _ _ _ hreduced hreduced'
    cases plan
    cases plan'
    subst howner hschema hschema' hclaims hcoverage hopaque
    rfl
  · exact hashParts_ne_planHash hsha hdomain parts hplan

/-- A schema of one number, and its canonical form. -/
def sampleSchema : SchemaIr := .new ⟨false, .scalar .i64⟩

def sampleJson (schema : SchemaIr) : Option Slice :=
  if schema = sampleSchema then
    some ⟨utf8Bytes "\x7b\"root\":\x7b\"kind\":\x7b\"type\":\"i64\"\x7d,\"nullable\":false\x7d,\"version\":1\x7d",
      by decide⟩
  else none

def sampleClaim : BinaryReductorClaim := ⟨[.field "amount"], "example:money@1"⟩

/-- A plan with the claim among its claims or in its custom coverage. -/
def samplePlan (claimed : Bool) : PlanArguments where
  owner := "maskura:common-type-identity@1"
  sourceSchema := sampleSchema
  reducedSchema := sampleSchema
  claims := if claimed then [sampleClaim] else []
  customCoverage := if claimed then [] else [sampleClaim]
  opaquePlan := []
  owner_le := by decide
  claims_fit := by
    cases claimed with
    | true => exact ⟨by decide, List.forall_mem_singleton.mpr ⟨by decide, by decide,
        List.forall_mem_singleton.mpr (by decide : (utf8Bytes "amount").length ≤ isizeMax)⟩⟩
    | false => exact ⟨by decide, fun _ h => absurd h List.not_mem_nil⟩
  customCoverage_fit := by
    cases claimed with
    | false => exact ⟨by decide, List.forall_mem_singleton.mpr ⟨by decide, by decide,
        List.forall_mem_singleton.mpr (by decide : (utf8Bytes "amount").length ≤ isizeMax)⟩⟩
    | true => exact ⟨by decide, fun _ h => absurd h List.not_mem_nil⟩
  opaquePlan_le := by decide

theorem sampleJson_injective (a b : SchemaIr) (slice : Slice) (ha : sampleJson a = some slice)
    (hb : sampleJson b = some slice) : a = b := by
  unfold sampleJson at ha hb
  split at ha
  · split at hb
    · rename_i hsame hsame'
      exact hsame.trans hsame'.symm
    · cases hb
  · cases ha

/-- An injective function with the values of SHA-256 on what the two plans hash. -/
def sampleSha256 : Bytes ≃ Bytes :=
  (Equiv.swap (((samplePlan true).planHash id sampleJson).getD [])
    (beBytes 32 0x66199ee035b84462daa586d4132dda96f54e53396e5cfd0588dd5f573cbd9610)).trans
  (Equiv.swap (((samplePlan false).planHash id sampleJson).getD [])
    (beBytes 32 0x9a0d72b2b18b2c77c3a9b69985fa9ac548399b8db89d5dece9af172123480956))

/-- The claim in the one list or in the other gives another hash. -/
theorem samplePlan_hashes_differ :
    (samplePlan true).planHash sampleSha256 sampleJson =
        some (beBytes 32 0x66199ee035b84462daa586d4132dda96f54e53396e5cfd0588dd5f573cbd9610) ∧
      (samplePlan true).planHash sampleSha256 sampleJson ≠
        (samplePlan false).planHash sampleSha256 sampleJson := by
  have hhash : (samplePlan true).planHash sampleSha256 sampleJson =
      some (beBytes 32 0x66199ee035b84462daa586d4132dda96f54e53396e5cfd0588dd5f573cbd9610) := by
    decide +kernel
  refine ⟨hhash, fun hsame => ?_⟩
  have hplans := (planHash_identifies_plan sampleSha256 sampleSha256.injective sampleJson
    sampleJson_injective).1 (samplePlan true) (samplePlan false) _ hhash (hsame ▸ hhash)
  exact absurd (congrArg PlanArguments.claims hplans) (by decide)

end Maskura.BinaryReductor
