import Maskura.Iceberg.Names
import Maskura.Lib.Bytes
import Maskura.Lib.Fold
import Maskura.Lib.Utf8

/-!
Requests that are authenticated by their query. Six parameters carry the
authentication; the signature covers the target that is left when the
authentication is taken out of the query. The parser knows its parameters by
their exact names, and the target drops everything whose name starts as theirs
do.
-/

namespace Maskura.Sigv4

open Maskura.Lib Maskura.Lib.Text Maskura.Lib.Utf8
open Maskura.Iceberg (parseU64)
open Maskura.Persistence (Bytes)
open scoped List

/-- The errors of reading the authentication of a request. -/
inductive SigV4Error
  | ambiguousAuthentication
  | duplicateHeader (name : String)
  | invalidAuthorization
  | invalidCredential
  | invalidPresign
  | invalidSignedHeaders
  | missingHeader (name : String)
  deriving DecidableEq, Repr

/-- A request target. The path ends where the query begins. -/
structure Uri where
  path : Bytes
  query : Option Bytes
  path_closed : '?'.toUInt8 ∉ path

/-! ### Percent encoding -/

/-- `u8::from_str_radix` of two bytes, which takes a plus sign before a digit. -/
def hexPair (first second : UInt8) : Option UInt8 :=
  if first = '+'.toUInt8 then (hexValue second).map .ofNat
  else do some (.ofNat (16 * (← hexValue first) + (← hexValue second)))

def decodeBytes : Bytes → Option Bytes
  | [] => some []
  | byte :: rest =>
      if byte = '%'.toUInt8 then
        match rest with
        | first :: second :: rest => do some ((← hexPair first second) :: (← decodeBytes rest))
        | _ => none
      else do some (byte :: (← decodeBytes rest))

def percentDecode (value : Bytes) : Except SigV4Error Bytes := do
  let decoded ← okOr (decodeBytes value) .invalidPresign
  rejectIf (isUtf8 decoded = false) .invalidPresign
  pure decoded

/-! ### Query authentication -/

inductive AuthParameter
  | algorithm
  | credential
  | date
  | expires
  | signedHeaders
  | signature
  deriving DecidableEq, Repr

namespace AuthParameter

def name : AuthParameter → Bytes
  | algorithm => utf8Bytes "X-Amz-Algorithm"
  | credential => utf8Bytes "X-Amz-Credential"
  | date => utf8Bytes "X-Amz-Date"
  | expires => utf8Bytes "X-Amz-Expires"
  | signedHeaders => utf8Bytes "X-Amz-SignedHeaders"
  | signature => utf8Bytes "X-Amz-Signature"

def all : List AuthParameter := [algorithm, credential, date, expires, signedHeaders, signature]

/-- The parameter of this name. -/
def ofName (text : Bytes) : Option AuthParameter := all.find? (·.name = text)

end AuthParameter

/-- The start of the names of the authentication parameters. -/
def amzStart : Bytes := utf8Bytes "X-Amz-"

def algorithmName : Bytes := utf8Bytes "AWS4-HMAC-SHA256"

/-- The name and the value of a pair, as they stand in the query. -/
def splitPair (pair : Bytes) : Bytes × Bytes := (splitOnce '='.toUInt8 pair).getD (pair, [])

structure QuerySlots where
  value : AuthParameter → Option Bytes
  sawAuth : Bool

def QuerySlots.visit (slots : QuerySlots) (pair : Bytes) : Except SigV4Error QuerySlots := do
  let name ← percentDecode (splitPair pair).1
  let value ← percentDecode (splitPair pair).2
  match AuthParameter.ofName name with
  | some parameter => do
      rejectIf ((slots.value parameter).isSome) .invalidPresign
      pure ⟨Function.update slots.value parameter (some value), true⟩
  | none => pure slots

def validateSignature (value : Bytes) : Except SigV4Error Unit :=
  rejectIf (value.length ≠ 64 ∨ value.any (fun byte => (hexValue byte).isNone) = true)
    .invalidAuthorization

structure QueryAuthentication where
  credential : Bytes
  timestamp : Bytes
  /-- Seconds. -/
  expires : ℕ
  signedHeaders : Bytes
  signature : Bytes
  deriving DecidableEq, Repr

/-- `str::parse::<u64>` of the bytes of a text. -/
def parseSeconds (value : Bytes) : Option ℕ := parseU64 (value.map fun byte => .ofNat byte.toNat)

/-- The authentication in the slots, when there is any. -/
def QuerySlots.authentication (slots : QuerySlots) :
    Except SigV4Error (Option QueryAuthentication) :=
  if slots.sawAuth then do
    rejectIf (slots.value .algorithm ≠ some algorithmName) .invalidPresign
    let expires ← okOr (slots.value .expires) .invalidPresign
    let expires ← okOr (parseSeconds expires) .invalidPresign
    let signature ← okOr (slots.value .signature) .invalidPresign
    validateSignature signature
    let credential ← okOr (slots.value .credential) .invalidPresign
    let timestamp ← okOr (slots.value .date) .invalidPresign
    let signedHeaders ← okOr (slots.value .signedHeaders) .invalidPresign
    pure (some ⟨credential, timestamp, expires, signedHeaders, toAsciiLowercase signature⟩)
  else pure none

/-- The pairs of a query. -/
def pairsOf (query : Bytes) : List Bytes := query.splitOn '&'.toUInt8

def QueryAuthentication.parse (uri : Uri) : Except SigV4Error (Option QueryAuthentication) :=
  match uri.query with
  | none => pure none
  | some query => do
      let slots ← (pairsOf query).foldlM QuerySlots.visit ⟨fun _ => none, false⟩
      slots.authentication

/-- The pair stays in the target. -/
def retained (pair : Bytes) : Bool :=
  match percentDecode (splitPair pair).1 with
  | .ok name => !amzStart.isPrefixOf name
  | .error _ => false

def querySigningTarget (uri : Uri) : Except SigV4Error Bytes :=
  let kept := (pairsOf (uri.query.getD [])).filter retained
  if kept = [] then .ok uri.path
  else .ok (uri.path ++ '?'.toUInt8 :: ['&'.toUInt8].intercalate kept)

/-! ### What the signature covers -/

/-- The pair is one of the authentication parameters. -/
def isAuthPair (pair : Bytes) : Bool :=
  match percentDecode (splitPair pair).1 with
  | .ok name => (AuthParameter.ofName name).isSome
  | .error _ => false

/-- The pairs that are no authentication parameters. -/
def remaining (uri : Uri) : List Bytes :=
  (pairsOf (uri.query.getD [])).filter (!isAuthPair ·)

/-- The pairs in the query of a target. -/
def targetPairs (target : Bytes) : List Bytes :=
  match splitOnce '?'.toUInt8 target with
  | some (_, query) => pairsOf query
  | none => []

/-- Every pair that is no authentication parameter stands in the target, as it
is and in the order of the query. -/
def Covers (uri : Uri) : Prop :=
  ∃ target, querySigningTarget uri = .ok target ∧ remaining uri <+ targetPairs target

/-- A name that starts like an authentication parameter is one. -/
def OnlyKnownParameters (uri : Uri) : Prop :=
  ∀ pair ∈ pairsOf (uri.query.getD []), ∀ name, percentDecode (splitPair pair).1 = .ok name →
    amzStart <+: name → (AuthParameter.ofName name).isSome

instance decidableForallOk {ε α : Type} {result : Except ε α} {P : α → Prop} [DecidablePred P] :
    Decidable (∀ a, result = .ok a → P a) :=
  match result with
  | .ok a => decidable_of_iff (P a) (by simp)
  | .error _ => isTrue (by simp)

instance : DecidablePred OnlyKnownParameters := fun _ => inferInstanceAs (Decidable (∀ _ ∈ _, _))

theorem targetPairs_querySigningTarget (uri : Uri) :
    ∃ target, querySigningTarget uri = .ok target ∧
      targetPairs target = (pairsOf (uri.query.getD [])).filter retained := by
  rw [querySigningTarget]
  split
  case isTrue hnone =>
    refine ⟨uri.path, rfl, ?_⟩
    rw [hnone, targetPairs, splitOnce_eq_none.2 uri.path_closed]
  case isFalse hsome =>
    refine ⟨_, rfl, ?_⟩
    rw [targetPairs, splitOnce_eq_some.2 ⟨rfl, uri.path_closed⟩]
    refine List.splitOn_intercalate _ (fun pair hpair => ?_) hsome
    exact not_mem_of_mem_splitOn (List.mem_filter.1 hpair).1

/-- The parser has decoded the name of every pair. -/
theorem decodes_of_parse {uri : Uri} {auth : QueryAuthentication}
    (h : QueryAuthentication.parse uri = .ok (some auth)) :
    ∀ pair ∈ pairsOf (uri.query.getD []), ∃ name, percentDecode (splitPair pair).1 = .ok name := by
  unfold QueryAuthentication.parse at h
  cases hquery : uri.query with
  | none => simp [hquery, pure_ok] at h
  | some query =>
      rw [hquery] at h
      obtain ⟨slots, hslots, -⟩ := bind_eq_ok.1 h
      refine foldlM_history (I := fun passed _ => ∀ pair ∈ passed, ∃ name,
        percentDecode (splitPair pair).1 = .ok name) hslots ?_ (by simp)
      intro passed a b pair hpassed hvisit other hother
      rcases List.mem_append.1 hother with hother | hother
      · exact hpassed other hother
      · obtain rfl := List.mem_singleton.1 hother
        obtain ⟨name, hname, -⟩ := bind_eq_ok.1 hvisit
        exact ⟨name, hname⟩

/-- The names of the authentication parameters start alike. -/
theorem amzStart_of_ofName {name : Bytes} (h : (AuthParameter.ofName name).isSome) :
    amzStart <+: name := by
  obtain ⟨parameter, hparameter⟩ := Option.isSome_iff_exists.1 h
  have hname := List.find?_some hparameter
  rw [decide_eq_true_iff] at hname
  rw [← hname]
  cases parameter <;> decide

/-- When every name decodes, a pair that is kept is no authentication
parameter, and the converse is what a name that starts like one can break. -/
theorem retained_iff {pair name : Bytes} (hname : percentDecode (splitPair pair).1 = .ok name) :
    retained pair = true ↔ ¬ amzStart <+: name := by
  simp [retained, hname, ← List.isPrefixOf_iff_prefix]

theorem isAuthPair_iff {pair name : Bytes} (hname : percentDecode (splitPair pair).1 = .ok name) :
    isAuthPair pair = true ↔ (AuthParameter.ofName name).isSome := by
  simp [isAuthPair, hname]

/-- With only known parameters the target keeps exactly the other pairs. -/
theorem filter_retained_eq_remaining {uri : Uri} {auth : QueryAuthentication}
    (h : QueryAuthentication.parse uri = .ok (some auth)) (hknown : OnlyKnownParameters uri) :
    (pairsOf (uri.query.getD [])).filter retained = remaining uri := by
  refine List.filter_congr fun pair hpair => ?_
  obtain ⟨name, hname⟩ := decodes_of_parse h pair hpair
  rw [Bool.eq_iff_iff, retained_iff hname, Bool.not_eq_true', ← Bool.not_eq_true,
    isAuthPair_iff hname]
  exact not_congr ⟨hknown pair hpair name hname, amzStart_of_ofName⟩

theorem covers_iff {uri : Uri} {auth : QueryAuthentication}
    (h : QueryAuthentication.parse uri = .ok (some auth)) :
    Covers uri ↔ OnlyKnownParameters uri := by
  obtain ⟨target, htarget, hpairs⟩ := targetPairs_querySigningTarget uri
  constructor
  · rintro ⟨target', htarget', hsub⟩ pair hpair name hname hstart
    obtain rfl : target = target' := Except.ok.inj (htarget.symm.trans htarget')
    -- were it no parameter, it would have to be kept, and its name forbids that
    by_contra hunknown
    have hremaining : pair ∈ remaining uri := by
      refine List.mem_filter.2 ⟨hpair, ?_⟩
      rw [Bool.not_eq_true', ← Bool.not_eq_true, isAuthPair_iff hname]
      exact hunknown
    rw [hpairs] at hsub
    exact (retained_iff hname).1 (List.mem_filter.1 (hsub.subset hremaining)).2 hstart
  · intro hknown
    refine ⟨target, htarget, ?_⟩
    rw [hpairs, filter_retained_eq_remaining h hknown]

/-- Every pair of an accepted query is an authentication parameter or stands in
the signed target, exactly when no other name starts like a parameter; and
then the signed target determines the other pairs. -/
theorem presigned_covers_iff_only_known {uri₁ : Uri} {auth₁ : QueryAuthentication}
    (h₁ : QueryAuthentication.parse uri₁ = .ok (some auth₁)) :
    (Covers uri₁ ↔ OnlyKnownParameters uri₁) ∧
    (∀ uri₂ auth₂, QueryAuthentication.parse uri₂ = .ok (some auth₂) →
      OnlyKnownParameters uri₁ → OnlyKnownParameters uri₂ →
      querySigningTarget uri₁ = querySigningTarget uri₂ → remaining uri₁ = remaining uri₂) := by
  refine ⟨covers_iff h₁, ?_⟩
  intro uri₂ auth₂ h₂ hknown₁ hknown₂ hsame
  obtain ⟨target₁, htarget₁, hpairs₁⟩ := targetPairs_querySigningTarget uri₁
  obtain ⟨target₂, htarget₂, hpairs₂⟩ := targetPairs_querySigningTarget uri₂
  obtain rfl : target₁ = target₂ := by
    rw [htarget₁, htarget₂] at hsame
    exact Except.ok.inj hsame
  rw [← filter_retained_eq_remaining h₁ hknown₁, ← filter_retained_eq_remaining h₂ hknown₂,
    ← hpairs₁, ← hpairs₂]

/-- `name=value` for each of the six parameters, with a signature of zeros. -/
def samplePairs : List Bytes :=
  [(.algorithm, algorithmName), (.credential, utf8Bytes "c"), (.date, utf8Bytes "d"),
    (.expires, utf8Bytes "60"), (.signedHeaders, utf8Bytes "host"),
    (.signature, List.replicate 64 '0'.toUInt8)].map
    fun (parameter, value) => AuthParameter.name parameter ++ '='.toUInt8 :: value

/-- The path `/b` with the six parameters and more pairs on either side. -/
def sampleUri (before after : List Bytes) : Uri :=
  ⟨utf8Bytes "/b", some (['&'.toUInt8].intercalate (before ++ samplePairs ++ after)), by decide⟩

def sampleAuth : QueryAuthentication :=
  ⟨utf8Bytes "c", utf8Bytes "d", 60, utf8Bytes "host", List.replicate 64 '0'.toUInt8⟩

def plainPair : Bytes := utf8Bytes "k=v"

def fooPair : Bytes := amzStart ++ utf8Bytes "Foo=1"

/-- A parameter that no one knows is accepted and is not signed. -/
theorem unknown_amz_parameter_unsigned :
    QueryAuthentication.parse (sampleUri [] []) = .ok (some sampleAuth) ∧
    QueryAuthentication.parse (sampleUri [] [fooPair]) = .ok (some sampleAuth) ∧
    querySigningTarget (sampleUri [] [fooPair]) = querySigningTarget (sampleUri [] []) ∧
    (querySigningTarget (sampleUri [] [fooPair])).map targetPairs = .ok [] ∧
    remaining (sampleUri [] [fooPair]) = [fooPair] ∧ remaining (sampleUri [] []) = [] := by
  decide +kernel

/-- A plain parameter is covered, wherever it stands in the query. -/
theorem plain_parameter_covered :
    Covers (sampleUri [plainPair] []) ∧
      remaining (sampleUri [plainPair] []) = remaining (sampleUri [] [plainPair]) :=
  have hread : QueryAuthentication.parse (sampleUri [plainPair] []) = .ok (some sampleAuth) := by
    decide +kernel
  ⟨(presigned_covers_iff_only_known hread).1.2 (by decide +kernel),
    (presigned_covers_iff_only_known hread).2 _ sampleAuth (by decide +kernel) (by decide +kernel)
      (by decide +kernel) (by decide +kernel)⟩

end Maskura.Sigv4
