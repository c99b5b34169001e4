import Maskura.Pipeline.Registry
import Maskura.Policy.PluginRef
import Mathlib.Data.List.Sort

/-!
Pipelines from a signed file. A file has chains for the directions, for buckets, for
workspaces and for buckets of workspaces; the most specific chain of a request
replaces the others. Each of its steps refers to a component, and is bound to the
component of the catalog with the highest version among those that the reference
accepts.

Versions that differ in their build metadata alone have the same precedence. Such a
tie is an error when the components are different ones; when it is one component
under two versions, the order of the catalog decides which version the step shows.
-/

namespace Maskura.PipelineConfig

open Lib Policy Registry

inductive Direction
  | write
  | read
  deriving DecidableEq

def Direction.asStr : Direction → String
  | .write => "write"
  | .read => "read"

/-! ### Libraries -/

/-- The library of semantic versions, `ν` its versions and `ρ` its requirements. -/
structure Semver (ν ρ : Type) where
  /-- `Version::parse`. -/
  parse : Text → Option ν
  /-- Precedence does not look at build metadata, so that different versions can be
  equal in it. -/
  cmpPrecedence : ν → ν → Ordering
  /-- `VersionReq::matches`. -/
  satisfies : ρ → ν → Bool
  transCmp : Std.TransCmp cmpPrecedence

attribute [instance] Semver.transCmp

/-- What resolution calls. `κ` is the type of values in a TOML file. -/
structure Libraries (ν ρ κ : Type) where
  refs : RefLibraries ρ
  semver : Semver ν ρ
  /-- A configuration in canonical JSON. -/
  configText : κ → Except String String
  /-- `sha256_hex`. -/
  digest : String → String
  /-- `resolution_fingerprint`. -/
  fingerprint : Direction → List PipelineStep → Bool → Limits → String

/-! ### The file -/

structure StepDef (κ : Type) where
  plugin : PluginRef
  enabled : Bool
  grant : List String
  config : Option κ

structure DirectionPipeline (κ : Type) where
  description : Option String
  explicitPassthrough : Bool
  steps : List (StepDef κ)

structure ScopeOverride (κ : Type) where
  write : Option (DirectionPipeline κ)
  read : Option (DirectionPipeline κ)

structure WorkspaceScope (κ : Type) extends ScopeOverride κ where
  buckets : Table String (ScopeOverride κ)

structure IdentityComponent where
  plugin : PluginRef
  sha256 : Text
  configHash : Option String
  deriving DecidableEq

structure IdentitySection where
  version : ℕ
  components : List IdentityComponent

structure PipelineFile (κ : Type) extends ScopeOverride κ where
  buckets : Table String (ScopeOverride κ)
  workspaces : Table String (WorkspaceScope κ)
  identity : Option IdentitySection
  /-- `revision()`: the digest of the body, with what resolution does not read. -/
  revision : Except ConfigError String

section Model

variable {ν ρ κ : Type} [DecidableEq ν] (L : Libraries ν ρ κ)

def ScopeOverride.get (scope : ScopeOverride κ) : Direction → Option (DirectionPipeline κ)
  | .write => scope.write
  | .read => scope.read

/-- The chain of a bucket, when the scope has one. -/
def bucketChain (buckets : Table String (ScopeOverride κ)) (bucket : String) (direction : Direction) :
    Option (DirectionPipeline κ) :=
  (buckets.lookup bucket).bind fun scope => scope.get direction

/-- The chain of a workspace, that of its bucket first. -/
def workspaceChain (file : PipelineFile κ) (workspaceId bucket : String) (direction : Direction) :
    Option (DirectionPipeline κ) :=
  (file.workspaces.lookup workspaceId).bind fun workspace =>
    (bucketChain workspace.buckets bucket direction).or (workspace.get direction)

def PipelineFile.select (file : PipelineFile κ) (workspaceId bucket : String) (direction : Direction) :
    Except ConfigError (DirectionPipeline κ) :=
  match workspaceChain file workspaceId bucket direction with
  | some pipeline => .ok pipeline
  | none =>
      match bucketChain file.buckets bucket direction with
      | some pipeline => .ok pipeline
      | none => okOr (file.get direction) (.invalid ("no " ++ direction.asStr ++
          " pipeline is assigned for workspace " ++ L.refs.debug workspaceId.toList ++ " bucket " ++
          L.refs.debug bucket.toList))

def IdentitySection.get (identity : IdentitySection) (plugin : PluginRef) : Option IdentityComponent :=
  identity.components.find? fun component => component.plugin.display = plugin.display

def StepDef.configJson (step : StepDef κ) : Except ConfigError (Option String) :=
  match step.config with
  | none => .ok none
  | some config => do
      let rendered ← (L.configText config).mapError fun error =>
        .invalid ("step config is invalid: " ++ error)
      return some rendered

def stepConfigHash (step : StepDef κ) : Except ConfigError (Option String) := do
  let json ← step.configJson L
  return json.map L.digest

def configError : ConfigError → RegistryError
  | .invalid message => .coded "config.invalid" (ConfigError.invalid message).display
  | .approval message => .coded "policy.tampered" (ConfigError.approval message).display

/-! ### The catalog -/

/-- The version is accepted by the requirement of the reference. -/
def acceptsVersion (reference : PluginRef) (version : Text) : Bool :=
  match reference.version with
  | none => true
  | some requirement =>
      match L.semver.parse version with
      | none => false
      | some parsed =>
          match L.semver.parse requirement with
          | some exact => exact = parsed
          | none =>
              match parseVersionReq L.refs requirement with
              | .ok requirement => L.semver.satisfies requirement parsed
              | .error _ => false

/-- A component of the catalog. Its version was parsed when it was imported. -/
structure CatalogEntry (S : Semver ν ρ) where
  source : Option Text
  componentHash : Text
  name : Text
  version : Text
  worldVersion : String
  capabilities : PluginCapabilities
  parsed : ν
  parse_version : S.parse version = some parsed

/-- The components that were loaded, in the order of the registry. Imports have checked
their world, and one component has the same capabilities whenever it is imported. -/
structure LocalPluginCatalog (S : Semver ν ρ) where
  entries : List (CatalogEntry S)
  world_eq : ∀ entry ∈ entries, entry.worldVersion = transformerWorld
  capabilities_eq : ∀ entry ∈ entries, ∀ other ∈ entries,
    entry.componentHash = other.componentHash → entry.capabilities = other.capabilities

section FromRegistry

omit [DecidableEq ν]

variable {η : Type} {tools : Toolchain η} {s : RegistryState η} {plugin : Plugin η}

theorem exists_of_mem_catalogRecords (h : plugin ∈ s.catalogRecords) :
    ∃ id, s.plugins.lookup id = some plugin := by
  obtain ⟨id, -, hid⟩ := List.mem_filterMap.mp h
  exact ⟨id, hid⟩

def catalogEntry (S : Semver ν ρ) (plugin : Plugin η)
    (h : (S.parse plugin.info.version.toList).isSome) : CatalogEntry S :=
  ⟨plugin.catalogSource.map String.toList, plugin.componentHash.toList, plugin.catalogName.toList,
    plugin.info.version.toList, plugin.worldVersion, plugin.capabilities, _, (Option.some_get h).symm⟩

/-- `LocalPluginCatalog::from_registry`: what a registry keeps makes its plugins a catalog. -/
def LocalPluginCatalog.fromRegistry (S : Semver ν ρ) (hkept : Kept tools s)
    (hparse : ∀ version, tools.parseVersion version = .ok () → (S.parse version.toList).isSome) :
    LocalPluginCatalog S where
  entries := s.catalogRecords.pmap (catalogEntry S) fun plugin hplugin => by
    obtain ⟨id, hid⟩ := exists_of_mem_catalogRecords hplugin
    exact hparse _ (hkept.validated id plugin hid).1
  world_eq entry hentry := by
    obtain ⟨plugin, hplugin, rfl⟩ := List.mem_pmap.mp hentry
    obtain ⟨id, hid⟩ := exists_of_mem_catalogRecords hplugin
    exact (hkept.validated id plugin hid).2
  capabilities_eq entry hentry other hother heq := by
    obtain ⟨plugin, hplugin, rfl⟩ := List.mem_pmap.mp hentry
    obtain ⟨plugin', hplugin', rfl⟩ := List.mem_pmap.mp hother
    obtain ⟨id, hid⟩ := exists_of_mem_catalogRecords hplugin
    obtain ⟨id', hid'⟩ := exists_of_mem_catalogRecords hplugin'
    -- both are pinned to the one entry that the cache has for the digest
    obtain ⟨cached, hcached, hcaps⟩ := hkept.consistent.pinned id plugin hid
    obtain ⟨cached', hcached', hcaps'⟩ := hkept.consistent.pinned id' plugin' hid'
    have hhash : plugin.componentHash = plugin'.componentHash := String.toList_injective heq
    rw [hhash] at hcached
    cases hcached.symm.trans hcached'
    exact hcaps.symm.trans hcaps'

end FromRegistry

/-- A reference without a source means the components from files. -/
def sourceMatches (reference : PluginRef) (source : Option Text) : Bool :=
  match reference.source with
  | some wanted => source = some wanted
  | none => source.all fun source => "file://".toList.isPrefixOf source

/-- A name can be the digest of the component. -/
def nameMatches (reference : PluginRef) (entry : CatalogEntry L.semver) : Bool :=
  if isDigest reference.name then entry.componentHash = reference.name
  else entry.name = reference.name

def candidates (entries : List (CatalogEntry L.semver)) (reference : PluginRef) :
    List (CatalogEntry L.semver) :=
  ((entries.filter fun entry => sourceMatches reference entry.source).filter
    (nameMatches L reference)).filter fun entry => acceptsVersion L reference entry.version

/-- The order of the candidates: the highest version first. -/
def NotLower (entry other : CatalogEntry L.semver) : Prop :=
  (L.semver.cmpPrecedence other.parsed entry.parsed).isLE

instance : DecidableRel (NotLower L) := fun entry other =>
  inferInstanceAs (Decidable ((L.semver.cmpPrecedence other.parsed entry.parsed).isLE = true))

def lookup (entries : List (CatalogEntry L.semver)) (reference : PluginRef) :
    Except RegistryError (CatalogEntry L.semver) :=
  match (candidates L entries reference).insertionSort (NotLower L) with
  | [] => .error (.coded "wasm.init" ("component " ++ String.ofList reference.display ++
      " is not available locally"))
  | selected :: rest =>
      if ∃ candidate ∈ rest, L.semver.cmpPrecedence candidate.parsed selected.parsed = .eq ∧
          candidate.componentHash ≠ selected.componentHash then
        .error (.coded "config.invalid" ("component " ++ String.ofList reference.display ++
          " resolves ambiguously to multiple digests"))
      else .ok selected

def sensitiveGrant (grants : List String) : SensitiveGrant :=
  ⟨"public_key_pem" ∈ grants, "entropy_seed" ∈ grants, "stable_key" ∈ grants,
    "stable_fields" ∈ grants⟩

/-- The step with the component and the configuration. -/
def pipelineStep {S : Semver ν ρ} (entry : CatalogEntry S) (step : StepDef κ)
    (configJson : Option String) : PipelineStep :=
  ⟨String.ofList entry.componentHash, none, step.enabled, some (String.ofList entry.version),
    configJson, entry.capabilities, sensitiveGrant step.grant⟩

def toPipelineStep (entry : CatalogEntry L.semver) (step : StepDef κ) :
    Except RegistryError PipelineStep := do
  rejectIf (entry.worldVersion ≠ transformerWorld)
    (.coded "config.invalid" ("component " ++ String.ofList step.plugin.display ++
      " uses unsupported world " ++ L.refs.debug entry.worldVersion.toList))
  let configJson ← (step.configJson L).mapError configError
  return pipelineStep entry step configJson

/-! ### The resolver -/

/-- The configuration of a step is the pinned one. -/
def verifyConfigHash (plugin : PluginRef) (step : StepDef κ) :
    Option String → Except RegistryError Unit
  | none => .ok ()
  | some pinned => do
      let actual ← (stepConfigHash L step).mapError configError
      rejectIf (actual ≠ some pinned)
        (.coded "config.invalid" ("identity config_hash for " ++ String.ofList plugin.display ++
          " does not match the step configuration"))

def verifyIdentityEntry (identity : IdentitySection) (plugin : PluginRef) (componentHash : Text)
    (step : StepDef κ) : Except RegistryError Unit := do
  let entry ← okOr (identity.get plugin)
    (.coded "config.invalid" ("plugin " ++ String.ofList plugin.display ++ " has no identity entry"))
  rejectIf (entry.sha256 ≠ componentHash)
    (.coded "config.invalid" ("identity digest for " ++ String.ofList plugin.display ++ " is " ++
      String.ofList entry.sha256 ++ " but the resolved component is " ++ String.ofList componentHash))
  verifyConfigHash L plugin step entry.configHash

/-- The identity section of a file, when it has one. -/
def verifyIdentity (identity : Option IdentitySection) (componentHash : Text) (step : StepDef κ) :
    Except RegistryError Unit :=
  match identity with
  | none => .ok ()
  | some identity => verifyIdentityEntry L identity step.plugin componentHash step

structure SignedTomlPipelineResolver where
  file : PipelineFile κ
  revision : String
  catalog : LocalPluginCatalog L.semver
  limits : Limits

namespace SignedTomlPipelineResolver

variable {L} (resolver : SignedTomlPipelineResolver L)

def validateStep (step : StepDef κ) : Except RegistryError Unit := do
  let entry ← lookup L resolver.catalog.entries step.plugin
  verifyIdentity L resolver.file.identity entry.componentHash step
  let _ ← toPipelineStep L entry step

def validatePipeline (label : String) (pipeline : DirectionPipeline κ) : Except RegistryError Unit := do
  let enabled := pipeline.steps.countP fun step => step.enabled
  rejectIf (resolver.limits.maxPlugins < enabled)
    (.coded "config.invalid" (label ++ " has " ++ toString enabled ++ " enabled steps; maximum is " ++
      toString resolver.limits.maxPlugins))
  pipeline.steps.forM resolver.validateStep

def validateChain (label : String) : Option (DirectionPipeline κ) → Except RegistryError Unit
  | none => .ok ()
  | some pipeline => resolver.validatePipeline label pipeline

/-- Both chains of a scope. -/
def validateScope (label : String) (scope : ScopeOverride κ) : Except RegistryError Unit := do
  resolver.validateChain (label ++ "write") scope.write
  resolver.validateChain (label ++ "read") scope.read

def validateBuckets (label : String) (buckets : Table String (ScopeOverride κ)) :
    Except RegistryError Unit :=
  buckets.entries.forM fun bucket =>
    resolver.validateScope (label ++ "buckets." ++ bucket.1 ++ ".") bucket.2

def validateAll : Except RegistryError Unit := do
  resolver.validateScope "" resolver.file.toScopeOverride
  resolver.validateBuckets "" resolver.file.buckets
  resolver.file.workspaces.entries.forM fun workspace => do
    resolver.validateScope ("workspaces." ++ workspace.1 ++ ".") workspace.2.toScopeOverride
    resolver.validateBuckets ("workspaces." ++ workspace.1 ++ ".") workspace.2.buckets

variable (L) in
def newWithRevision (file : PipelineFile κ) (catalog : LocalPluginCatalog L.semver) (limits : Limits)
    (revision : String) : Except RegistryError (SignedTomlPipelineResolver L) := do
  let resolver : SignedTomlPipelineResolver L := ⟨file, revision, catalog, limits⟩
  resolver.validateAll
  return resolver

variable (L) in
def new (file : PipelineFile κ) (catalog : LocalPluginCatalog L.semver) (limits : Limits) :
    Except RegistryError (SignedTomlPipelineResolver L) := do
  let revision ← file.revision.mapError configError
  newWithRevision L file catalog limits revision

/-- One round of the loop of `resolve`. -/
def resolveStep (step : StepDef κ) : Except RegistryError PipelineStep := do
  let entry ← lookup L resolver.catalog.entries step.plugin
  toPipelineStep L entry step

def resolve (workspaceId bucket : String) (direction : Direction) :
    Except RegistryError PipelineResolution := do
  let pipeline ← (resolver.file.select L workspaceId bucket direction).mapError configError
  let steps ← pipeline.steps.mapM resolver.resolveStep
  return ⟨⟨resolver.revision, L.fingerprint direction steps pipeline.explicitPassthrough
    resolver.limits, none⟩, steps, none, pipeline.explicitPassthrough, resolver.limits⟩

end SignedTomlPipelineResolver

/-! ### Which component a reference finds -/

variable {L}

/-- A component of the catalog that the reference accepts. -/
structure Available (L : Libraries ν ρ κ) (entries : List (CatalogEntry L.semver))
    (reference : PluginRef) (entry : CatalogEntry L.semver) : Prop where
  mem : entry ∈ entries
  source : sourceMatches reference entry.source
  name : nameMatches L reference entry
  accepted : acceptsVersion L reference entry.version

/-- No component that the reference accepts has a higher version. -/
structure Highest (L : Libraries ν ρ κ) (entries : List (CatalogEntry L.semver))
    (reference : PluginRef) (entry : CatalogEntry L.semver) : Prop
    extends Available L entries reference entry where
  not_lower : ∀ other, Available L entries reference other → NotLower L entry other

variable {entries others : List (CatalogEntry L.semver)} {reference : PluginRef}
  {entry other : CatalogEntry L.semver}

theorem mem_candidates : entry ∈ candidates L entries reference ↔ Available L entries reference entry := by
  simp only [candidates, List.mem_filter]
  exact ⟨fun ⟨⟨⟨hmem, hsource⟩, hname⟩, haccepted⟩ => ⟨hmem, hsource, hname, haccepted⟩,
    fun h => ⟨⟨⟨h.mem, h.source⟩, h.name⟩, h.accepted⟩⟩

theorem Available.of_subset (h : Available L entries reference entry) (hsub : entries ⊆ others) :
    Available L others reference entry := ⟨hsub h.mem, h.source, h.name, h.accepted⟩

theorem Highest.of_perm (h : Highest L entries reference entry) (hperm : entries.Perm others) :
    Highest L others reference entry :=
  ⟨h.toAvailable.of_subset hperm.subset, fun other hother =>
    h.not_lower other (hother.of_subset hperm.symm.subset)⟩

omit [DecidableEq ν] in
/-- The comparison the other way. -/
theorem notLower_iff : NotLower L entry other ↔
    L.semver.cmpPrecedence entry.parsed other.parsed = .gt ∨
      L.semver.cmpPrecedence entry.parsed other.parsed = .eq := by
  have hswap := @Std.OrientedCmp.eq_swap _ L.semver.cmpPrecedence _ other.parsed entry.parsed
  rw [NotLower, hswap]
  cases L.semver.cmpPrecedence entry.parsed other.parsed <;> decide

instance : Std.Total (NotLower L) where
  total a b := by
    rw [notLower_iff, NotLower]
    cases L.semver.cmpPrecedence a.parsed b.parsed <;> decide

instance : IsTrans (CatalogEntry L.semver) (NotLower L) where
  trans _ _ _ hab hbc := Std.TransCmp.isLE_trans hbc hab

omit [DecidableEq ν] in
/-- Two versions none of which is lower are equal in precedence. -/
theorem notLower_antisymm (h : NotLower L entry other) (h' : NotLower L other entry) :
    L.semver.cmpPrecedence other.parsed entry.parsed = .eq := by
  rw [NotLower] at h
  rw [notLower_iff] at h'
  revert h h'
  cases L.semver.cmpPrecedence other.parsed entry.parsed <;> decide

omit [DecidableEq ν] in
theorem notLower_of_eq (h : L.semver.cmpPrecedence other.parsed entry.parsed = .eq) :
    NotLower L other entry := notLower_iff.mpr (.inr h)

/-- Nothing is found, or the candidates in their order begin with a highest one. -/
theorem sorted_candidates (entries : List (CatalogEntry L.semver)) (reference : PluginRef) :
    (candidates L entries reference).insertionSort (NotLower L) = [] ∧
        (∀ entry, ¬ Available L entries reference entry) ∨
      ∃ selected rest, (candidates L entries reference).insertionSort (NotLower L) = selected :: rest ∧
        Highest L entries reference selected ∧
        ∀ other, Available L entries reference other ↔ other = selected ∨ other ∈ rest := by
  have hmem (other : CatalogEntry L.semver) :
      other ∈ (candidates L entries reference).insertionSort (NotLower L) ↔
        Available L entries reference other := (List.mem_insertionSort _).trans mem_candidates
  cases hsorted : (candidates L entries reference).insertionSort (NotLower L) with
  | nil =>
      refine .inl ⟨rfl, fun entry hentry => ?_⟩
      rw [← hmem, hsorted] at hentry
      cases hentry
  | cons selected rest =>
      have hpairwise := List.pairwise_insertionSort (NotLower L) (candidates L entries reference)
      rw [hsorted, List.pairwise_cons] at hpairwise
      simp only [hsorted, List.mem_cons] at hmem
      refine .inr ⟨selected, rest, rfl, ⟨(hmem selected).mp (.inl rfl), fun other hother => ?_⟩,
        fun other => (hmem other).symm⟩
      obtain rfl | hrest := (hmem other).mpr hother
      · exact (total_of (NotLower L) _ _).elim id id
      · exact hpairwise.1 other hrest

/-- What is found is a highest version, and all highest versions are one component. -/
theorem lookup_eq_ok (h : lookup L entries reference = .ok entry) :
    Highest L entries reference entry ∧
      ∀ other, Highest L entries reference other → other.componentHash = entry.componentHash := by
  obtain ⟨hnil, -⟩ | ⟨selected, rest, hcons, hhighest, hmem⟩ := sorted_candidates entries reference
  · rw [lookup, hnil] at h
    cases h
  · rw [lookup, hcons] at h
    dsimp only at h
    split at h
    · cases h
    · next hunique =>
      cases h
      refine ⟨hhighest, fun other hother => ?_⟩
      obtain rfl | hrest := (hmem other).mp hother.toAvailable
      · rfl
      · by_contra hne
        exact hunique ⟨other, hrest, notLower_antisymm (hhighest.not_lower other hother.toAvailable)
          (hother.not_lower _ hhighest.toAvailable), hne⟩

/-- A component is found when one is available and all highest versions are the same. -/
theorem exists_lookup_eq_ok (havailable : Available L entries reference entry)
    (hunique : ∀ selected other, Highest L entries reference selected →
      Highest L entries reference other → other.componentHash = selected.componentHash) :
    ∃ selected, lookup L entries reference = .ok selected := by
  obtain ⟨-, hnone⟩ | ⟨selected, rest, hcons, hhighest, hmem⟩ := sorted_candidates entries reference
  · exact absurd havailable (hnone entry)
  · refine ⟨selected, ?_⟩
    rw [lookup, hcons]
    refine if_neg ?_
    rintro ⟨other, hrest, heq, hne⟩
    have hother : Highest L entries reference other :=
      ⟨(hmem other).mpr (.inr hrest), fun third hthird =>
        trans_of (NotLower L) (notLower_of_eq heq) (hhighest.not_lower third hthird)⟩
    exact hne (hunique selected other hhighest hother)

/-- The same components in another order: the same component is found. -/
theorem lookup_perm (hperm : entries.Perm others) (h : lookup L entries reference = .ok entry) :
    ∃ found, lookup L others reference = .ok found ∧ found.componentHash = entry.componentHash ∧
      Highest L entries reference found := by
  obtain ⟨hhighest, hunique⟩ := lookup_eq_ok h
  obtain ⟨found, hfound⟩ := exists_lookup_eq_ok (hhighest.of_perm hperm).toAvailable
    fun selected other hselected hother => (hunique other (hother.of_perm hperm.symm)).trans
      (hunique selected (hselected.of_perm hperm.symm)).symm
  have hback := (lookup_eq_ok hfound).1.of_perm hperm.symm
  exact ⟨found, hfound, hunique found hback, hback⟩

/-- Of the highest versions the one that was loaded first is found. -/
theorem lookup_cons (hfirst : Highest L (entry :: entries) reference entry)
    (h : lookup L (entry :: entries) reference = .ok other) : other = entry := by
  have hcandidates : candidates L (entry :: entries) reference =
      entry :: candidates L entries reference := by
    simp only [candidates, List.filter_cons, hfirst.source, hfirst.name, hfirst.accepted, if_true]
  have hsorted : (candidates L (entry :: entries) reference).insertionSort (NotLower L) =
      entry :: (candidates L entries reference).insertionSort (NotLower L) := by
    rw [hcandidates, List.insertionSort_cons_of_forall_rel]
    exact fun third hthird => hfirst.not_lower third
      ((mem_candidates.mp hthird).of_subset (List.subset_cons_self _ _))
  rw [lookup, hsorted] at h
  dsimp only at h
  split at h
  · cases h
  · cases h
    rfl

/-! ### Steps -/

/-- The step is bound to a highest version of the component it refers to. -/
def Bound (L : Libraries ν ρ κ) (entries : List (CatalogEntry L.semver)) (step : StepDef κ)
    (resolved : PipelineStep) : Prop :=
  ∃ entry config, Highest L entries step.plugin entry ∧ step.configJson L = .ok config ∧
    resolved = pipelineStep entry step config

/-- The digest of the component and the pinned digest of the configuration are those of
the identity entry for the reference. -/
def Identified (L : Libraries ν ρ κ) (identity : IdentitySection) (step : StepDef κ)
    (resolved : PipelineStep) : Prop :=
  ∃ entry, identity.get step.plugin = some entry ∧
    resolved.componentHash = String.ofList entry.sha256 ∧
    ∀ pinned, entry.configHash = some pinned → resolved.configJson.map L.digest = some pinned

variable {step : StepDef κ} {resolved : PipelineStep}

omit [DecidableEq ν] in
theorem toPipelineStep_eq_ok : toPipelineStep L entry step = .ok resolved ↔
    entry.worldVersion = transformerWorld ∧
      ∃ config, step.configJson L = .ok config ∧ resolved = pipelineStep entry step config := by
  simp only [toPipelineStep, bind_eq_ok, rejectIf_eq_ok, mapError_eq_ok, exists_const, not_not,
    pure_eq_ok, eq_comm (a := resolved)]

omit [DecidableEq ν] in
theorem stepConfigHash_of_configJson {config : Option String} (h : step.configJson L = .ok config) :
    stepConfigHash L step = .ok (config.map L.digest) := by
  rw [stepConfigHash, h]
  rfl

omit [DecidableEq ν] in
theorem identified_of_verify {identity : IdentitySection} {config : Option String}
    (hconfig : step.configJson L = .ok config)
    (h : verifyIdentityEntry L identity step.plugin entry.componentHash step = .ok ()) :
    Identified L identity step (pipelineStep entry step config) := by
  simp only [verifyIdentityEntry, bind_eq_ok, okOr_eq_ok, rejectIf_eq_ok, exists_const, not_not] at h
  obtain ⟨pinned, hpinned, hdigest, hhash⟩ := h
  refine ⟨pinned, hpinned, congrArg String.ofList hdigest.symm, fun text htext => ?_⟩
  rw [htext] at hhash
  simp only [verifyConfigHash, stepConfigHash_of_configJson hconfig, bind_eq_ok, mapError_eq_ok,
    rejectIf_eq_ok, not_not, Except.ok.injEq, exists_eq_left'] at hhash
  exact hhash

namespace SignedTomlPipelineResolver

variable {resolver other : SignedTomlPipelineResolver L}

theorem validateStep_eq_ok : resolver.validateStep step = .ok () ↔
    ∃ entry, lookup L resolver.catalog.entries step.plugin = .ok entry ∧
      verifyIdentity L resolver.file.identity entry.componentHash step = .ok () ∧
      ∃ config, step.configJson L = .ok config := by
  simp only [validateStep, bind_eq_ok, toPipelineStep_eq_ok, Unique.exists_iff,
    PUnit.default_eq_unit, pure_ok, and_true]
  refine exists_congr fun entry => and_congr_right fun hlookup => and_congr_right fun _ => ?_
  have hworld := resolver.catalog.world_eq entry (lookup_eq_ok hlookup).1.mem
  exact ⟨fun ⟨_, _, config, hconfig, _⟩ => ⟨config, hconfig⟩,
    fun ⟨config, hconfig⟩ => ⟨_, hworld, config, hconfig, rfl⟩⟩

theorem resolveStep_eq_ok : resolver.resolveStep step = .ok resolved ↔
    ∃ entry config, lookup L resolver.catalog.entries step.plugin = .ok entry ∧
      step.configJson L = .ok config ∧ resolved = pipelineStep entry step config := by
  simp only [resolveStep, bind_eq_ok, toPipelineStep_eq_ok]
  constructor
  · rintro ⟨entry, hlookup, -, config, hconfig, rfl⟩
    exact ⟨entry, config, hlookup, hconfig, rfl⟩
  · rintro ⟨entry, config, hlookup, hconfig, rfl⟩
    exact ⟨entry, hlookup, resolver.catalog.world_eq entry (lookup_eq_ok hlookup).1.mem, config,
      hconfig, rfl⟩

theorem bound_of_resolveStep (h : resolver.resolveStep step = .ok resolved) :
    Bound L resolver.catalog.entries step resolved := by
  obtain ⟨entry, config, hlookup, hconfig, rfl⟩ := resolveStep_eq_ok.mp h
  exact ⟨entry, config, (lookup_eq_ok hlookup).1, hconfig, rfl⟩

/-- A step that was validated is resolved. -/
theorem exists_resolveStep (h : resolver.validateStep step = .ok ()) :
    ∃ resolved, resolver.resolveStep step = .ok resolved := by
  obtain ⟨entry, hlookup, -, config, hconfig⟩ := validateStep_eq_ok.mp h
  exact ⟨_, resolveStep_eq_ok.mpr ⟨entry, config, hlookup, hconfig, rfl⟩⟩

theorem identified_of_resolveStep {identity : IdentitySection}
    (hidentity : resolver.file.identity = some identity) (h : resolver.validateStep step = .ok ())
    (hresolved : resolver.resolveStep step = .ok resolved) : Identified L identity step resolved := by
  obtain ⟨entry, hlookup, hverified, -⟩ := validateStep_eq_ok.mp h
  obtain ⟨entry', config, hlookup', hconfig, rfl⟩ := resolveStep_eq_ok.mp hresolved
  cases hlookup.symm.trans hlookup'
  rw [hidentity] at hverified
  exact identified_of_verify hconfig hverified

/-! ### The same components in another order -/

/-- A resolver for the same file and the same components. -/
structure Reordered (resolver other : SignedTomlPipelineResolver L) : Prop where
  file : other.file = resolver.file
  limits : other.limits = resolver.limits
  entries : other.catalog.entries.Perm resolver.catalog.entries

theorem Reordered.validateStep (hr : Reordered resolver other)
    (h : resolver.validateStep step = .ok ()) : other.validateStep step = .ok () := by
  obtain ⟨entry, hlookup, hverified, hconfig⟩ := validateStep_eq_ok.mp h
  obtain ⟨found, hfound, hhash, -⟩ := lookup_perm hr.entries.symm hlookup
  refine validateStep_eq_ok.mpr ⟨found, hfound, ?_, hconfig⟩
  rw [hr.file, hhash]
  exact hverified

/-- The step can differ in the version alone. -/
theorem Reordered.resolveStep (hr : Reordered resolver other)
    (h : resolver.resolveStep step = .ok resolved) :
    ∃ found, Highest L resolver.catalog.entries step.plugin found ∧
      other.resolveStep step = .ok { resolved with version := some (String.ofList found.version) } := by
  obtain ⟨entry, config, hlookup, hconfig, rfl⟩ := resolveStep_eq_ok.mp h
  obtain ⟨found, hfound, hhash, hhighest⟩ := lookup_perm hr.entries.symm hlookup
  have hcaps := resolver.catalog.capabilities_eq found hhighest.mem entry (lookup_eq_ok hlookup).1.mem
    hhash
  refine ⟨found, hhighest, resolveStep_eq_ok.mpr ⟨found, config, hfound, hconfig, ?_⟩⟩
  rw [pipelineStep, pipelineStep, hhash, hcaps]

/-! ### Chains -/

variable {pipeline : DirectionPipeline κ}

/-- The chain passed the validation of the file. -/
def Validated (resolver : SignedTomlPipelineResolver L) (pipeline : DirectionPipeline κ) : Prop :=
  pipeline.steps.countP (fun step => step.enabled) ≤ resolver.limits.maxPlugins ∧
    ∀ step ∈ pipeline.steps, resolver.validateStep step = .ok ()

theorem validatePipeline_eq_ok {label : String} :
    resolver.validatePipeline label pipeline = .ok () ↔ resolver.Validated pipeline := by
  simp only [validatePipeline, bind_eq_ok, rejectIf_eq_ok, exists_const, not_lt, forM_eq_ok, Validated]

theorem validateChain_eq_ok {label : String} {chain : Option (DirectionPipeline κ)} :
    resolver.validateChain label chain = .ok () ↔ ∀ pipeline, chain = some pipeline →
      resolver.Validated pipeline := by
  cases chain with
  | none => simp [validateChain]
  | some pipeline => simp [validateChain, validatePipeline_eq_ok]

theorem validateScope_eq_ok {label : String} {scope : ScopeOverride κ} :
    resolver.validateScope label scope = .ok () ↔ ∀ direction pipeline,
      scope.get direction = some pipeline → resolver.Validated pipeline := by
  simp only [validateScope, bind_eq_ok, Unique.exists_iff, PUnit.default_eq_unit,
    validateChain_eq_ok]
  constructor
  · rintro ⟨hwrite, hread⟩ (_ | _)
    · exact hwrite
    · exact hread
  · intro h
    exact ⟨h .write, h .read⟩

theorem validateBuckets_eq_ok {label : String} {buckets : Table String (ScopeOverride κ)} :
    resolver.validateBuckets label buckets = .ok () ↔ ∀ bucket direction pipeline,
      bucketChain buckets bucket direction = some pipeline → resolver.Validated pipeline := by
  simp only [validateBuckets, forM_eq_ok, validateScope_eq_ok, bucketChain, Option.bind_eq_some_iff,
    Table.lookup_eq_some]
  constructor
  · rintro h bucket direction pipeline ⟨scope, hmem, hget⟩
    exact h ⟨bucket, scope⟩ hmem direction pipeline hget
  · rintro h ⟨bucket, scope⟩ hmem direction pipeline hget
    exact h bucket direction pipeline ⟨scope, hmem, hget⟩

/-- The chains of a file: those of its own, of its buckets, of its workspaces and of the
buckets of these. -/
structure ValidatedFile (resolver : SignedTomlPipelineResolver L) : Prop where
  default : ∀ direction pipeline, resolver.file.get direction = some pipeline →
    resolver.Validated pipeline
  bucket : ∀ bucket direction pipeline,
    bucketChain resolver.file.buckets bucket direction = some pipeline → resolver.Validated pipeline
  workspace : ∀ id workspace, resolver.file.workspaces.lookup id = some workspace →
    (∀ direction pipeline, workspace.get direction = some pipeline → resolver.Validated pipeline) ∧
    ∀ bucket direction pipeline, bucketChain workspace.buckets bucket direction = some pipeline →
      resolver.Validated pipeline

theorem validateAll_eq_ok : resolver.validateAll = .ok () ↔ resolver.ValidatedFile := by
  simp only [validateAll, bind_eq_ok, Unique.exists_iff, PUnit.default_eq_unit, validateScope_eq_ok,
    validateBuckets_eq_ok, forM_eq_ok]
  constructor
  · rintro ⟨hdefault, hbucket, hworkspace⟩
    exact ⟨hdefault, hbucket, fun id workspace hlookup =>
      hworkspace ⟨id, workspace⟩ (Table.lookup_eq_some.mp hlookup)⟩
  · intro h
    exact ⟨h.default, h.bucket, fun workspace hmem =>
      h.workspace workspace.1 workspace.2 (Table.lookup_eq_some.mpr hmem)⟩

/-- Whatever is selected was validated. -/
theorem ValidatedFile.select (h : resolver.ValidatedFile) {workspaceId bucket : String}
    {direction : Direction}
    (hselect : resolver.file.select L workspaceId bucket direction = .ok pipeline) :
    resolver.Validated pipeline := by
  rw [PipelineFile.select] at hselect
  split at hselect
  · next found hfound =>
    cases hselect
    obtain ⟨workspace, hlookup, hchain⟩ := Option.bind_eq_some_iff.mp hfound
    obtain ⟨hown, hbuckets⟩ := h.workspace workspaceId workspace hlookup
    obtain hbucket | ⟨-, hget⟩ := Option.or_eq_some_iff.mp hchain
    · exact hbuckets bucket direction _ hbucket
    · exact hown direction _ hget
  · split at hselect
    · next found hfound =>
      cases hselect
      exact h.bucket bucket direction _ hfound
    · exact h.default direction _ ((okOr_eq_ok _ _ _).mp hselect)

theorem Reordered.validated (hr : Reordered resolver other) (h : resolver.Validated pipeline) :
    other.Validated pipeline := by
  refine ⟨?_, fun step hstep => hr.validateStep (h.2 step hstep)⟩
  rw [hr.limits]
  exact h.1

theorem Reordered.validatedFile (hr : Reordered resolver other) (h : resolver.ValidatedFile) :
    other.ValidatedFile := by
  refine ⟨fun direction pipeline hget => ?_, fun bucket direction pipeline hchain => ?_,
    fun id workspace hlookup => ?_⟩
  · rw [hr.file] at hget
    exact hr.validated (h.default direction pipeline hget)
  · rw [hr.file] at hchain
    exact hr.validated (h.bucket bucket direction pipeline hchain)
  · rw [hr.file] at hlookup
    obtain ⟨hown, hbuckets⟩ := h.workspace id workspace hlookup
    exact ⟨fun direction pipeline hget => hr.validated (hown direction pipeline hget),
      fun bucket direction pipeline hchain => hr.validated (hbuckets bucket direction pipeline hchain)⟩

theorem new_eq_ok {file : PipelineFile κ} {catalog : LocalPluginCatalog L.semver} {limits : Limits} :
    new L file catalog limits = .ok resolver ↔ ∃ revision, file.revision = .ok revision ∧
      resolver = ⟨file, revision, catalog, limits⟩ ∧ resolver.ValidatedFile := by
  simp only [new, newWithRevision, bind_eq_ok, Unique.exists_iff, PUnit.default_eq_unit,
    mapError_eq_ok, validateAll_eq_ok, pure_eq_ok]
  refine exists_congr fun revision => and_congr_right fun _ => ?_
  constructor
  · rintro ⟨hvalid, rfl⟩
    exact ⟨rfl, hvalid⟩
  · rintro ⟨rfl, hvalid⟩
    exact ⟨hvalid, rfl⟩

/-! ### Resolution -/

variable {workspaceId bucket : String} {direction : Direction} {resolution : PipelineResolution}

theorem resolve_eq_ok : resolver.resolve workspaceId bucket direction = .ok resolution ↔
    ∃ pipeline steps, resolver.file.select L workspaceId bucket direction = .ok pipeline ∧
      List.Forall₂ (fun step resolved => resolver.resolveStep step = .ok resolved) pipeline.steps steps ∧
      resolution = ⟨⟨resolver.revision, L.fingerprint direction steps pipeline.explicitPassthrough
        resolver.limits, none⟩, steps, none, pipeline.explicitPassthrough, resolver.limits⟩ := by
  simp only [resolve, bind_eq_ok, mapError_eq_ok, mapM_eq_ok, pure_eq_ok, eq_comm (a := resolution),
    exists_and_left]

/-- A chain that was validated has steps. -/
theorem Validated.exists_steps (h : resolver.Validated pipeline) :
    ∃ steps, List.Forall₂ (fun step resolved => resolver.resolveStep step = .ok resolved)
      pipeline.steps steps := by
  obtain ⟨-, hsteps⟩ := h
  generalize pipeline.steps = chain at hsteps ⊢
  induction chain with
  | nil => exact ⟨[], .nil⟩
  | cons step rest ih =>
      obtain ⟨resolved, hresolved⟩ := exists_resolveStep (hsteps step List.mem_cons_self)
      obtain ⟨steps, hrest⟩ := ih fun step hmem => hsteps step (List.mem_cons_of_mem _ hmem)
      exact ⟨resolved :: steps, .cons hresolved hrest⟩

/-- What resolution is to do for a workspace, a bucket and a direction. -/
structure ResolvesExactly (resolver : SignedTomlPipelineResolver L) (workspaceId bucket : String)
    (direction : Direction) : Prop where
  /-- It fails only if nothing can be selected. -/
  fails : ∀ error, resolver.resolve workspaceId bucket direction = .error error →
    ∃ cause, resolver.file.select L workspaceId bucket direction = .error cause
  /-- One step for each step of the chain, bound to a component it refers to. -/
  bound : ∀ resolution pipeline, resolver.resolve workspaceId bucket direction = .ok resolution →
    resolver.file.select L workspaceId bucket direction = .ok pipeline →
    List.Forall₂ (Bound L resolver.catalog.entries) pipeline.steps resolution.steps
  /-- The components are those of the identity section. -/
  identified : ∀ resolution pipeline identity,
    resolver.resolve workspaceId bucket direction = .ok resolution →
    resolver.file.select L workspaceId bucket direction = .ok pipeline →
    resolver.file.identity = some identity →
    List.Forall₂ (Identified L identity) pipeline.steps resolution.steps
  /-- The same components in another order give the same steps and the same fingerprint. -/
  orderless : ∀ resolution, resolver.resolve workspaceId bucket direction = .ok resolution →
    ∀ catalog : LocalPluginCatalog L.semver, catalog.entries.Perm resolver.catalog.entries →
    ∃ other again, new L resolver.file catalog resolver.limits = .ok other ∧
      other.resolve workspaceId bucket direction = .ok again ∧
      again.steps = resolution.steps ∧ again.locator.fingerprint = resolution.locator.fingerprint

/-- Among the components that a step of the chain may be bound to, the highest versions
are written alike. -/
def Untied (L : Libraries ν ρ κ) (file : PipelineFile κ) (entries : List (CatalogEntry L.semver))
    (workspaceId bucket : String) (direction : Direction) : Prop :=
  ∀ pipeline, file.select L workspaceId bucket direction = .ok pipeline → ∀ step ∈ pipeline.steps,
    ∀ entry other, Highest L entries step.plugin entry → Highest L entries step.plugin other →
      entry.version = other.version

/-- Without ties every order of the catalog gives the same steps. -/
theorem Reordered.steps (hr : Reordered resolver other) {chain : List (StepDef κ)}
    {steps : List PipelineStep}
    (huntied : ∀ step ∈ chain, ∀ entry found, Highest L resolver.catalog.entries step.plugin entry →
      Highest L resolver.catalog.entries step.plugin found → entry.version = found.version)
    (h : List.Forall₂ (fun step resolved => resolver.resolveStep step = .ok resolved) chain steps) :
    List.Forall₂ (fun step resolved => other.resolveStep step = .ok resolved) chain steps := by
  induction h with
  | nil => exact .nil
  | @cons step resolved chain steps hstep _ ih =>
      refine .cons ?_ (ih fun step hmem => huntied step (List.mem_cons_of_mem _ hmem))
      obtain ⟨found, hfound, hother⟩ := hr.resolveStep hstep
      obtain ⟨entry, config, hhighest, -, rfl⟩ := bound_of_resolveStep hstep
      rw [hother, ← huntied step List.mem_cons_self entry found hhighest hfound]
      rfl

omit [DecidableEq ν] in
/-- The catalog with one of its components loaded first. -/
theorem exists_loadedFirst {catalog : LocalPluginCatalog L.semver} {entry : CatalogEntry L.semver}
    (h : entry ∈ catalog.entries) :
    ∃ (first : LocalPluginCatalog L.semver) (rest : List (CatalogEntry L.semver)),
      first.entries = entry :: rest ∧ first.entries.Perm catalog.entries := by
  obtain ⟨before, after, hsplit⟩ := List.append_of_mem h
  have hperm : (entry :: (before ++ after)).Perm catalog.entries := by
    rw [hsplit]
    exact List.perm_middle.symm
  exact ⟨⟨entry :: (before ++ after), fun other hother => catalog.world_eq other (hperm.subset hother),
    fun one hone other hother => catalog.capabilities_eq one (hperm.subset hone) other
      (hperm.subset hother)⟩, before ++ after, rfl, hperm⟩

/-- The order of the catalog shows in a tie: whichever highest version is loaded first
is the one that the step has. -/
theorem version_of_orderless (h : ResolvesExactly resolver workspaceId bucket direction)
    (hselect : resolver.file.select L workspaceId bucket direction = .ok pipeline)
    (hresolve : resolver.resolve workspaceId bucket direction = .ok resolution)
    {before after : List (StepDef κ)} (hsteps : pipeline.steps = before ++ step :: after)
    {entry : CatalogEntry L.semver} (hentry : Highest L resolver.catalog.entries step.plugin entry) :
    ∃ resolved, resolution.steps[before.length]? = some resolved ∧
      resolved.version = some (String.ofList entry.version) := by
  obtain ⟨first, rest, hfirst, hperm⟩ := exists_loadedFirst hentry.mem
  obtain ⟨other, again, hnew, hagain, hsame, -⟩ := h.orderless resolution hresolve first hperm
  obtain ⟨revision, -, rfl, -⟩ := new_eq_ok.mp hnew
  obtain ⟨pipeline', steps, hselect', hforall, rfl⟩ := resolve_eq_ok.mp hagain
  cases hselect.symm.trans hselect'
  rw [hsteps] at hforall
  obtain ⟨us, resolved, vs, rfl, hbefore, hstep, -⟩ := forall₂_split hforall
  refine ⟨resolved, ?_, ?_⟩
  · rw [← hsame, List.getElem?_append_right hbefore.length_eq.ge, hbefore.length_eq, Nat.sub_self]
    rfl
  · obtain ⟨found, config, hlookup, -, rfl⟩ := resolveStep_eq_ok.mp hstep
    change lookup L first.entries step.plugin = .ok found at hlookup
    rw [hfirst] at hlookup hperm
    rw [lookup_cons (hentry.of_perm hperm.symm) hlookup]
    rfl

/-- An accepted file is resolved exactly where the highest versions that its chain can be
bound to are written alike; the order of the catalog is what can go wrong. -/
theorem resolvesExactly_iff {file : PipelineFile κ} {catalog : LocalPluginCatalog L.semver}
    {limits : Limits} (hnew : new L file catalog limits = .ok resolver) (workspaceId bucket : String)
    (direction : Direction) :
    ResolvesExactly resolver workspaceId bucket direction ↔
      Untied L file catalog.entries workspaceId bucket direction := by
  obtain ⟨revision, hrevision, rfl, hvalid⟩ := new_eq_ok.mp hnew
  constructor
  · intro h pipeline hselect step hstep entry other hentry hother
    obtain ⟨before, after, hsteps⟩ := List.append_of_mem hstep
    obtain ⟨steps, hforall⟩ := (hvalid.select hselect).exists_steps
    have hresolve := resolve_eq_ok.mpr ⟨pipeline, steps, hselect, hforall, rfl⟩
    obtain ⟨resolved, hat, hversion⟩ := version_of_orderless h hselect hresolve hsteps hentry
    obtain ⟨resolved', hat', hversion'⟩ := version_of_orderless h hselect hresolve hsteps hother
    cases hat.symm.trans hat'
    exact String.ofList_injective (Option.some.inj (hversion.symm.trans hversion'))
  · intro huntied
    refine ⟨fun error herror => ?_, fun resolution pipeline hresolve hselect => ?_,
      fun resolution pipeline identity hresolve hselect hidentity => ?_,
      fun resolution hresolve catalog' hperm => ?_⟩
    · cases hselect : file.select L workspaceId bucket direction with
      | error cause => exact ⟨cause, rfl⟩
      | ok pipeline =>
          obtain ⟨steps, hforall⟩ := (hvalid.select hselect).exists_steps
          cases herror.symm.trans (resolve_eq_ok.mpr ⟨pipeline, steps, hselect, hforall, rfl⟩)
    · obtain ⟨pipeline', steps, hselect', hforall, rfl⟩ := resolve_eq_ok.mp hresolve
      cases hselect.symm.trans hselect'
      exact hforall.imp fun step resolved => bound_of_resolveStep
    · obtain ⟨pipeline', steps, hselect', hforall, rfl⟩ := resolve_eq_ok.mp hresolve
      cases hselect.symm.trans hselect'
      have hmem := (List.forall₂_and_left pipeline.steps steps).mpr
        ⟨fun step (hstep : step ∈ pipeline.steps) => hstep, hforall⟩
      refine hmem.imp ?_
      rintro step resolved ⟨hstep, hresolved⟩
      exact identified_of_resolveStep hidentity ((hvalid.select hselect).2 step hstep) hresolved
    · have hr : Reordered (⟨file, revision, catalog, limits⟩ : SignedTomlPipelineResolver L)
          ⟨file, revision, catalog', limits⟩ := ⟨rfl, rfl, hperm⟩
      obtain ⟨pipeline, steps, hselect, hforall, rfl⟩ := resolve_eq_ok.mp hresolve
      have hsteps := hr.steps (huntied pipeline hselect) hforall
      exact ⟨_, _, new_eq_ok.mpr ⟨revision, hrevision, rfl, hr.validatedFile hvalid⟩,
        resolve_eq_ok.mpr ⟨pipeline, steps, hselect, hsteps, rfl⟩, rfl, rfl⟩

end SignedTomlPipelineResolver

end Model

/-! ### Two components, and one component under two versions -/

/-- `2.0.0`, and `1.0.0` with or without build metadata. -/
def parseOne (version : Text) : Option (ℕ × Text) :=
  match version with
  | ['2', '.', '0', '.', '0'] => some (2, [])
  | ['1', '.', '0', '.', '0'] => some (1, [])
  | '1' :: '.' :: '0' :: '.' :: '0' :: '+' :: build =>
      if build ≠ [] ∧ build.all Char.isAlphanum then some (1, build) else none
  | _ => none

def sampleSemver : Semver (ℕ × Text) Unit where
  parse := parseOne
  cmpPrecedence := compareOn Prod.fst
  satisfies _ _ := true
  transCmp := inferInstance

/-- The fingerprints of enabled steps with the default limits, by their versions. -/
def sampleFingerprint (steps : List PipelineStep) : String :=
  match steps.map PipelineStep.version with
  | [some "2.0.0", some "1.0.0"] => "68f705d939a780698377b5b9d63145a216af05dcdfb37f2412235e1968d903cd"
  | [some "1.0.0+a"] => "2e3c61916db28c44ee34279544c977f5bb362843d606ffc78b0923665fc2d7e2"
  | _ => "43bcf5b181142d0c51e0682f662839c32f2dace0d7af833ccf15589dc741501c"

def sampleLibraries : Libraries (ℕ × Text) Unit Unit where
  refs := plainLibraries
  semver := sampleSemver
  configText _ := .error "unused"
  digest _ := ""
  fingerprint _ steps _ _ := sampleFingerprint steps

def defaultLimits : Limits :=
  ⟨⟨16777216, 8388608, 5368709120, 5368709120, 32, 1048576, 16, 1000000000⟩, 300⟩

def componentN (source digest : String) (version : Text) {parsed : ℕ × Text}
    (h : parseOne version = some parsed) : CatalogEntry sampleSemver :=
  ⟨some source.toList, digest.toList, ['n'], version, transformerWorld, ⟨false⟩, parsed, h⟩

def stepN (version : Option Text) : StepDef Unit := ⟨⟨none, ['n'], version⟩, true, [], none⟩

/-- A file with a chain for writes. -/
def fileN (steps : List (StepDef Unit)) : PipelineFile Unit :=
  ⟨⟨some ⟨none, false, steps⟩, none⟩, ∅, ∅, none, .ok "r1"⟩

def olderN : CatalogEntry sampleSemver := componentN "file:///a" emptyDigest "1.0.0".toList rfl

/-- Its component has a custom section. -/
def newerN : CatalogEntry sampleSemver :=
  componentN "file:///b" "8136530ed29313ba896a55d727eef1e59399d9b06da9a0e71654a8c40a1860b4"
    "2.0.0".toList rfl

def firstN : CatalogEntry sampleSemver := componentN "file:///a" emptyDigest "1.0.0+a".toList rfl

def secondN : CatalogEntry sampleSemver := componentN "file:///b" emptyDigest "1.0.0+b".toList rfl

def pairCatalog : LocalPluginCatalog sampleSemver where
  entries := [olderN, newerN]
  world_eq := by simp [olderN, newerN, componentN]
  capabilities_eq := by simp [olderN, newerN, componentN]

def tiedCatalog : LocalPluginCatalog sampleSemver where
  entries := [firstN, secondN]
  world_eq := by simp [firstN, secondN, componentN]
  capabilities_eq := by simp [firstN, secondN, componentN]

open SignedTomlPipelineResolver

/-- Any version of `n`, and then just the first one. -/
theorem twoVersions_resolve_exactly :
    ∃ resolver, new sampleLibraries (fileN [stepN none, stepN (some "1.0.0".toList)]) pairCatalog
        defaultLimits = .ok resolver ∧
      ((resolver.resolve "w" "b" .write).map fun resolution =>
        resolution.steps.map PipelineStep.version) = .ok [some "2.0.0", some "1.0.0"] ∧
      ResolvesExactly resolver "w" "b" .write := by
  have hnew : new sampleLibraries (fileN [stepN none, stepN (some "1.0.0".toList)]) pairCatalog
      defaultLimits = .ok ⟨_, "r1", pairCatalog, defaultLimits⟩ := rfl
  refine ⟨_, hnew, rfl, (resolvesExactly_iff hnew "w" "b" .write).mpr ?_⟩
  have hmem {entry : CatalogEntry sampleSemver} (h : entry ∈ pairCatalog.entries) :
      entry = olderN ∨ entry = newerN := by simpa [pairCatalog] using h
  intro pipeline hselect step hstep entry other hentry hother
  cases hselect
  obtain rfl | rfl : step = stepN none ∨ step = stepN (some "1.0.0".toList) := by simpa using hstep
  · have hnewer {entry : CatalogEntry sampleSemver}
        (h : Highest sampleLibraries pairCatalog.entries (stepN none).plugin entry) :
        entry = newerN := by
      obtain rfl | rfl := hmem h.mem
      · have hlower := h.not_lower newerN
          ⟨List.mem_cons_of_mem _ List.mem_cons_self, rfl, rfl, rfl⟩
        exact absurd hlower Bool.false_ne_true
      · rfl
    rw [hnewer hentry, hnewer hother]
  · have holder {entry : CatalogEntry sampleSemver} (h : Highest sampleLibraries pairCatalog.entries
        (stepN (some "1.0.0".toList)).plugin entry) : entry = olderN := by
      obtain rfl | rfl := hmem h.mem
      · rfl
      · exact absurd h.accepted (by decide)
    rw [holder hentry, holder hother]

theorem eq_of_mem_tied {entry : CatalogEntry sampleSemver} (h : entry ∈ tiedCatalog.entries) :
    entry = firstN ∨ entry = secondN := by
  simpa [tiedCatalog] using h

theorem highest_tied {entry : CatalogEntry sampleSemver} (h : entry ∈ tiedCatalog.entries) :
    Highest sampleLibraries tiedCatalog.entries (stepN none).plugin entry := by
  have hentry := eq_of_mem_tied h
  refine ⟨⟨h, ?_, ?_, ?_⟩, fun other hother => ?_⟩
  · obtain rfl | rfl := hentry <;> rfl
  · obtain rfl | rfl := hentry <;> rfl
  · obtain rfl | rfl := hentry <;> rfl
  · obtain rfl | rfl := eq_of_mem_tied hother.mem <;> obtain rfl | rfl := hentry <;> rfl

/-- Which of the two versions the step shows depends on which was loaded first. -/
theorem tiedVersions_follow_order :
    ∃ resolver, new sampleLibraries (fileN [stepN none]) tiedCatalog defaultLimits = .ok resolver ∧
      ¬ ResolvesExactly resolver "w" "b" .write := by
  refine ⟨⟨fileN [stepN none], "r1", tiedCatalog, defaultLimits⟩, rfl, fun h => ?_⟩
  have hselect : (fileN [stepN none]).select sampleLibraries "w" "b" .write =
      .ok ⟨none, false, [stepN none]⟩ := rfl
  have hresolve : (⟨fileN [stepN none], "r1", tiedCatalog, defaultLimits⟩ :
      SignedTomlPipelineResolver sampleLibraries).resolve "w" "b" .write = .ok _ := rfl
  have hfirst : firstN ∈ tiedCatalog.entries := List.mem_cons_self
  have hsecond : secondN ∈ tiedCatalog.entries := List.mem_cons_of_mem _ List.mem_cons_self
  have hsteps : [stepN none] = [] ++ stepN none :: [] := rfl
  obtain ⟨resolved, hat, hversion⟩ :=
    version_of_orderless h hselect hresolve hsteps (highest_tied hfirst)
  obtain ⟨resolved', hat', hversion'⟩ :=
    version_of_orderless h hselect hresolve hsteps (highest_tied hsecond)
  cases hat.symm.trans hat'
  exact absurd (hversion.symm.trans hversion') (by decide +kernel)

end Maskura.PipelineConfig
