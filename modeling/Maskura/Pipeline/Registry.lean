import Maskura.Lib.Pool
import Maskura.Lib.Table
import Maskura.Pipeline.Session

/-!
The registry of plugins: a catalog with an order, and a cache of compiled
components that is bounded by weight. A component of the catalog is pinned in the
cache; the others leave it when it is too heavy, the least recently used first.

Each section of code that holds the registry's lock is one request. A call is a
program of such requests: it looks a component up, compiles it without the lock
and then inserts it. Calls run side by side, and between two requests of one call
anything may happen.
-/

namespace Maskura.Registry

open Lib

structure PluginCapabilities where
  prefixSafeForRead : Bool
  deriving DecidableEq

structure PluginInfo where
  id : String
  name : String
  version : String
  enabled : Bool
  description : String
  deriving DecidableEq

inductive RegistryError
  | message (text : String)
  /-- `MaskuraError`. -/
  | coded (code text : String)
  deriving DecidableEq

def usizeMax : ℕ := 18446744073709551615

/-- `DEFAULT_GUEST_MEMORY_BYTES`. -/
def defaultGuestMemoryBytes : ℕ := 64 * 1024 * 1024

/-- What the registry calls: the digest of a component, the compiler, the parser of
versions, random identifiers. `η` is the type of compiled engines. -/
structure Toolchain (η : Type) where
  /-- `hex::encode(Sha256::digest(bytes))`. -/
  digest : List UInt8 → String
  /-- `FilterEngine::with_fuel`. -/
  compile : List UInt8 → Except String η
  validateTransformerWorld : η → Except String Unit
  guestMemoryLimit : η → ℕ
  /-- `with_fuel` changes no limit but the fuel. -/
  guestMemoryLimit_eq : ∀ engine, guestMemoryLimit engine = defaultGuestMemoryBytes
  parseVersion : String → Except String Unit
  /-- The identifiers in the order in which they are drawn. -/
  uuid : ℕ → String
  uuid_injective : Function.Injective uuid
  /-- What `\x7b:?\x7d` prints. -/
  debug : String → String

variable {η : Type}

structure Plugin (η : Type) where
  info : PluginInfo
  catalogSource : Option String
  catalogName : String
  worldVersion : String
  componentHash : String
  capabilities : PluginCapabilities
  engine : η

structure CacheEntry (η : Type) where
  engine : η
  capabilities : PluginCapabilities
  bytes : List UInt8
  weight : ℕ

structure RegistryState (η : Type) where
  plugins : Table String (Plugin η)
  order : List String
  engines : Table String (CacheEntry η)
  cacheOrder : List String
  cacheWeight : ℕ
  cacheMaxWeight : ℕ
  /-- How many identifiers were drawn. -/
  drawn : ℕ
  /-- The most components that were cached at once. The source does not keep it. -/
  mostCached : ℕ

/-- A registry without plugins. -/
def newRegistry (cacheMaxWeight : ℕ) : RegistryState η := ⟨∅, [], ∅, [], 0, cacheMaxWeight, 0, 0⟩

/-! ### Under the lock -/

namespace RegistryState

def touchCacheEntry (s : RegistryState η) (hash : String) : RegistryState η :=
  { s with cacheOrder := s.cacheOrder.erase hash ++ [hash] }

/-- A plugin of the catalog has the component. -/
def Referenced (s : RegistryState η) (hash : String) : Prop :=
  ∃ plugin ∈ s.plugins.values, plugin.componentHash = hash

instance (s : RegistryState η) (hash : String) : Decidable (s.Referenced hash) :=
  inferInstanceAs (Decidable (∃ plugin ∈ s.plugins.values, plugin.componentHash = hash))

def victim (s : RegistryState η) : Option String :=
  s.cacheOrder.find? fun hash => ¬ s.Referenced hash ∧ hash ∈ s.engines

def dropEngine (s : RegistryState η) (hash : String) : RegistryState η :=
  { s with
    cacheOrder := s.cacheOrder.erase hash
    engines := s.engines.erase hash
    cacheWeight := s.cacheWeight - ((s.engines.lookup hash).elim 0 CacheEntry.weight) }

/-- The loop of `evict_unreferenced_engines`; a round takes one component out of the
order. -/
def evictLoop : ℕ → RegistryState η → RegistryState η
  | 0, s => s
  | rounds + 1, s =>
      if s.cacheMaxWeight < s.cacheWeight then
        match s.victim with
        | some hash => evictLoop rounds (s.dropEngine hash)
        | none => s
      else s

def evictUnreferencedEngines (s : RegistryState η) : RegistryState η :=
  evictLoop s.cacheOrder.length s

/-- `cached_engine`. -/
def cachedEngine (s : RegistryState η) (hash : String) :
    Option (η × PluginCapabilities) × RegistryState η :=
  match s.engines.lookup hash with
  | none => (none, s)
  | some entry =>
      (some (entry.engine, entry.capabilities),
        if hash ∈ s.cacheOrder then s.touchCacheEntry hash else s)

/-- The weight is added with `saturating_add`. -/
def addEngine (s : RegistryState η) (hash : String) (entry : CacheEntry η) : RegistryState η :=
  { s with
    cacheWeight := min (s.cacheWeight + entry.weight) usizeMax
    engines := s.engines.insert hash entry
    mostCached := max s.mostCached (s.engines.insert hash entry).keys.length }

def addPlugin (s : RegistryState η) (plugin : Plugin η) : RegistryState η :=
  { s with
    plugins := s.plugins.insert plugin.info.id plugin
    order := s.order ++ [plugin.info.id]
    drawn := s.drawn + 1 }

def alreadyRegistered (hash : String) : String :=
  "component " ++ hash ++ " is already registered with different capabilities"

/-- `insert_engine`. -/
def insertEngine (s : RegistryState η) (hash : String) (entry : CacheEntry η) :
    Except RegistryError η × RegistryState η :=
  match s.engines.lookup hash with
  | some existing =>
      if existing.capabilities ≠ entry.capabilities then
        (.error (.coded "config.invalid" (alreadyRegistered hash)), s)
      else (.ok existing.engine, s.touchCacheEntry hash)
  | none =>
      (.ok entry.engine, ((s.addEngine hash entry).touchCacheEntry hash).evictUnreferencedEngines)

/-- What an import knows when it takes the lock. -/
structure Registration (η : Type) where
  name : String
  version : String
  worldVersion : String
  source : Option String
  hash : String
  /-- The engine found or compiled before, with the component. -/
  entry : CacheEntry η

/-- The locked section of `import_with_catalog_metadata`. -/
def register (tools : Toolchain η) (s : RegistryState η) (reg : Registration η) :
    Except RegistryError PluginInfo × RegistryState η :=
  let info : PluginInfo := ⟨tools.uuid s.drawn, reg.name, reg.version, true, ""⟩
  let finish (s : RegistryState η) (engine : η) : Except RegistryError PluginInfo × RegistryState η :=
    (.ok info, ((s.touchCacheEntry reg.hash).addPlugin ⟨info, reg.source, reg.name, reg.worldVersion,
      reg.hash, reg.entry.capabilities, engine⟩).evictUnreferencedEngines)
  match s.engines.lookup reg.hash with
  | some existing =>
      if existing.capabilities ≠ reg.entry.capabilities then
        (.error (.message (alreadyRegistered reg.hash)), { s with drawn := s.drawn + 1 })
      else finish s existing.engine
  | none => finish (s.addEngine reg.hash reg.entry) reg.entry.engine

/-- `plugins.get_mut(id)` with a change of the plugin's information. -/
def changeInfo (s : RegistryState η) (id : String) (change : PluginInfo → PluginInfo) :
    Option PluginInfo × RegistryState η :=
  match s.plugins.lookup id with
  | none => (none, s)
  | some plugin =>
      (some (change plugin.info),
        { s with plugins := s.plugins.modify id fun plugin => { plugin with info := change plugin.info } })

def setEnabled (s : RegistryState η) (id : String) (enabled : Bool) :
    Option PluginInfo × RegistryState η :=
  s.changeInfo id fun info => { info with enabled := enabled }

def setName (s : RegistryState η) (id name : String) : Option PluginInfo × RegistryState η :=
  s.changeInfo id fun info => { info with name := name }

def remove (s : RegistryState η) (id : String) : Bool × RegistryState η :=
  let removed : RegistryState η :=
    { s with order := s.order.filter (· ≠ id), plugins := s.plugins.erase id }
  if id ∈ s.plugins then (true, removed.evictUnreferencedEngines) else (false, removed)

/-- The identifiers that pass the test, each once, behind those that are there. -/
def pushNew (keep : String → Bool) (order ids : List String) : List String :=
  ids.foldl (fun order id => if keep id ∧ id ∉ order then order ++ [id] else order) order

def reorder (s : RegistryState η) (ids : List String) : RegistryState η :=
  { s with order := pushNew (fun _ => true) (pushNew (· ∈ s.plugins) [] ids) s.order }

/-- The plugins that `catalog_records` reads. -/
def catalogRecords (s : RegistryState η) : List (Plugin η) := s.order.filterMap s.plugins.lookup

end RegistryState

/-! ### Calls -/

/-- What a call asks for between taking the lock and releasing it; `load` asks a
component source, without the lock. -/
inductive Request (η : Type)
  | cachedEngine (hash : String)
  | register (reg : RegistryState.Registration η)
  | insertEngine (hash : String) (entry : CacheEntry η)
  | setEnabled (id : String) (enabled : Bool)
  | setName (id name : String)
  | remove (id : String)
  | reorder (ids : List String)
  | load (hash : String)

abbrev Answer : Request η → Type
  | .cachedEngine _ => Option (η × PluginCapabilities)
  | .register _ => Except RegistryError PluginInfo
  | .insertEngine _ _ => Except RegistryError η
  | .setEnabled _ _ => Option PluginInfo
  | .setName _ _ => Option PluginInfo
  | .remove _ => Bool
  | .reorder _ => Unit
  | .load _ => Except RegistryError (List UInt8)

/-- The environment chooses what a component source loads. -/
def handle (tools : Toolchain η) :
    Prog.Handler (Request η) Answer (RegistryState η) (Except RegistryError (List UInt8))
  | s, .cachedEngine hash, _ => s.cachedEngine hash
  | s, .register reg, _ => s.register tools reg
  | s, .insertEngine hash entry, _ => s.insertEngine hash entry
  | s, .setEnabled id enabled, _ => s.setEnabled id enabled
  | s, .setName id name, _ => s.setName id name
  | s, .remove id, _ => s.remove id
  | s, .reorder ids, _ => ((), s.reorder ids)
  | s, .load _, loaded => (loaded, s)

abbrev Program (η α : Type) := ExceptT RegistryError (Prog (Request η) Answer) α

def request (r : Request η) : Program η (Answer r) := ExceptT.lift (Prog.request r)

def transformerWorld : String := "maskura:plugin/transformer@0.1.0"

/-- The arguments of an import. -/
structure Import where
  name : String
  componentBytes : List UInt8
  capabilities : PluginCapabilities
  source : Option String
  version : String
  worldVersion : String

structure SensitiveGrant where
  publicKeyPem : Bool
  entropySeed : Bool
  stableKey : Bool
  stableFields : Bool
  deriving DecidableEq

def SensitiveGrant.none : SensitiveGrant := ⟨false, false, false, false⟩

/-- A step of a resolved pipeline. -/
structure PipelineStep where
  componentHash : String
  pluginVersionId : Option String
  enabled : Bool
  version : Option String
  configJson : Option String
  capabilities : PluginCapabilities
  sensitiveGrant : SensitiveGrant
  deriving DecidableEq

/-- The limits of a session, with the time it may take. -/
structure Limits extends Pipeline.PipelineLimits where
  maxWallTime : ℕ
  deriving DecidableEq

structure PipelineLocator where
  revision : String
  fingerprint : String
  assignmentId : Option String
  deriving DecidableEq

structure PipelineResolution where
  locator : PipelineLocator
  steps : List PipelineStep
  policyGeneration : Option ℕ
  explicitPassthrough : Bool
  limits : Limits
  deriving DecidableEq

/-- Every limit is greater than zero, the slack apart. -/
def Limits.Valid (limits : Limits) : Prop :=
  limits.maxIntermediateRecordBytes ≠ 0 ∧ limits.maxPluginFinishBytes ≠ 0 ∧
    limits.maxInputBytes ≠ 0 ∧ limits.maxOutputBytes ≠ 0 ∧ limits.maxExpansionFactor ≠ 0 ∧
    limits.maxPlugins ≠ 0 ∧ limits.maxCumulativeFuel ≠ 0 ∧ limits.maxWallTime ≠ 0

instance (limits : Limits) : Decidable limits.Valid := instDecidableAnd

def PipelineResolution.requiresPassthrough (resolution : PipelineResolution) : Bool :=
  resolution.steps.all (fun step => !step.enabled) && !resolution.explicitPassthrough

section Programs

variable (tools : Toolchain η)

/-- The engine an import brings along: the one in the cache, or a new one. -/
def candidate (args : Import) (hash : String) : Program η η := do
  match ← request (.cachedEngine hash) with
  | some (engine, registered) =>
      if registered ≠ args.capabilities then
        throw (.message (RegistryState.alreadyRegistered hash))
      else return engine
  | none => do
      let engine ← ExceptT.mk (pure ((tools.compile args.componentBytes).mapError .message))
      ExceptT.mk (pure ((tools.validateTransformerWorld engine).mapError .message))
      return engine

def importWithCatalogMetadata (args : Import) : Program η PluginInfo := do
  ExceptT.mk (pure ((tools.parseVersion args.version).mapError fun error =>
    .message ("plugin " ++ tools.debug args.name ++ " has invalid version " ++
      tools.debug args.version ++ ": " ++ error)))
  if args.worldVersion ≠ transformerWorld then
    throw (.message ("plugin " ++ tools.debug args.name ++ " uses unsupported world " ++
      tools.debug args.worldVersion ++ "; expected " ++ tools.debug transformerWorld))
  else do
    let hash := tools.digest args.componentBytes
    let engine ← candidate tools args hash
    let info ← request (.register ⟨args.name, args.version, args.worldVersion, args.source, hash,
      ⟨engine, args.capabilities, args.componentBytes, tools.guestMemoryLimit engine⟩⟩)
    ExceptT.mk (pure info)

def engineFor (step : PipelineStep) : Program η η := do
  match ← request (.cachedEngine step.componentHash) with
  | some (engine, registered) =>
      if registered ≠ step.capabilities then
        throw (.coded "config.invalid" (RegistryState.alreadyRegistered step.componentHash))
      else return engine
  | none => do
      let loaded ← request (.load step.componentHash)
      let bytes ← ExceptT.mk (pure loaded)
      if tools.digest bytes ≠ step.componentHash then
        throw (.coded "wasm.init" ("component " ++ step.componentHash ++ " digest mismatch after fetch"))
      else do
        let engine ← ExceptT.mk (pure ((tools.compile bytes).mapError fun error =>
          .coded "wasm.init" ("component " ++ step.componentHash ++ " failed to compile: " ++ error)))
        let inserted ← request (.insertEngine step.componentHash
          ⟨engine, step.capabilities, bytes, tools.guestMemoryLimit engine⟩)
        ExceptT.mk (pure inserted)

/-- The engines of a snapshot, none for a step that is disabled. -/
def snapshotFor (resolution : PipelineResolution) : Program η (List (Option η)) := do
  if resolution.requiresPassthrough then
    throw (.coded "config.invalid" "empty pipeline requires explicit pass-through")
  else if ¬ resolution.limits.Valid then
    throw (.coded "config.invalid" "pipeline limits except expansion slack must be greater than zero")
  else
    resolution.steps.mapM fun step =>
      if step.enabled then some <$> engineFor tools step else pure none

inductive Call
  | importPlugin (args : Import)
  | remove (id : String)
  | reorder (ids : List String)
  | setEnabled (id : String) (enabled : Bool)
  | setName (id name : String)
  | cachedEngine (hash : String)
  | snapshotFor (resolution : PipelineResolution)

/-- A call, without its result. -/
def Call.program : Call → Prog (Request η) Answer Unit
  | .importPlugin args => do let _ ← (importWithCatalogMetadata tools args).run
  | .remove id => do let _ ← Prog.request (.remove id)
  | .reorder ids => do let _ ← Prog.request (.reorder ids)
  | .setEnabled id enabled => do let _ ← Prog.request (.setEnabled id enabled)
  | .setName id name => do let _ ← Prog.request (.setName id name)
  | .cachedEngine hash => do let _ ← Prog.request (.cachedEngine hash)
  | .snapshotFor resolution => do let _ ← (Registry.snapshotFor tools resolution).run

/-- A client makes one call after the other. -/
def client : List Call → Prog (Request η) Answer Unit
  | [] => pure ()
  | call :: calls => do
      call.program tools
      client calls

/-- Clients on one registry, interleaved where its lock is free. -/
def registrySystem {τ : Type} [DecidableEq τ] (clients : τ → List Call) (cacheMaxWeight : ℕ) :
    System (Pool τ (Request η) Answer (RegistryState η) Unit)
      (τ × Except RegistryError (List UInt8)) :=
  Pool.system (handle tools) (fun i => client tools (clients i)) (newRegistry cacheMaxWeight)

end Programs

/-! ### Consistency -/

/-- The weight is within the budget, or everything that is left is pinned. -/
def RegistryState.Bounded (s : RegistryState η) : Prop :=
  s.cacheWeight ≤ s.cacheMaxWeight ∨ ∀ hash ∈ s.engines, s.Referenced hash

/-- What is kept of a component has the digest it is kept under, and the weight that
every engine has. -/
structure CacheEntry.Sound (tools : Toolchain η) (hash : String) (entry : CacheEntry η) : Prop where
  digest : tools.digest entry.bytes = hash
  weight : entry.weight = defaultGuestMemoryBytes

/-- The catalog and the cache are in step. The weight is the sum for as long as the sum
cannot leave `usize`, that is for `2 ^ 38 - 1` components. -/
structure Consistent (tools : Toolchain η) (s : RegistryState η) : Prop where
  order_nodup : s.order.Nodup
  mem_order : ∀ id, id ∈ s.order ↔ id ∈ s.plugins
  cacheOrder_nodup : s.cacheOrder.Nodup
  mem_cacheOrder : ∀ hash, hash ∈ s.cacheOrder ↔ hash ∈ s.engines
  sound : ∀ hash entry, s.engines.lookup hash = some entry → entry.Sound tools hash
  weight : s.mostCached * defaultGuestMemoryBytes ≤ usizeMax →
    s.cacheWeight = Table.total (fun _ entry => entry.weight) s.engines
  pinned : ∀ id plugin, s.plugins.lookup id = some plugin →
    ∃ entry, s.engines.lookup plugin.componentHash = some entry ∧
      entry.capabilities = plugin.capabilities

/-- Every identifier in the catalog was drawn. -/
def Drawn (tools : Toolchain η) (s : RegistryState η) : Prop :=
  ∀ id ∈ s.plugins, ∃ n < s.drawn, tools.uuid n = id

/-- What an import has to check of a component. -/
def Checked (tools : Toolchain η) (version worldVersion : String) : Prop :=
  tools.parseVersion version = .ok () ∧ worldVersion = transformerWorld

/-- Every plugin of the catalog has passed the checks. -/
def Validated (tools : Toolchain η) (s : RegistryState η) : Prop :=
  ∀ id plugin, s.plugins.lookup id = some plugin → Checked tools plugin.info.version plugin.worldVersion

/-- What every locked section keeps. -/
structure Kept (tools : Toolchain η) (s : RegistryState η) : Prop where
  consistent : Consistent tools s
  drawn : Drawn tools s
  validated : Validated tools s
  bounded : s.Bounded

variable {tools : Toolchain η} {s : RegistryState η} {hash : String} {entry : CacheEntry η}

namespace RegistryState

theorem referenced_iff :
    s.Referenced hash ↔ ∃ id plugin, s.plugins.lookup id = some plugin ∧ plugin.componentHash = hash := by
  simp only [Referenced, Table.mem_values]
  constructor
  · rintro ⟨plugin, ⟨id, hlookup⟩, hhash⟩
    exact ⟨id, plugin, hlookup, hhash⟩
  · rintro ⟨id, plugin, hlookup, hhash⟩
    exact ⟨plugin, ⟨id, hlookup⟩, hhash⟩

/-! ### Recency -/

theorem mem_touched {order : List String} {hash other : String} :
    other ∈ order.erase hash ++ [hash] ↔ other = hash ∨ other ∈ order := by
  by_cases h : other = hash
  · simp [h]
  · simp [h, List.mem_erase_of_ne h]

theorem nodup_touched {order : List String} (h : order.Nodup) (hash : String) :
    (order.erase hash ++ [hash]).Nodup := by
  rw [List.nodup_append_comm, List.singleton_append, List.nodup_cons]
  exact ⟨h.not_mem_erase, h.erase hash⟩

theorem consistent_touch (h : Consistent tools s) (hmem : hash ∈ s.engines) :
    Consistent tools (s.touchCacheEntry hash) where
  order_nodup := h.order_nodup
  mem_order := h.mem_order
  cacheOrder_nodup := nodup_touched h.cacheOrder_nodup hash
  mem_cacheOrder other := by
    refine mem_touched.trans ?_
    rw [h.mem_cacheOrder]
    exact or_iff_right_of_imp fun heq => heq ▸ hmem
  sound := h.sound
  weight := h.weight
  pinned := h.pinned

/-! ### Insertion and eviction -/

theorem sound_addEngine (h : Consistent tools s) (hentry : entry.Sound tools hash) (other : String)
    (found : CacheEntry η) (hfound : (s.addEngine hash entry).engines.lookup other = some found) :
    found.Sound tools other := by
  change (AList.insert hash entry s.engines).lookup other = some found at hfound
  rw [Table.lookup_insert_eq] at hfound
  split at hfound
  · next heq =>
    cases hfound
    exact heq ▸ hentry
  · exact h.sound other found hfound

/-- The weights are all the same, so that their sum does not saturate for as long as
there are not too many of them. -/
theorem weight_addEngine (h : Consistent tools s) (hnone : s.engines.lookup hash = none)
    (hentry : entry.Sound tools hash)
    (hfit : (s.addEngine hash entry).mostCached * defaultGuestMemoryBytes ≤ usizeMax) :
    (s.addEngine hash entry).cacheWeight =
      Table.total (fun _ entry => entry.weight) (s.addEngine hash entry).engines := by
  obtain ⟨hbefore, hnow⟩ := Nat.max_le.mp ((Nat.le_div_iff_mul_le (by decide)).mpr hfit)
  have hsum : s.cacheWeight + entry.weight =
      Table.total (fun _ entry => entry.weight) (AList.insert hash entry s.engines) := by
    rw [h.weight ((Nat.le_div_iff_mul_le (by decide)).mp hbefore), ← Table.total_insert, hnone]
    rfl
  have hconst := Table.total_const fun other found hfound =>
    (sound_addEngine h hentry other found hfound).weight
  have hfits : s.cacheWeight + entry.weight ≤ usizeMax :=
    (hsum.trans hconst).trans_le ((Nat.le_div_iff_mul_le (by decide)).mp hnow)
  exact (Nat.min_eq_left hfits).trans hsum

/-- A component that comes into the cache is the most recent one. -/
theorem consistent_addEngine (h : Consistent tools s) (hnone : s.engines.lookup hash = none)
    (hentry : entry.Sound tools hash) :
    Consistent tools ((s.addEngine hash entry).touchCacheEntry hash) where
  order_nodup := h.order_nodup
  mem_order := h.mem_order
  cacheOrder_nodup := nodup_touched h.cacheOrder_nodup hash
  mem_cacheOrder other := by
    refine mem_touched.trans ?_
    change other = hash ∨ other ∈ s.cacheOrder ↔ other ∈ AList.insert hash entry s.engines
    rw [h.mem_cacheOrder, AList.mem_insert]
  sound := sound_addEngine h hentry
  weight := weight_addEngine h hnone hentry
  pinned id plugin hplugin := by
    obtain ⟨found, hfound, hcaps⟩ := h.pinned id plugin hplugin
    refine ⟨found, ?_, hcaps⟩
    change (AList.insert hash entry s.engines).lookup _ = _
    rw [Table.lookup_insert_eq, if_neg, hfound]
    rintro rfl
    rw [hnone] at hfound
    cases hfound

theorem consistent_dropEngine (h : Consistent tools s) (hfree : ¬ s.Referenced hash) :
    Consistent tools (s.dropEngine hash) where
  order_nodup := h.order_nodup
  mem_order := h.mem_order
  cacheOrder_nodup := h.cacheOrder_nodup.erase hash
  mem_cacheOrder other := by
    change other ∈ s.cacheOrder.erase hash ↔ other ∈ s.engines.erase hash
    rw [h.cacheOrder_nodup.mem_erase_iff, AList.mem_erase, h.mem_cacheOrder]
  sound other found hfound := by
    change (AList.erase hash s.engines).lookup other = some found at hfound
    rw [Table.lookup_erase_eq] at hfound
    split at hfound
    · cases hfound
    · exact h.sound other found hfound
  weight hfit := by
    have hsum := @Table.total_erase _ _ _ (fun _ (entry : CacheEntry η) => entry.weight) s.engines hash
    change s.cacheWeight - (s.engines.lookup hash).elim 0 CacheEntry.weight =
      Table.total _ (AList.erase hash s.engines)
    rw [h.weight hfit, ← hsum]
    exact Nat.add_sub_cancel _ _
  pinned id plugin hplugin := by
    obtain ⟨found, hfound, hcaps⟩ := h.pinned id plugin hplugin
    refine ⟨found, ?_, hcaps⟩
    change (AList.erase hash s.engines).lookup _ = _
    rw [Table.lookup_erase_eq, if_neg, hfound]
    rintro rfl
    exact hfree (referenced_iff.mpr ⟨id, plugin, hplugin, rfl⟩)

/-- The loop ends with what it was to reach: every round takes a component out, and
nothing of the catalog. -/
theorem evictUnreferencedEngines_kept (h : Consistent tools s) (hdrawn : Drawn tools s)
    (hvalid : Validated tools s) : Kept tools s.evictUnreferencedEngines := by
  rw [evictUnreferencedEngines]
  generalize hrounds : s.cacheOrder.length = rounds
  induction rounds generalizing s with
  | zero =>
      rw [evictLoop]
      refine ⟨h, hdrawn, hvalid, .inr fun hash hmem => ?_⟩
      rw [← h.mem_cacheOrder, List.length_eq_zero_iff.mp hrounds] at hmem
      cases hmem
  | succ rounds ih =>
      rw [evictLoop]
      by_cases hheavy : s.cacheMaxWeight < s.cacheWeight
      · rw [if_pos hheavy]
        cases hvictim : s.victim with
        | none =>
            refine ⟨h, hdrawn, hvalid, .inr fun hash hmem => ?_⟩
            have hkept := List.find?_eq_none.mp hvictim hash ((h.mem_cacheOrder hash).mpr hmem)
            simpa [hmem] using hkept
        | some hash =>
            have hfree : ¬ s.Referenced hash ∧ hash ∈ s.engines := by
              simpa using List.find?_some hvictim
            refine ih (consistent_dropEngine h hfree.1) hdrawn hvalid ?_
            change (s.cacheOrder.erase hash).length = rounds
            rw [List.length_erase_of_mem (List.mem_of_find?_eq_some hvictim), hrounds]
            rfl
      · rw [if_neg hheavy]
        exact ⟨h, hdrawn, hvalid, .inl (Nat.le_of_not_lt hheavy)⟩

/-! ### The locked sections -/

theorem cachedEngine_kept (h : Kept tools s) (hash : String) :
    Kept tools (s.cachedEngine hash).2 := by
  rw [cachedEngine]
  cases hlookup : s.engines.lookup hash with
  | none => exact h
  | some entry =>
      dsimp only
      split
      · have hmem : hash ∈ s.engines := AList.lookup_isSome.mp (by rw [hlookup]; rfl)
        exact ⟨consistent_touch h.consistent hmem, h.drawn, h.validated, h.bounded⟩
      · exact h

theorem insertEngine_kept (h : Kept tools s) (hentry : entry.Sound tools hash) :
    Kept tools (s.insertEngine hash entry).2 := by
  rw [insertEngine]
  cases hlookup : s.engines.lookup hash with
  | none =>
      exact evictUnreferencedEngines_kept (consistent_addEngine h.consistent hlookup hentry) h.drawn
        h.validated
  | some existing =>
      have hmem : hash ∈ s.engines := AList.lookup_isSome.mp (by rw [hlookup]; rfl)
      dsimp only
      split
      · exact h
      · exact ⟨consistent_touch h.consistent hmem, h.drawn, h.validated, h.bounded⟩

/-- A plugin with a new identifier whose component is in the cache. -/
theorem consistent_addPlugin (h : Consistent tools s) {plugin : Plugin η}
    (hfresh : plugin.info.id ∉ s.plugins)
    (hentry : s.engines.lookup plugin.componentHash = some entry)
    (hcaps : entry.capabilities = plugin.capabilities) : Consistent tools (s.addPlugin plugin) where
  order_nodup := by
    have hnot : plugin.info.id ∉ s.order := fun hmem => hfresh ((h.mem_order _).mp hmem)
    change (s.order ++ [plugin.info.id]).Nodup
    rw [List.nodup_append_comm, List.singleton_append]
    exact List.nodup_cons.mpr ⟨hnot, h.order_nodup⟩
  mem_order id := by
    change id ∈ s.order ++ [plugin.info.id] ↔ id ∈ AList.insert plugin.info.id plugin s.plugins
    rw [List.mem_append, List.mem_singleton, AList.mem_insert, h.mem_order, or_comm]
  cacheOrder_nodup := h.cacheOrder_nodup
  mem_cacheOrder := h.mem_cacheOrder
  sound := h.sound
  weight := h.weight
  pinned id other hother := by
    change (AList.insert plugin.info.id plugin s.plugins).lookup id = some other at hother
    rw [Table.lookup_insert_eq] at hother
    split at hother
    · cases hother
      exact ⟨entry, hentry, hcaps⟩
    · exact h.pinned id other hother

theorem drawn_addPlugin (h : Drawn tools s) {plugin : Plugin η}
    (hid : plugin.info.id = tools.uuid s.drawn) : Drawn tools (s.addPlugin plugin) := by
  intro id hmem
  change id ∈ AList.insert plugin.info.id plugin s.plugins at hmem
  rw [AList.mem_insert] at hmem
  obtain rfl | hmem := hmem
  · exact ⟨s.drawn, Nat.lt_succ_self _, hid.symm⟩
  · obtain ⟨n, hn, huuid⟩ := h id hmem
    exact ⟨n, Nat.lt_succ_of_lt hn, huuid⟩

theorem validated_addPlugin (h : Validated tools s) {plugin : Plugin η}
    (hplugin : Checked tools plugin.info.version plugin.worldVersion) :
    Validated tools (s.addPlugin plugin) := by
  intro id other hother
  change (AList.insert plugin.info.id plugin s.plugins).lookup id = some other at hother
  rw [Table.lookup_insert_eq] at hother
  split at hother
  · cases hother
    exact hplugin
  · exact h id other hother

/-- An identifier that is drawn is new. -/
theorem uuid_not_mem (h : Drawn tools s) : tools.uuid s.drawn ∉ s.plugins := by
  intro hmem
  obtain ⟨n, hn, huuid⟩ := h _ hmem
  exact absurd (tools.uuid_injective huuid) (Nat.ne_of_lt hn)

theorem register_kept (h : Kept tools s) {reg : Registration η}
    (hentry : reg.entry.Sound tools reg.hash)
    (hchecked : Checked tools reg.version reg.worldVersion) : Kept tools (s.register tools reg).2 := by
  have hfresh := uuid_not_mem h.drawn
  rw [register]
  cases hlookup : s.engines.lookup reg.hash with
  | none =>
      refine evictUnreferencedEngines_kept (consistent_addPlugin
        (consistent_addEngine h.consistent hlookup hentry) hfresh ?_ rfl) (drawn_addPlugin h.drawn rfl)
        (validated_addPlugin h.validated hchecked)
      exact AList.lookup_insert s.engines
  | some existing =>
      have hmem : reg.hash ∈ s.engines := AList.lookup_isSome.mp (by rw [hlookup]; rfl)
      dsimp only
      split
      · refine ⟨⟨h.consistent.1, h.consistent.2, h.consistent.3, h.consistent.4, h.consistent.5,
          h.consistent.6, h.consistent.7⟩, fun id hmem => ?_, h.validated, h.bounded⟩
        obtain ⟨n, hn, huuid⟩ := h.drawn id hmem
        exact ⟨n, Nat.lt_succ_of_lt hn, huuid⟩
      · next hcaps =>
        exact evictUnreferencedEngines_kept (consistent_addPlugin (consistent_touch h.consistent hmem)
          hfresh hlookup (not_not.mp hcaps)) (drawn_addPlugin h.drawn rfl)
          (validated_addPlugin h.validated hchecked)

/-- A change of what a plugin says of itself leaves its component alone. -/
theorem changeInfo_kept (h : Kept tools s) (id : String) {change : PluginInfo → PluginInfo}
    (hversion : ∀ info, (change info).version = info.version) :
    Kept tools (s.changeInfo id change).2 := by
  rw [changeInfo]
  cases s.plugins.lookup id with
  | none => exact h
  | some plugin =>
      dsimp only
      set plugins := s.plugins.modify id fun plugin => { plugin with info := change plugin.info }
      -- the plugins are the same, but for what one of them says of itself
      have hplugins (other : String) : plugins.lookup other = (s.plugins.lookup other).map fun plugin =>
          if other = id then { plugin with info := change plugin.info } else plugin := by
        rw [Table.lookup_modify]
        split
        · next heq => rw [heq]
        · exact Option.map_id'.symm
      have hmem (other : String) : other ∈ plugins ↔ other ∈ s.plugins := by
        rw [← AList.lookup_isSome, ← AList.lookup_isSome, hplugins, Option.isSome_map]
      refine ⟨⟨h.consistent.order_nodup, fun other => ?_, h.consistent.cacheOrder_nodup,
        h.consistent.mem_cacheOrder, h.consistent.sound, h.consistent.weight, fun other new hnew => ?_⟩,
        fun other hother => ?_, fun other new hnew => ?_,
        h.bounded.imp_right fun hpinned hash hhash => ?_⟩
      · exact (h.consistent.mem_order other).trans (hmem other).symm
      · rw [hplugins, Option.map_eq_some_iff] at hnew
        obtain ⟨old, hold, rfl⟩ := hnew
        obtain ⟨entry, hentry, hcaps⟩ := h.consistent.pinned other old hold
        refine ⟨entry, hentry ▸ congrArg s.engines.lookup ?_, hcaps.trans ?_⟩
        · split <;> rfl
        · split <;> rfl
      · exact h.drawn other ((hmem other).mp hother)
      · rw [hplugins, Option.map_eq_some_iff] at hnew
        obtain ⟨old, hold, rfl⟩ := hnew
        have hchecked := h.validated other old hold
        by_cases heq : other = id
        · rw [if_pos heq]
          exact ⟨(hversion old.info).symm ▸ hchecked.1, hchecked.2⟩
        · rw [if_neg heq]
          exact hchecked
      · obtain ⟨other, old, hold, hcomponent⟩ := referenced_iff.mp (hpinned hash hhash)
        refine referenced_iff.mpr ⟨other, _, (hplugins other).trans (by rw [hold]; rfl), ?_⟩
        split <;> exact hcomponent

/-- A catalog without one plugin is still a catalog. -/
theorem consistent_removePlugin (h : Consistent tools s) (id : String) :
    Consistent tools
      { s with order := s.order.filter (· ≠ id), plugins := s.plugins.erase id } where
  order_nodup := h.order_nodup.filter _
  mem_order other := by
    rw [List.mem_filter, AList.mem_erase, h.mem_order, decide_eq_true_iff, and_comm]
  cacheOrder_nodup := h.cacheOrder_nodup
  mem_cacheOrder := h.mem_cacheOrder
  sound := h.sound
  weight := h.weight
  pinned other plugin hplugin := by
    rw [Table.lookup_erase_eq] at hplugin
    split at hplugin
    · cases hplugin
    · exact h.pinned other plugin hplugin

theorem remove_kept (h : Kept tools s) (id : String) : Kept tools (s.remove id).2 := by
  have hconsistent := consistent_removePlugin h.consistent id
  have hdrawn (other : String) (hmem : other ∈ s.plugins.erase id) := h.drawn other
    (AList.mem_erase.mp hmem).2
  have hvalid (other : String) (plugin : Plugin η)
      (hlookup : (s.plugins.erase id).lookup other = some plugin) := h.validated other plugin (by
    rw [Table.lookup_erase_eq] at hlookup
    split at hlookup
    · cases hlookup
    · exact hlookup)
  rw [remove]
  by_cases hid : id ∈ s.plugins
  · rw [if_pos hid]
    exact evictUnreferencedEngines_kept hconsistent hdrawn hvalid
  · rw [if_neg hid]
    refine ⟨hconsistent, hdrawn, hvalid, h.bounded.imp_right fun hpinned hash hhash => ?_⟩
    -- nothing was removed, so that every pin is still there
    obtain ⟨other, plugin, hplugin, hcomponent⟩ := referenced_iff.mp (hpinned hash hhash)
    have hother : other ≠ id := by
      rintro rfl
      exact hid (AList.lookup_isSome.mp (by rw [hplugin]; rfl))
    refine referenced_iff.mpr ⟨other, plugin, ?_, hcomponent⟩
    change (s.plugins.erase id).lookup other = some plugin
    rw [Table.lookup_erase_eq, if_neg hother, hplugin]

theorem nodup_pushNew {keep : String → Bool} {order ids : List String} (h : order.Nodup) :
    (pushNew keep order ids).Nodup := by
  induction ids generalizing order with
  | nil => exact h
  | cons id ids ih =>
      rw [pushNew, List.foldl_cons]
      split
      · next hnew =>
        refine ih ?_
        rw [List.nodup_append_comm, List.singleton_append]
        exact List.nodup_cons.mpr ⟨hnew.2, h⟩
      · exact ih h

theorem mem_pushNew {keep : String → Bool} {order ids : List String} {other : String} :
    other ∈ pushNew keep order ids ↔ other ∈ order ∨ (other ∈ ids ∧ keep other = true) := by
  induction ids generalizing order with
  | nil => simp [pushNew]
  | cons id ids ih =>
      rw [pushNew, List.foldl_cons, ← pushNew, ih]
      by_cases hid : other = id
      · subst hid
        by_cases hkeep : keep other = true <;> by_cases hmem : other ∈ order <;> simp [hkeep, hmem]
      · split <;> simp [hid]

theorem reorder_kept (h : Kept tools s) (ids : List String) : Kept tools (s.reorder ids) where
  consistent :=
    { order_nodup := nodup_pushNew (nodup_pushNew List.nodup_nil)
      mem_order := fun other => by
        refine mem_pushNew.trans ?_
        rw [mem_pushNew, h.consistent.mem_order]
        simp only [List.not_mem_nil, false_or, decide_eq_true_iff, and_true]
        exact or_iff_right_of_imp And.right
      cacheOrder_nodup := h.consistent.cacheOrder_nodup
      mem_cacheOrder := h.consistent.mem_cacheOrder
      sound := h.consistent.sound
      weight := h.consistent.weight
      pinned := h.consistent.pinned }
  drawn := h.drawn
  validated := h.validated
  bounded := h.bounded

end RegistryState

/-! ### Calls side by side -/

/-- The components a request brings along are sound, and a plugin has been checked. -/
def Request.Sound (tools : Toolchain η) : Request η → Prop
  | .register reg =>
      reg.entry.Sound tools reg.hash ∧ Checked tools reg.version reg.worldVersion
  | .insertEngine hash entry => entry.Sound tools hash
  | _ => True

open RegistryState in
/-- One locked section. -/
theorem handle_kept {r : Request η} (h : Kept tools s) (hr : r.Sound tools)
    (loaded : Except RegistryError (List UInt8)) : Kept tools (handle tools s r loaded).2 := by
  cases r with
  | cachedEngine hash => exact cachedEngine_kept h hash
  | register reg => exact register_kept h hr.1 hr.2
  | insertEngine hash entry => exact insertEngine_kept h hr
  | setEnabled id enabled => exact changeInfo_kept h id fun _ => rfl
  | setName id name => exact changeInfo_kept h id fun _ => rfl
  | remove id => exact remove_kept h id
  | reorder ids => exact reorder_kept h ids
  | load hash => exact h

/-- A program keeps the registry in step, whatever the others do. -/
abbrev Keeps (tools : Toolchain η) {α : Type} (p : Prog (Request η) Answer α) : Prop :=
  Prog.Tolerates (handle tools) (Kept tools) (fun _ => True) p

theorem keeps_request {r : Request η} (hr : r.Sound tools) :
    Keeps tools (Prog.request r) := fun _ h loaded => ⟨handle_kept h hr loaded, trivial⟩

theorem keeps_bind {α β : Type} {p : Prog (Request η) Answer α} {f : α → Prog (Request η) Answer β}
    (hp : Keeps tools p) (hf : ∀ a, Keeps tools (f a)) : Keeps tools (p >>= f) :=
  Prog.tolerates_bind.mpr (hp.mono fun a _ => hf a)

/-- The same for programs that can fail. -/
theorem keeps_bindE {α β : Type} {m : Program η α} {f : α → Program η β}
    (hm : Keeps tools m.run) (hf : ∀ a, Keeps tools (f a).run) : Keeps tools (m >>= f).run := by
  refine Prog.toleratesE_bind.mpr (hm.mono fun result _ => ?_)
  cases result with
  | ok a => exact hf a
  | error e => trivial

theorem keeps_requestE {r : Request η} (hr : r.Sound tools) :
    Keeps tools (request r : Program η _).run := fun _ h loaded => ⟨handle_kept h hr loaded, trivial⟩

theorem candidate_keeps (args : Import) (hash : String) :
    Keeps tools (candidate tools args hash).run := by
  refine keeps_bindE (keeps_requestE trivial) fun found => ?_
  cases found with
  | none => exact keeps_bindE trivial fun engine => keeps_bindE trivial fun _ => trivial
  | some pair =>
      dsimp only
      split <;> trivial

theorem importWithCatalogMetadata_keeps (args : Import) :
    Keeps tools (importWithCatalogMetadata tools args).run := by
  cases hparse : tools.parseVersion args.version with
  | error e =>
      rw [importWithCatalogMetadata, hparse]
      trivial
  | ok =>
      rw [importWithCatalogMetadata, hparse]
      refine keeps_bindE trivial fun _ => ?_
      split
      · trivial
      · next hworld =>
        refine keeps_bindE (candidate_keeps args _) fun engine => ?_
        exact keeps_bindE (keeps_requestE ⟨⟨rfl, tools.guestMemoryLimit_eq engine⟩, hparse,
          not_not.mp hworld⟩) fun info => trivial

theorem engineFor_keeps (step : PipelineStep) : Keeps tools (engineFor tools step).run := by
  refine keeps_bindE (keeps_requestE trivial) fun found => ?_
  cases found with
  | some pair =>
      dsimp only
      split <;> trivial
  | none =>
      refine keeps_bindE (keeps_requestE trivial) fun loaded => keeps_bindE trivial fun bytes => ?_
      split
      · trivial
      · next hdigest =>
        refine keeps_bindE trivial fun engine => ?_
        exact keeps_bindE (keeps_requestE ⟨not_not.mp hdigest,
          tools.guestMemoryLimit_eq engine⟩) fun inserted => trivial

theorem mapM_keeps {α β : Type} {f : α → Program η β} (hf : ∀ a, Keeps tools (f a).run)
    (xs : List α) : Keeps tools (xs.mapM f).run := by
  induction xs with
  | nil => trivial
  | cons x xs ih =>
      rw [List.mapM_cons]
      exact keeps_bindE (hf x) fun y => keeps_bindE ih fun ys => trivial

theorem snapshotFor_keeps (resolution : PipelineResolution) :
    Keeps tools (snapshotFor tools resolution).run := by
  rw [snapshotFor]
  split
  · trivial
  · split
    · trivial
    · refine mapM_keeps (fun step => ?_) _
      split
      · rw [map_eq_pure_bind]
        exact keeps_bindE (engineFor_keeps step) fun engine => trivial
      · trivial

theorem Call.program_keeps (call : Call) : Keeps tools (call.program tools) := by
  cases call with
  | importPlugin args => exact keeps_bind (importWithCatalogMetadata_keeps args) fun _ => trivial
  | remove id => exact keeps_bind (keeps_request trivial) fun _ => trivial
  | reorder ids => exact keeps_bind (keeps_request trivial) fun _ => trivial
  | setEnabled id enabled => exact keeps_bind (keeps_request trivial) fun _ => trivial
  | setName id name => exact keeps_bind (keeps_request trivial) fun _ => trivial
  | cachedEngine hash => exact keeps_bind (keeps_request trivial) fun _ => trivial
  | snapshotFor resolution => exact keeps_bind (snapshotFor_keeps resolution) fun _ => trivial

theorem client_keeps (calls : List Call) : Keeps tools (client tools calls) := by
  induction calls with
  | nil => trivial
  | cons call calls ih => exact keeps_bind call.program_keeps fun _ => ih

theorem kept_newRegistry (cacheMaxWeight : ℕ) :
    Kept tools (newRegistry cacheMaxWeight : RegistryState η) where
  consistent :=
    { order_nodup := List.nodup_nil
      mem_order := fun id => iff_of_false List.not_mem_nil (AList.notMem_empty id)
      cacheOrder_nodup := List.nodup_nil
      mem_cacheOrder := fun hash => iff_of_false List.not_mem_nil (AList.notMem_empty hash)
      sound := fun hash entry h => by cases h
      weight := fun _ => rfl
      pinned := fun id plugin h => by cases h }
  drawn id hmem := absurd hmem (AList.notMem_empty id)
  validated id plugin h := by cases h
  bounded := .inl (Nat.zero_le _)

/-- What holds after every step of every client. -/
theorem registrySystem_kept {τ : Type} [DecidableEq τ] {clients : τ → List Call} {cacheMaxWeight : ℕ}
    {pool : Pool τ (Request η) Answer (RegistryState η) Unit}
    (h : (registrySystem tools clients cacheMaxWeight).Reachable pool) : Kept tools pool.state := by
  refine (h.invariant (I := fun pool => Kept tools pool.state ∧ ∀ i, Keeps tools (pool.tasks i))
    ?_ ?_).1
  · rintro pool rfl
    exact ⟨kept_newRegistry cacheMaxWeight, fun i => client_keeps (clients i)⟩
  · intro pool label pool' hkept hstep
    exact Pool.step_tolerates hkept.1 hkept.2 hstep

/-- However the calls of the clients interleave, the order lists the catalog, the
recency list the cache, each without repetition; every component has its digest for a
key; the weight is the sum of the weights, short of `2 ^ 38` components at once; the
component of a plugin is cached with the plugin's capabilities; and the cache is within
its budget or holds nothing but components of the catalog. -/
theorem registry_consistent {τ : Type} [DecidableEq τ] (tools : Toolchain η)
    (clients : τ → List Call) (cacheMaxWeight : ℕ)
    {pool : Pool τ (Request η) Answer (RegistryState η) Unit}
    (h : (registrySystem tools clients cacheMaxWeight).Reachable pool) :
    Consistent tools pool.state ∧ pool.state.Bounded :=
  ⟨(registrySystem_kept h).consistent, (registrySystem_kept h).bounded⟩

/-- A component with nothing in it: the header alone. -/
def emptyComponent : List UInt8 := [0x00, 0x61, 0x73, 0x6d, 0x0d, 0x00, 0x01, 0x00]

def emptyDigest : String := "24eaf3439a60c96764c4f2c92a0a81b52bd4fe5d5b91f090184a0f6486b1bf29"

/-- A toolchain that knows this component; it compiles, but exports no transformer. -/
def emptyToolchain : Toolchain Unit where
  digest bytes := if bytes = emptyComponent then emptyDigest else ""
  compile bytes := if bytes = emptyComponent then .ok () else .error "unexpected end"
  validateTransformerWorld _ := .error "guest failed during begin"
  guestMemoryLimit _ := 67108864
  guestMemoryLimit_eq _ := rfl
  parseVersion _ := .ok ()
  uuid n := String.ofList ("3f2504e0-4f89-41d3-9a0c-0305e82c330".toList ++ List.replicate (n + 1) '1')
  uuid_injective m n h := by
    have hlength := congrArg List.length (String.ofList_injective h)
    simpa using hlength
  debug text := "\"" ++ text ++ "\""

/-- One client takes a snapshot, the other imports. -/
def sampleClients : Bool → List Call
  | true => [.snapshotFor ⟨⟨"static", "", none⟩, [⟨emptyDigest, none, true, none, none, ⟨false⟩, .none⟩],
      none, false, ⟨⟨1, 1, 1, 1, 1, 1, 1, 1⟩, 1⟩⟩]
  | false => [.importPlugin ⟨"empty", emptyComponent, ⟨false⟩, none, "0.1.0", transformerWorld⟩]

/-- The import finds what the snapshot has put into the cache, and pins it. -/
theorem imported_after_snapshot_consistent :
    ∃ pool, (registrySystem emptyToolchain sampleClients 134217728).Reachable pool ∧
      pool.state.order = [emptyToolchain.uuid 0] ∧ pool.state.cacheWeight = 67108864 ∧
      Consistent emptyToolchain pool.state ∧ pool.state.Bounded := by
  have hrun : ((System.run (Pool.step (handle emptyToolchain))
      ⟨fun i => client emptyToolchain (sampleClients i), newRegistry 134217728, []⟩
      [(true, .ok []), (true, .ok emptyComponent), (true, .ok []), (false, .ok []), (false, .ok [])]).map
        fun pool => (pool.state.order, pool.state.cacheWeight)) =
      some ([emptyToolchain.uuid 0], 67108864) := by
    decide +kernel
  obtain ⟨pool, hpool, hstate⟩ := Option.map_eq_some_iff.mp hrun
  obtain ⟨horder, hweight⟩ := Prod.mk.inj hstate
  have hreachable : (registrySystem emptyToolchain sampleClients 134217728).Reachable pool :=
    System.Reachable.run (.of_init rfl) hpool
  exact ⟨pool, hreachable, horder, hweight, registry_consistent _ _ _ hreachable⟩

end Maskura.Registry
