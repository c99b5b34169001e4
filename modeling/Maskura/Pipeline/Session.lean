import Mathlib.Algebra.Order.Ring.Nat
import Maskura.Lib.Stateful
import Maskura.Records.Decoder

/-!
A pipeline session: the filters of an object in a row, each with its state. A
record goes through all of them before the next one is taken; at the end they
are finished from the first to the last, and what a filter still has goes
through those behind it.

A call that fails leaves the session as far as it came, and the next call goes
on from there; so the session is a state that survives its errors. The filters
and the validator of the output are arbitrary. Every session keeps a list of
what happened in it, which no method reads.
-/

namespace Maskura.Pipeline

open Lib Lib.Stateful Records

inductive TransformOutcome
  | emit (payload : Bytes)
  | drop
  deriving DecidableEq

/-- `PipelineFilter`. -/
structure Filter (σ : Type) where
  /-- The payload and the fuel limit. -/
  transform : σ → Bytes → ℕ → Except MaskuraError TransformOutcome × σ
  /-- The trailing bytes and all fuel consumed. -/
  finish : σ → ℕ → Except MaskuraError (Bytes × ℕ)
  fuelConsumed : σ → ℕ
  /-- What a `finish` that fails has spent. It is reported to nobody. -/
  lost : σ → ℕ → ℕ

/-- A plugin of the snapshot, with its compiled engine. -/
structure Engine (σ : Type) where
  name : String
  enabled : Bool
  filter : Filter σ
  /-- `start_session_with_control_and_grant` under a fuel limit. -/
  start : ℕ → Except MaskuraError σ
  /-- What a start that fails has spent. -/
  lost : ℕ → ℕ

structure PluginSession (σ : Type) where
  name : String
  filter : Filter σ
  state : σ
  accountedFuel : ℕ

/-- The validator of the output, which keeps its state when it refuses. -/
structure Validator (ν : Type) where
  push : ν → Record → Except MaskuraError Unit × ν
  finish : ν → Except MaskuraError Unit

structure PipelineLimits where
  maxIntermediateRecordBytes : ℕ
  maxPluginFinishBytes : ℕ
  maxInputBytes : ℕ
  maxOutputBytes : ℕ
  maxExpansionFactor : ℕ
  maxExpansionSlackBytes : ℕ
  maxPlugins : ℕ
  maxCumulativeFuel : ℕ
  deriving DecidableEq

/-- Why a session failed, with the error it returned. -/
inductive Failure
  /-- A limit of the session is exceeded, its fuel and its time among them. -/
  | limit (error : MaskuraError)
  /-- A filter failed. -/
  | filter (error : MaskuraError)
  /-- The output is not valid. -/
  | output (error : MaskuraError)
  /-- An `expect` or an index that was out of range. -/
  | panic (message : String)
  deriving DecidableEq

/-- What can be seen of a session. -/
inductive Event
  /-- A filter spent fuel. -/
  | spent (fuel : ℕ)
  /-- The session took a record of so many bytes. -/
  | accepted (bytes : ℕ)
  /-- A stage handed a record on. -/
  | emitted (stage bytes : ℕ)
  /-- A call returned so many bytes of records. -/
  | returned (bytes : ℕ)
  deriving DecidableEq

/-- `PipelineSession`, and what happened in it. -/
structure Session (σ ν : Type) where
  /-- A plugin that was finished is gone. -/
  plugins : List (Option (PluginSession σ))
  limits : PipelineLimits
  outputValidator : ν
  inputBytes : ℕ
  outputBytes : ℕ
  stageOutputBytes : List ℕ
  fuelConsumed : ℕ
  objectDeadline : ℕ
  events : List Event

/-- The largest `u64`. -/
def u64Max : ℕ := 2 ^ 64 - 1

def limitError (code : Code) (kind : String) (actual limit : ℕ) : Failure :=
  .limit ⟨code, s!"{kind} {actual} exceeds limit {limit}"⟩

def fuelLimitError : Failure := .limit ⟨.wasmFuel, "Wasm pipeline cumulative fuel exhausted"⟩

def pluginError (name : String) (error : MaskuraError) : Failure :=
  .filter ⟨error.code, s!"plugin {name}: " ++ error.message⟩

def outputValidationError (error : MaskuraError) : Failure :=
  .output ⟨.decodeInvalidOutput, error.message⟩

/-- `record_len`. -/
def recordLen (record : Record) : ℕ :=
  min (record.payload.length + record.separator.length) u64Max

/-- `checked_total`. -/
def checkedTotal (code : Code) (kind : String) (current added limit : ℕ) : Except Failure ℕ := do
  rejectIf (u64Max < current + added) (.limit ⟨code, s!"{kind} count overflow"⟩)
  rejectIf (limit < current + added) (limitError code kind (current + added) limit)
  return current + added

/-- The bytes of some records. -/
def bytesOf (records : List Record) : ℕ :=
  (records.map fun record => record.payload.length + record.separator.length).sum

/-- A method of the session. -/
abbrev Method (σ ν α : Type) := Stateful Failure (Session σ ν) α

variable {σ ν : Type} (V : Validator ν)

namespace Session

/-- The session in which this has happened, too. -/
@[simp] def seen (s : Session σ ν) (event : Event) : Session σ ν := { s with events := s.events ++ [event] }

def checkDeadline (now : ℕ) : Method σ ν Unit := do
  let s ← get
  reject (s.objectDeadline ≤ now)
    (.limit ⟨.wasmDeadline, "Wasm pipeline wall-time deadline exceeded"⟩)

def remainingFuel : Method σ ν ℕ := do
  let s ← get
  reject (s.limits.maxCumulativeFuel ≤ s.fuelConsumed) fuelLimitError
  return s.limits.maxCumulativeFuel - s.fuelConsumed

def accountFuel (consumed : ℕ) : Method σ ν Unit := do
  let s ← get
  reject (u64Max < s.fuelConsumed + consumed) fuelLimitError
  -- the sum is kept even when it turns out to be too much
  modify fun s => { s with fuelConsumed := s.fuelConsumed + consumed }
  reject (s.limits.maxCumulativeFuel < s.fuelConsumed + consumed) fuelLimitError

def checkIntermediate (bytes : ℕ) : Method σ ν Unit := do
  let s ← get
  reject (s.limits.maxIntermediateRecordBytes < bytes)
    (limitError .limitIntermediateBytes "intermediate record" bytes
      s.limits.maxIntermediateRecordBytes)

def checkCumulativeOutput (bytes : ℕ) : Method σ ν Unit := do
  let s ← get
  reject (s.limits.maxOutputBytes < bytes)
    (limitError .limitOutputBytes "output bytes" bytes s.limits.maxOutputBytes)
  -- the product and the sum saturate
  let expanded := min (s.inputBytes * s.limits.maxExpansionFactor) u64Max
  let expansionLimit :=
    min (min (expanded + s.limits.maxExpansionSlackBytes) u64Max) s.limits.maxOutputBytes
  reject (expansionLimit < bytes)
    (limitError .limitExpansion "cumulative expansion" bytes expansionLimit)

def accountStage (index bytes : ℕ) : Method σ ν Unit := do
  let s ← get
  let before ← require s.stageOutputBytes[index]? (.panic "index out of bounds")
  reject (u64Max < before + bytes) (.limit ⟨.limitOutputBytes, "stage byte count overflow"⟩)
  checkCumulativeOutput (before + bytes)
  modify fun s => { s with stageOutputBytes := s.stageOutputBytes.set index (before + bytes) }

def accountOutput (bytes : ℕ) : Method σ ν Unit := do
  let s ← get
  reject (u64Max < s.outputBytes + bytes)
    (.limit ⟨.limitOutputBytes, "output byte count overflow"⟩)
  checkCumulativeOutput (s.outputBytes + bytes)
  modify fun s => { s with outputBytes := s.outputBytes + bytes }

/-- The end of `route_from`: the record leaves the pipeline. -/
def putOut (record : Record) : Method σ ν Unit := do
  let s ← get
  let verdict := V.push s.outputValidator record
  modify fun s => { s with outputValidator := verdict.2 }
  check (verdict.1.mapError outputValidationError)
  accountOutput (recordLen record)

/-- The plugin at `index` transforms a payload, and its fuel is accounted,
whether it fails or not. -/
def transformAt (index : ℕ) (payload : Bytes) : Method σ ν TransformOutcome := do
  let remaining ← remainingFuel
  let s ← get
  match s.plugins[index]? with
  | some (some plugin) =>
      let result := plugin.filter.transform plugin.state payload remaining
      let current := plugin.filter.fuelConsumed result.2
      modify fun s => { s with
        plugins := s.plugins.set index
          (some { plugin with state := result.2, accountedFuel := current }) }
      modify (·.seen (.spent (current - plugin.filter.fuelConsumed plugin.state)))
      accountFuel (current - plugin.accountedFuel)
      check (result.1.mapError (pluginError plugin.name))
  | _ => throw (.panic "downstream plugin must not be finished yet")

/-- The loop of `route_from`, for the plugins from `index` on. -/
def routeLoop : ℕ → ℕ → Record → Method σ ν (Option Record)
  | 0, _, record => do
      putOut V record
      return some record
  | rest + 1, index, record => do
      match ← transformAt index record.payload with
      | .emit payload =>
          checkIntermediate payload.length
          accountStage index (recordLen { record with payload })
          modify (·.seen (.emitted index (bytesOf [{ record with payload }])))
          routeLoop rest (index + 1) { record with payload }
      | .drop => return none

def routeFrom (start : ℕ) (record : Record) : Method σ ν (Option Record) := do
  let s ← get
  routeLoop V (s.plugins.length - start) start record

def process (now : ℕ) (record : Record) : Method σ ν (Option Record) := do
  checkDeadline now
  let s ← get
  let inputBytes ← check (checkedTotal .limitInputBytes "input bytes" s.inputBytes
    (recordLen record) s.limits.maxInputBytes)
  modify fun s => { s with inputBytes }
  modify (·.seen (.accepted (bytesOf [record])))
  let out ← routeFrom V 0 record
  modify (·.seen (.returned (bytesOf out.toList)))
  return out

/-- One round of `finish_with_fuel`: the plugin at `index` is finished. -/
def finishPlugin (now index : ℕ) : Method σ ν (Option Record) := do
  checkDeadline now
  let s ← get
  match s.plugins[index]? with
  | some (some plugin) =>
      modify fun s => { s with plugins := s.plugins.set index none }
      let remaining ← remainingFuel
      match plugin.filter.finish plugin.state remaining with
      | .error error =>
          -- the plugin is gone, and its fuel is accounted by nobody
          modify (·.seen (.spent (plugin.filter.lost plugin.state remaining)))
          throw (pluginError plugin.name error)
      | .ok (trailing, pluginFuel) =>
          modify (·.seen (.spent (pluginFuel - plugin.filter.fuelConsumed plugin.state)))
          accountFuel (pluginFuel - plugin.accountedFuel)
          reject (s.limits.maxPluginFinishBytes < trailing.length)
            (limitError .limitFinishBytes "plugin finish output" trailing.length
              s.limits.maxPluginFinishBytes)
          if trailing.isEmpty then return none
          else
            checkIntermediate trailing.length
            accountStage index (recordLen ⟨trailing, []⟩)
            modify (·.seen (.emitted index (bytesOf [⟨trailing, []⟩])))
            routeFrom V (index + 1) ⟨trailing, []⟩
  | _ => throw (.panic "pipeline plugin can only be finished once")

/-- The loop of `finish_with_fuel`. The clock is read once for every plugin. -/
def finishLoop (clock : ℕ → ℕ) : ℕ → ℕ → Method σ ν (List Record)
  | 0, _ => return []
  | rest + 1, index => do
      let record ← finishPlugin V (clock index) index
      let records ← finishLoop clock rest (index + 1)
      return record.toList ++ records

/-- `finish_with_fuel`: the last records and the fuel of the whole session. -/
def finishWithFuel (clock : ℕ → ℕ) : Method σ ν (List Record × ℕ) := do
  let s ← get
  let records ← finishLoop V clock s.plugins.length 0
  let s ← get
  check ((V.finish s.outputValidator).mapError outputValidationError)
  modify (·.seen (.returned (bytesOf records)))
  return (records, s.fuelConsumed)

def finish (clock : ℕ → ℕ) : Method σ ν (List Record) := do
  let (records, _) ← finishWithFuel V clock
  return records

end Session

/-- The loop of `start_session_with_deadline`. What the guests spend is listed
as it happens. -/
def startGuests (limits : PipelineLimits) :
    List (Engine σ) → ℕ → Stateful Failure (List Event) (List (PluginSession σ) × ℕ)
  | [], fuelConsumed => return ([], fuelConsumed)
  | engine :: engines, fuelConsumed => do
      let remaining := limits.maxCumulativeFuel - fuelConsumed
      match engine.start remaining with
      | .error error =>
          modify fun events => events ++ [.spent (engine.lost remaining)]
          throw (pluginError engine.name error)
      | .ok state =>
          let taken := engine.filter.fuelConsumed state
          modify fun events => events ++ [.spent taken]
          reject (u64Max < fuelConsumed + taken) fuelLimitError
          reject (limits.maxCumulativeFuel < fuelConsumed + taken) fuelLimitError
          let (plugins, fuel) ← startGuests limits engines (fuelConsumed + taken)
          return (⟨engine.name, engine.filter, state, taken⟩ :: plugins, fuel)

/-- `start_session_with_deadline`; `validator` is the new validator of the output,
unless it cannot be made. -/
def startSession (limits : PipelineLimits) (engines : List (Engine σ)) (deadline : ℕ)
    (validator : Except MaskuraError ν) : Stateful Failure (List Event) (Session σ ν) := do
  let enabled := engines.filter (·.enabled)
  reject (limits.maxPlugins < enabled.length)
    (limitError .limitPluginCount "plugin count" enabled.length limits.maxPlugins)
  let (plugins, fuelConsumed) ← startGuests limits enabled 0
  let outputValidator ← check (validator.mapError .output)
  let events ← get
  return {
    plugins := plugins.map some
    limits
    outputValidator
    inputBytes := 0
    outputBytes := 0
    stageOutputBytes := List.replicate plugins.length 0
    fuelConsumed
    objectDeadline := deadline
    events }

/-! ### What the checks say -/

/-- The bytes that may go out when so many came in. -/
def byteBudget (limits : PipelineLimits) (input : ℕ) : ℕ :=
  min limits.maxOutputBytes (input * limits.maxExpansionFactor + limits.maxExpansionSlackBytes)

/-- No panic. -/
def Failure.Expected : Failure → Prop
  | .panic _ => False
  | _ => True

namespace Session

variable {α : Type} {s : Session σ ν}

/-- The call only looks at the session. It finds this out, or fails without a panic. -/
def Checks (fact : α → Prop) (call : Method σ ν α) (s : Session σ ν) : Prop :=
  Ends (fun a t => t = s ∧ fact a) (fun failure t => t = s ∧ failure.Expected) call s

theorem Checks.ends {fact : α → Prop} {call : Method σ ν α} (h : Checks fact call s)
    {Q : α → Session σ ν → Prop} {E : Failure → Session σ ν → Prop} (hQ : ∀ a, fact a → Q a s)
    (hE : ∀ failure, failure.Expected → E failure s) : Ends Q E call s := by
  refine Ends.mono h ?_ ?_
  · rintro a _ ⟨rfl, hfact⟩
    exact hQ a hfact
  · rintro failure _ ⟨rfl, hexpected⟩
    exact hE failure hexpected

theorem checkDeadline_spec (now : ℕ) : Checks (fun _ => True) (checkDeadline now) s := by
  simp [Checks, checkDeadline, ends_reject, Failure.Expected]

theorem checkIntermediate_spec (bytes : ℕ) :
    Checks (fun _ => True) (checkIntermediate bytes) s := by
  simp [Checks, checkIntermediate, ends_reject, limitError, Failure.Expected]

theorem remainingFuel_spec :
    Checks (fun fuel => s.fuelConsumed + fuel = s.limits.maxCumulativeFuel) remainingFuel s := by
  simp only [Checks, remainingFuel, ends_bind, ends_get, ends_reject, ends_pure, true_and]
  exact ⟨fun _ => trivial, by omega⟩

/-- The bound that is checked saturates; it is never above the real one. -/
theorem checkCumulativeOutput_spec (bytes : ℕ) :
    Checks (fun _ => bytes ≤ byteBudget s.limits s.inputBytes) (checkCumulativeOutput bytes) s := by
  simp only [Checks, checkCumulativeOutput, ends_bind, ends_get, ends_reject, true_and, byteBudget]
  exact ⟨fun _ => trivial, fun _ => ⟨fun _ => trivial, by omega⟩⟩

end Session

end Maskura.Pipeline
