import Mathlib.Algebra.Order.BigOperators.Group.List
import Maskura.Pipeline.Session

/-!
What a session may use up, whichever of its calls fail. Of a filter it is
assumed that a call spends at most the fuel it is handed and that the total it
reports never falls. The validator of the output only decides which calls fail.

The budgets are said of the list of what happened, for every moment of it.
-/

namespace Maskura.Pipeline

open Lib Lib.Stateful Records

/-- `isize::MAX`: no vector has more bytes. -/
def vecMax : ℕ := 2 ^ 63 - 1

variable {σ ν : Type}

/-- What is assumed of the fuel of a filter, and of the bytes in memory. -/
structure Filter.Metered (filter : Filter σ) : Prop where
  transform_reports : ∀ s payload fuel,
    filter.fuelConsumed s ≤ filter.fuelConsumed (filter.transform s payload fuel).2
  transform_spends : ∀ s payload fuel,
    filter.fuelConsumed (filter.transform s payload fuel).2 ≤ filter.fuelConsumed s + fuel
  transform_size : ∀ {s payload fuel out t},
    filter.transform s payload fuel = (.ok (.emit out), t) → out.length ≤ vecMax
  finish_reports : ∀ {s fuel bytes used}, filter.finish s fuel = .ok (bytes, used) →
    filter.fuelConsumed s ≤ used
  finish_spends : ∀ {s fuel bytes used}, filter.finish s fuel = .ok (bytes, used) →
    used ≤ filter.fuelConsumed s + fuel
  finish_size : ∀ {s fuel bytes used}, filter.finish s fuel = .ok (bytes, used) →
    bytes.length ≤ vecMax
  lost_le : ∀ s fuel, filter.lost s fuel ≤ fuel

structure Engine.Metered (engine : Engine σ) : Prop where
  filter : engine.filter.Metered
  start_spends : ∀ {fuel s}, engine.start fuel = .ok s → engine.filter.fuelConsumed s ≤ fuel
  lost_le : ∀ fuel, engine.lost fuel ≤ fuel

abbrev MeteredEngine (σ : Type) := { engine : Engine σ // engine.Metered }

/-- The limits as the machine holds them. -/
structure MachineLimits extends PipelineLimits where
  fuel_u64 : maxCumulativeFuel ≤ u64Max

/-- A record in memory. -/
def Held (record : Record) : Prop :=
  record.payload.length ≤ vecMax ∧ record.separator.length ≤ vecMax

instance : DecidablePred Held := fun _ => instDecidableAnd

namespace Event

def fuel : Event → ℕ
  | spent fuel => fuel
  | _ => 0

def input : Event → ℕ
  | accepted bytes => bytes
  | _ => 0

def output : Event → ℕ
  | returned bytes => bytes
  | _ => 0

def passed (stage : ℕ) : Event → ℕ
  | emitted index bytes => if index = stage then bytes else 0
  | _ => 0

end Event

/-- All that the events amount to by one of their measures. -/
def total (measure : Event → ℕ) (events : List Event) : ℕ := (events.map measure).sum

@[simp] theorem total_nil (measure : Event → ℕ) : total measure [] = 0 := rfl

@[simp] theorem total_concat (measure : Event → ℕ) (events : List Event) (event : Event) :
    total measure (events ++ [event]) = total measure events + measure event := by
  simp [total]

theorem byteBudget_mono (limits : PipelineLimits) {m n : ℕ} (h : m ≤ n) :
    byteBudget limits m ≤ byteBudget limits n := by
  have hmul : m * limits.maxExpansionFactor ≤ n * limits.maxExpansionFactor :=
    Nat.mul_le_mul_right _ h
  simp only [byteBudget]
  omega

structure WithinBudget (limits : PipelineLimits) (events : List Event) : Prop where
  accepted : total Event.input events ≤ limits.maxInputBytes
  returned : total Event.output events ≤ byteBudget limits (total Event.input events)
  emitted : ∀ stage, total (Event.passed stage) events ≤ byteBudget limits (total Event.input events)
  spent : total Event.fuel events ≤ limits.maxCumulativeFuel

/-- At every moment of these events the budgets were kept. -/
def AlwaysWithinBudget (limits : PipelineLimits) (events : List Event) : Prop :=
  ∀ past, past <+: events → WithinBudget limits past

theorem alwaysWithinBudget_nil (limits : PipelineLimits) : AlwaysWithinBudget limits [] := by
  intro past hpast
  obtain rfl := List.prefix_nil.mp hpast
  exact ⟨Nat.zero_le _, Nat.zero_le _, fun _ => Nat.zero_le _, Nat.zero_le _⟩

theorem AlwaysWithinBudget.now {limits : PipelineLimits} {events : List Event}
    (h : AlwaysWithinBudget limits events) : WithinBudget limits events :=
  h events (List.prefix_refl events)

theorem AlwaysWithinBudget.concat {limits : PipelineLimits} {events : List Event} {event : Event}
    (h : AlwaysWithinBudget limits events) (hnow : WithinBudget limits (events ++ [event])) :
    AlwaysWithinBudget limits (events ++ [event]) := by
  intro past hpast
  obtain rfl | hbefore := List.prefix_concat_iff.mp hpast
  · exact hnow
  · exact h past hbefore

/-- Fuel that the budget still has may be spent. -/
theorem AlwaysWithinBudget.spend {limits : PipelineLimits} {events : List Event} {fuel : ℕ}
    (h : AlwaysWithinBudget limits events)
    (hfuel : total Event.fuel events + fuel ≤ limits.maxCumulativeFuel) :
    AlwaysWithinBudget limits (events ++ [.spent fuel]) := by
  refine h.concat ⟨?_, ?_, fun stage => ?_, ?_⟩
  · simpa [Event.input] using h.now.accepted
  · simpa [Event.input, Event.output] using h.now.returned
  · simpa [Event.input, Event.passed] using h.now.emitted stage
  · simpa [Event.fuel] using hfuel

/-- A call of `process`: the time, and the record. -/
abbrev Call := ℕ × { record : Record // Held record }

variable (V : Validator ν)

/-- All calls of `process`, whether those before failed or not. -/
def processCalls (s : Session σ ν) (calls : List Call) : Session σ ν :=
  calls.foldl (fun s call => ((Session.process V call.1 call.2.1).exec s).2) s

/-- What happens from the start of a session to its `finish`. -/
def history (limits : MachineLimits) (engines : List (MeteredEngine σ)) (deadline : ℕ)
    (validator : Except MaskuraError ν) (calls : List Call) (clock : ℕ → ℕ) : List Event :=
  match (startSession limits.toPipelineLimits (engines.map (·.1)) deadline validator).exec [] with
  | (.error _, events) => events
  | (.ok s, _) => ((Session.finish V clock).exec (processCalls V s calls)).2.events

/-- All the fuel of the plugin is accounted. -/
structure PluginSession.Accounted (plugin : PluginSession σ) : Prop where
  metered : plugin.filter.Metered
  fuel_eq : plugin.accountedFuel = plugin.filter.fuelConsumed plugin.state

/-- The counters of the session say what happened in it, and it stayed within
its budgets; `pending` bytes left the pipeline and are not returned yet. -/
structure Books (limits : MachineLimits) (pending : ℕ) (s : Session σ ν) : Prop where
  limits_eq : s.limits = limits.toPipelineLimits
  past : AlwaysWithinBudget limits.toPipelineLimits s.events
  input : total Event.input s.events = s.inputBytes
  output : total Event.output s.events + pending ≤ s.outputBytes
  output_le : s.outputBytes ≤ byteBudget limits.toPipelineLimits s.inputBytes
  stages : ∀ stage, total (Event.passed stage) s.events = s.stageOutputBytes.getD stage 0
  fuel : total Event.fuel s.events = s.fuelConsumed
  accounted : ∀ plugin, some plugin ∈ s.plugins → plugin.Accounted

section Specs

variable {V} {limits : MachineLimits} {pending : ℕ} {s : Session σ ν}

theorem recordLen_eq {record : Record} (h : Held record) :
    recordLen record = record.payload.length + record.separator.length := by
  have hbound : record.payload.length + record.separator.length ≤ u64Max := by
    have h₁ := h.1
    have h₂ := h.2
    unfold vecMax at h₁ h₂
    unfold u64Max
    omega
  exact Nat.min_eq_left hbound

@[simp] theorem bytesOf_nil : bytesOf [] = 0 := rfl

theorem bytesOf_append (xs ys : List Record) :
    bytesOf (xs ++ ys) = bytesOf xs + bytesOf ys := by
  simp [bytesOf]

theorem bytesOf_singleton {record : Record} (h : Held record) :
    bytesOf [record] = recordLen record := by
  rw [recordLen_eq h]
  simp [bytesOf]

/-- Fuel from the budget was spent and is accounted. -/
theorem Books.spent (h : Books limits pending s) {fuel : ℕ}
    {plugins : List (Option (PluginSession σ))}
    (hfuel : s.fuelConsumed + fuel ≤ limits.maxCumulativeFuel)
    (hplugins : ∀ plugin, some plugin ∈ plugins → plugin.Accounted) :
    Books limits pending { s with
      plugins
      fuelConsumed := s.fuelConsumed + fuel
      events := s.events ++ [.spent fuel] } where
  limits_eq := h.limits_eq
  past := h.past.spend (by rw [h.fuel]; exact hfuel)
  input := by simpa [Event.input] using h.input
  output := by simpa [Event.output] using h.output
  output_le := h.output_le
  stages := fun stage => by simpa [Event.passed] using h.stages stage
  fuel := by simp [Event.fuel, h.fuel]
  accounted := hplugins

/-- A record came in. -/
theorem Books.accepted (h : Books limits pending s) {bytes : ℕ}
    (hmax : s.inputBytes + bytes ≤ s.limits.maxInputBytes) :
    Books limits pending
      (Session.seen { s with inputBytes := s.inputBytes + bytes } (.accepted bytes)) where
  limits_eq := h.limits_eq
  past := by
    have hnow := h.past.now
    have hmono : byteBudget limits.toPipelineLimits (total Event.input s.events) ≤
        byteBudget limits.toPipelineLimits (total Event.input (s.events ++ [.accepted bytes])) :=
      byteBudget_mono _ (by simp)
    rw [h.limits_eq] at hmax
    refine h.past.concat ⟨?_, ?_, fun stage => ?_, ?_⟩
    · simpa [Event.input, h.input] using hmax
    · exact le_trans (by simpa [Event.output] using hnow.returned) hmono
    · exact le_trans (by simpa [Event.passed] using hnow.emitted stage) hmono
    · simpa [Event.fuel] using hnow.spent
  input := by simp [Event.input, h.input]
  output := by simpa [Event.output] using h.output
  output_le := h.output_le.trans (byteBudget_mono _ (Nat.le_add_right _ _))
  stages := fun stage => by simpa [Event.passed] using h.stages stage
  fuel := by simpa [Event.fuel] using h.fuel
  accounted := h.accounted

/-- What had left the pipeline was returned. -/
theorem Books.returned {bytes : ℕ} (h : Books limits (pending + bytes) s) :
    Books limits pending (s.seen (.returned bytes)) where
  limits_eq := h.limits_eq
  past := by
    have hnow := h.past.now
    have hout := h.output
    have hle := h.output_le
    refine h.past.concat ⟨?_, ?_, fun stage => ?_, ?_⟩
    · simpa [Event.input] using hnow.accepted
    · simp only [total_concat, Event.input, Event.output, h.input, Nat.add_zero]
      omega
    · simpa [Event.input, Event.passed] using hnow.emitted stage
    · simpa [Event.fuel] using hnow.spent
  input := by simpa [Event.input] using h.input
  output := by
    have hout := h.output
    simp only [Session.seen, total_concat, Event.output]
    omega
  output_le := h.output_le
  stages := fun stage => by simpa [Event.passed] using h.stages stage
  fuel := by simpa [Event.fuel] using h.fuel
  accounted := h.accounted

theorem mem_of_mem_set_none {α : Type} {xs : List (Option α)} {index : ℕ} {x : α}
    (h : some x ∈ xs.set index none) : some x ∈ xs := by
  obtain h | h := List.mem_or_eq_of_mem_set h
  · exact h
  · cases h

namespace Session

/-- The fuel that a call was allowed is accounted without an error. -/
theorem accountFuel_spec (limits : MachineLimits) {consumed : ℕ}
    (hlimits : s.limits = limits.toPipelineLimits)
    (h : s.fuelConsumed + consumed ≤ limits.maxCumulativeFuel) :
    Ends (fun _ t => t = { s with fuelConsumed := s.fuelConsumed + consumed })
      (fun _ _ => False) (accountFuel consumed : Method σ ν Unit) s := by
  have hu64 : s.fuelConsumed + consumed ≤ u64Max := h.trans limits.fuel_u64
  simp only [accountFuel, ends_bind, ends_get, ends_reject, ends_modify, hlimits]
  exact ⟨fun hover => absurd hu64 (Nat.not_le.mpr hover),
    fun _ => ⟨fun hover => absurd h (Nat.not_le.mpr hover), fun _ => trivial⟩⟩

theorem accountOutput_spec {bytes : ℕ} (h : Books limits pending s) :
    Ends (fun _ t => Books limits (pending + bytes) t) (fun _ t => Books limits pending t)
      (accountOutput bytes : Method σ ν Unit) s := by
  simp only [accountOutput, ends_bind, ends_get, ends_reject, ends_modify]
  refine ⟨fun _ => h, fun _ =>
    (checkCumulativeOutput_spec _).ends (fun _ hbudget => ?_) fun _ _ => h⟩
  rw [h.limits_eq] at hbudget
  have hout := h.output
  exact { h with
    output := by dsimp only; omega
    output_le := hbudget }

theorem putOut_spec {record : Record} (h : Books limits pending s) :
    Ends (fun _ t => Books limits (pending + recordLen record) t)
      (fun _ t => Books limits pending t) (putOut V record : Method σ ν Unit) s := by
  simp only [putOut, ends_bind, ends_get, ends_modify, ends_check_mapError]
  have hnext : Books limits pending
      { s with outputValidator := (V.push s.outputValidator record).2 } := { h with }
  exact ⟨fun _ _ => accountOutput_spec hnext, fun _ _ => hnext⟩

/-- What the stage may hand on is in the books as soon as it does. -/
theorem accountStage_spec {index bytes : ℕ} (h : Books limits pending s) :
    Ends (fun _ t => Books limits pending (t.seen (.emitted index bytes)))
      (fun _ t => Books limits pending t)
      (accountStage index bytes : Method σ ν Unit) s := by
  simp only [accountStage, ends_bind, ends_get, ends_require, ends_reject, ends_modify]
  refine ⟨fun before hbefore => ⟨fun _ => h, fun _ =>
    (checkCumulativeOutput_spec _).ends (fun _ hbudget => ?_) fun _ _ => h⟩, fun _ => h⟩
  rw [h.limits_eq] at hbudget
  have hstages : ∀ stage, total (Event.passed stage) (s.events ++ [.emitted index bytes]) =
      (s.stageOutputBytes.set index (before + bytes)).getD stage 0 := by
    intro stage
    obtain ⟨hlt, hget⟩ := List.getElem?_eq_some_iff.mp hbefore
    have hstage := h.stages stage
    by_cases heq : index = stage
    · subst heq
      simp only [List.getD_eq_getElem?_getD, hbefore, Option.getD_some] at hstage
      simp [Event.passed, hlt, hstage]
    · simp only [List.getD_eq_getElem?_getD] at hstage ⊢
      simp [Event.passed, heq, hstage]
  have hpast := h.past.now
  refine { h with
    past := h.past.concat ⟨?_, ?_, fun stage => ?_, ?_⟩
    input := by simpa [Event.input] using h.input
    output := by simpa [Event.output] using h.output
    stages := hstages
    fuel := by simpa [Event.fuel] using h.fuel }
  · simpa [Event.input] using hpast.accepted
  · simpa [Event.input, Event.output] using hpast.returned
  · rw [total_concat Event.input]
    by_cases heq : index = stage
    · subst heq
      have hstage := h.stages index
      simp only [List.getD_eq_getElem?_getD, hbefore, Option.getD_some] at hstage
      simpa [Event.passed, Event.input, hstage, h.input] using hbudget
    · simpa [Event.passed, Event.input, heq] using hpast.emitted stage
  · simpa [Event.fuel] using hpast.spent

theorem transformAt_spec {index : ℕ} {payload : Bytes} (h : Books limits pending s) :
    Ends
      (fun outcome t => Books limits pending t ∧ t.plugins.length = s.plugins.length ∧
        ∀ out, outcome = .emit out → out.length ≤ vecMax)
      (fun _ t => Books limits pending t) (transformAt index payload : Method σ ν _) s := by
  simp only [transformAt, ends_bind]
  refine remainingFuel_spec.ends (fun remaining hremaining => ?_) fun _ _ => h
  simp only [ends_get]
  split
  · rename_i plugin hplugin
    simp only [ends_bind, ends_modify, ends_check_mapError]
    have haccounted := h.accounted plugin (List.mem_of_getElem? hplugin)
    have hreports := haccounted.metered.transform_reports plugin.state payload remaining
    have hspends := haccounted.metered.transform_spends plugin.state payload remaining
    rw [h.limits_eq] at hremaining
    have hfuel : s.fuelConsumed + (plugin.filter.fuelConsumed
        (plugin.filter.transform plugin.state payload remaining).2 -
          plugin.filter.fuelConsumed plugin.state) ≤ limits.maxCumulativeFuel := by omega
    rw [haccounted.fuel_eq]
    refine (accountFuel_spec limits ?_ ?_).mono ?_ (fun _ _ => False.elim)
    · exact h.limits_eq
    · exact hfuel
    rintro _ _ rfl
    -- the plugin has its new total, the others have theirs
    have hplugins : ∀ other, some other ∈ s.plugins.set index (some { plugin with
        state := (plugin.filter.transform plugin.state payload remaining).2
        accountedFuel := plugin.filter.fuelConsumed
          (plugin.filter.transform plugin.state payload remaining).2 }) → other.Accounted := by
      intro other hother
      obtain hother | hother := List.mem_or_eq_of_mem_set hother
      · exact h.accounted other hother
      · cases hother
        exact ⟨haccounted.metered, rfl⟩
    have hbooks := h.spent hfuel hplugins
    refine ⟨fun outcome houtcome => ⟨hbooks, by simp, ?_⟩, fun _ _ => hbooks⟩
    rintro out rfl
    exact haccounted.metered.transform_size (Prod.ext houtcome rfl)
  · exact h

theorem routeLoop_spec (rest : ℕ) {index : ℕ} {record : Record} (hheld : Held record)
    (h : Books limits pending s) :
    Ends (fun out t => Books limits (pending + bytesOf out.toList) t)
      (fun _ t => Books limits pending t) (routeLoop V rest index record : Method σ ν _) s := by
  induction rest generalizing index record s with
  | zero =>
      simp only [routeLoop, ends_bind, ends_pure, Option.toList_some, bytesOf_singleton hheld]
      exact putOut_spec h
  | succ rest ih =>
      simp only [routeLoop, ends_bind]
      refine (transformAt_spec h).mono ?_ fun _ _ h => h
      rintro (payload | _) t ⟨ht, -, hsize⟩
      · have hheld' : Held { record with payload } := ⟨hsize payload rfl, hheld.2⟩
        simp only [ends_bind, ends_modify, bytesOf_singleton hheld']
        refine (checkIntermediate_spec _).ends (fun _ _ => ?_) fun _ _ => ht
        exact (accountStage_spec ht).mono (fun _ _ h => ih hheld' h) fun _ _ h => h
      · exact ht

theorem routeFrom_spec {start : ℕ} {record : Record} (hheld : Held record)
    (h : Books limits pending s) :
    Ends (fun out t => Books limits (pending + bytesOf out.toList) t)
      (fun _ t => Books limits pending t) (routeFrom V start record : Method σ ν _) s := by
  simp only [routeFrom, ends_bind, ends_get]
  exact routeLoop_spec _ hheld h

/-- Whether it fails or not, a call of `process` leaves the books in order. -/
theorem process_spec {now : ℕ} {record : Record} (hheld : Held record) (h : Books limits 0 s) :
    Ends (fun _ t => Books limits 0 t) (fun _ t => Books limits 0 t)
      (process V now record : Method σ ν _) s := by
  simp only [process, ends_bind]
  refine (checkDeadline_spec now).ends (fun _ _ => ?_) fun _ _ => h
  simp only [ends_get, ends_check, ends_modify, ends_pure]
  refine ⟨fun inputBytes hinput => ?_, fun _ _ => h⟩
  obtain ⟨rfl, hmax⟩ : s.inputBytes + recordLen record = inputBytes ∧
      s.inputBytes + recordLen record ≤ s.limits.maxInputBytes := by
    simp only [checkedTotal, bind_eq_ok, rejectIf_eq_ok, exists_const, pure_eq_ok] at hinput
    exact ⟨hinput.2.2, Nat.not_lt.mp hinput.2.1⟩
  rw [bytesOf_singleton hheld]
  exact (routeFrom_spec hheld (h.accepted hmax)).mono
    (fun _ _ h => h.returned) fun _ _ h => h

/-- A plugin that fails to finish ends the session; what it spent was there to
be spent. -/
theorem finishPlugin_spec {now index : ℕ} (h : Books limits pending s) :
    Ends (fun out t => Books limits (pending + bytesOf out.toList) t)
      (fun _ t => AlwaysWithinBudget limits.toPipelineLimits t.events)
      (finishPlugin V now index : Method σ ν _) s := by
  simp only [finishPlugin, ends_bind]
  refine (checkDeadline_spec now).ends (fun _ _ => ?_) fun _ _ => h.past
  simp only [ends_get]
  split
  · rename_i plugin hplugin
    have haccounted := h.accounted plugin (List.mem_of_getElem? hplugin)
    have hbooks : Books limits pending { s with plugins := s.plugins.set index none } :=
      { h with accounted := fun other hother => h.accounted other (mem_of_mem_set_none hother) }
    simp only [ends_bind, ends_modify]
    refine remainingFuel_spec.ends (fun remaining hremaining => ?_) fun _ _ => h.past
    rw [h.limits_eq] at hremaining
    cases hfinish : plugin.filter.finish plugin.state remaining with
    | error error =>
        simp only [ends_bind, ends_modify, ends_throw]
        have hlost := haccounted.metered.lost_le plugin.state remaining
        have hfuel := h.fuel
        exact hbooks.past.spend (by dsimp only at hremaining ⊢; omega)
    | ok finished =>
        obtain ⟨trailing, used⟩ := finished
        have hreports := haccounted.metered.finish_reports hfinish
        have hspends := haccounted.metered.finish_spends hfinish
        have hheld : Held ⟨trailing, []⟩ :=
          ⟨haccounted.metered.finish_size hfinish, Nat.zero_le _⟩
        have hfuel : s.fuelConsumed + (used - plugin.filter.fuelConsumed plugin.state) ≤
            limits.maxCumulativeFuel := by
          dsimp only at hremaining
          omega
        simp only [ends_bind, ends_modify]
        rw [haccounted.fuel_eq]
        refine (accountFuel_spec limits ?_ ?_).mono ?_ fun _ _ => False.elim
        · exact h.limits_eq
        · exact hfuel
        rintro _ _ rfl
        have hspent := hbooks.spent hfuel hbooks.accounted
        rw [ends_reject]
        refine ⟨fun _ => hspent.past, fun _ => ?_⟩
        rw [ends_ite]
        refine ⟨fun _ => hspent, fun _ => ?_⟩
        simp only [ends_bind, ends_modify, bytesOf_singleton hheld]
        refine (checkIntermediate_spec _).ends (fun _ _ => ?_) fun _ _ => hspent.past
        exact (accountStage_spec hspent).mono
          (fun _ _ h => (routeFrom_spec hheld h).mono (fun _ _ h => h) fun _ _ h => h.past)
          fun _ _ h => h.past
  · exact h.past

theorem finishLoop_spec (clock : ℕ → ℕ) (rest : ℕ) {index : ℕ} (h : Books limits pending s) :
    Ends (fun records t => Books limits (pending + bytesOf records) t)
      (fun _ t => AlwaysWithinBudget limits.toPipelineLimits t.events)
      (finishLoop V clock rest index : Method σ ν _) s := by
  induction rest generalizing index pending s with
  | zero => exact h
  | succ rest ih =>
      simp only [finishLoop, ends_bind, ends_pure]
      refine (finishPlugin_spec h).mono (fun record t ht => ?_) fun _ _ h => h
      refine (ih ht).mono (fun records t ht => ?_) fun _ _ h => h
      rwa [bytesOf_append, ← Nat.add_assoc]

theorem finish_spec (clock : ℕ → ℕ) (h : Books limits 0 s) :
    Ends (fun _ t => AlwaysWithinBudget limits.toPipelineLimits t.events)
      (fun _ t => AlwaysWithinBudget limits.toPipelineLimits t.events)
      (finish V clock : Method σ ν _) s := by
  simp only [finish, finishWithFuel, ends_bind, ends_get]
  refine (finishLoop_spec clock _ h).mono (fun records t ht => ?_) fun _ _ h => h
  simp only [ends_check_mapError, ends_modify, ends_pure]
  exact ⟨fun _ _ => ht.returned.past, fun _ _ => ht.past⟩

end Session

/-- The fuel of the guests that were started so far is what the loop counted. -/
theorem startGuests_spec {engines : List (Engine σ)} {fuelConsumed : ℕ} {events : List Event}
    (hmetered : ∀ engine ∈ engines, engine.Metered)
    (hpast : AlwaysWithinBudget limits.toPipelineLimits events)
    (hfuel : total Event.fuel events = fuelConsumed) :
    Ends
      (fun started later => AlwaysWithinBudget limits.toPipelineLimits later ∧
        total Event.fuel later = started.2 ∧
        (∀ event ∈ later, event ∈ events ∨ ∃ fuel, event = .spent fuel) ∧
        ∀ plugin ∈ started.1, plugin.Accounted)
      (fun _ later => AlwaysWithinBudget limits.toPipelineLimits later)
      (startGuests limits.toPipelineLimits engines fuelConsumed) events := by
  induction engines generalizing fuelConsumed events with
  | nil => exact ⟨hpast, hfuel, fun event h => .inl h, nofun⟩
  | cons engine engines ih =>
      obtain ⟨hengine, hengines⟩ := List.forall_mem_cons.mp hmetered
      have hmax : fuelConsumed ≤ limits.maxCumulativeFuel := hfuel ▸ hpast.now.spent
      simp only [startGuests]
      cases hstart : engine.start (limits.maxCumulativeFuel - fuelConsumed) with
      | error error =>
          have hlost := hengine.lost_le (limits.maxCumulativeFuel - fuelConsumed)
          simp only [ends_bind, ends_modify, ends_throw]
          exact hpast.spend (by omega)
      | ok state =>
          have hspends := hengine.start_spends hstart
          have hspent : AlwaysWithinBudget limits.toPipelineLimits
              (events ++ [.spent (engine.filter.fuelConsumed state)]) := hpast.spend (by omega)
          simp only [ends_bind, ends_modify, ends_reject, ends_pure]
          refine ⟨fun _ => hspent, fun _ => ⟨fun _ => hspent, fun _ => ?_⟩⟩
          refine (ih hengines hspent (by simp [Event.fuel, hfuel])).mono ?_ fun _ _ h => h
          rintro ⟨plugins, fuel⟩ later ⟨hlater, htotal, hevents, hplugins⟩
          refine ⟨hlater, htotal, fun event hevent => ?_, fun plugin hplugin => ?_⟩
          · obtain hold | hnew := hevents event hevent
            · obtain hold | hnew := List.mem_append.mp hold
              · exact .inl hold
              · exact .inr ⟨_, List.mem_singleton.mp hnew⟩
            · exact .inr hnew
          · obtain rfl | hmem := List.mem_cons.mp hplugin
            · exact ⟨hengine.filter, rfl⟩
            · exact hplugins plugin hmem

/-- The other measures do not see what is spent. -/
theorem total_eq_zero {measure : Event → ℕ} {events : List Event}
    (hspent : ∀ event ∈ events, ∃ fuel, event = .spent fuel)
    (hmeasure : ∀ fuel, measure (.spent fuel) = 0) : total measure events = 0 := by
  induction events with
  | nil => rfl
  | cons event events ih =>
      obtain ⟨⟨fuel, rfl⟩, hrest⟩ := List.forall_mem_cons.mp hspent
      simpa [total, hmeasure] using ih hrest

theorem startSession_spec {engines : List (MeteredEngine σ)} {deadline : ℕ}
    {validator : Except MaskuraError ν} :
    Ends (fun s _ => Books limits 0 s)
      (fun _ events => AlwaysWithinBudget limits.toPipelineLimits events)
      (startSession limits.toPipelineLimits (engines.map (·.1)) deadline validator) [] := by
  have hnil := alwaysWithinBudget_nil limits.toPipelineLimits
  have hmetered : ∀ engine ∈ (engines.map (·.1)).filter (·.enabled), engine.Metered := by
    intro engine hengine
    obtain ⟨metered, -, rfl⟩ := List.mem_map.mp (List.mem_of_mem_filter hengine)
    exact metered.2
  simp only [startSession, ends_bind, ends_reject, ends_get, ends_pure, ends_check_mapError]
  refine ⟨fun _ => hnil, fun _ => (startGuests_spec hmetered hnil rfl).mono ?_ fun _ _ h => h⟩
  rintro ⟨plugins, fuel⟩ events ⟨hpast, hfuel, hevents, hplugins⟩
  refine ⟨fun _ _ => ?_, fun _ _ => hpast⟩
  have hspent : ∀ event ∈ events, ∃ fuel, event = .spent fuel := fun event hevent =>
    (hevents event hevent).resolve_left (List.not_mem_nil)
  refine ⟨rfl, hpast, total_eq_zero hspent fun _ => rfl, ?_, Nat.zero_le _, fun stage => ?_,
    hfuel, fun plugin hplugin => ?_⟩
  · rw [total_eq_zero hspent fun _ => rfl]
  · rw [total_eq_zero hspent fun _ => rfl]
    simp only [List.getD_eq_getElem?_getD, List.getElem?_replicate]
    split <;> rfl
  · obtain ⟨started, hstarted, heq⟩ := List.mem_map.mp hplugin
    cases heq
    exact hplugins plugin hstarted

theorem processCalls_books (calls : List Call) (h : Books limits 0 s) :
    Books limits 0 (processCalls V s calls) := by
  induction calls generalizing s with
  | nil => exact h
  | cons call calls ih => exact ih (Session.process_spec call.2.2 h).after

end Specs

/-- At every moment from the start of a session to the end of its `finish`,
whichever calls fail, what it returned and what each of its stages handed on fit
into the budget for the bytes it took, it took no more than it may, and its
filters have spent no more fuel than they may. -/
theorem history_alwaysWithinBudget (limits : MachineLimits) (engines : List (MeteredEngine σ))
    (deadline : ℕ) (validator : Except MaskuraError ν) (calls : List Call) (clock : ℕ → ℕ) :
    AlwaysWithinBudget limits.toPipelineLimits
      (history V limits engines deadline validator calls clock) := by
  have hstart : Ends (fun s _ => Books limits 0 s)
      (fun _ events => AlwaysWithinBudget limits.toPipelineLimits events)
      (startSession limits.toPipelineLimits (engines.map (·.1)) deadline validator) [] :=
    startSession_spec
  unfold history
  cases hexec : (startSession limits.toPipelineLimits (engines.map (·.1)) deadline
      validator).exec [] with
  | mk result events =>
      cases result with
      | error error => exact hstart.error hexec
      | ok s =>
          have hbooks : Books limits 0 (processCalls V s calls) :=
            processCalls_books calls (hstart.ok hexec)
          exact (Session.finish_spec clock hbooks).after

/-- A filter that hands on the first two bytes of a payload, for one unit of
fuel. -/
def clipFilter : Filter ℕ where
  transform spent payload fuel :=
    if fuel = 0 then (.error ⟨.wasmFuel, "Wasm fuel exhausted"⟩, spent)
    else (.ok (.emit (payload.take 2)), spent + 1)
  finish spent _ := .ok ([], spent)
  fuelConsumed := id
  lost _ _ := 0

theorem clipFilter_metered : clipFilter.Metered where
  transform_reports := by
    intro spent payload fuel
    simp only [clipFilter]
    split <;> simp
  transform_spends := by
    intro spent payload fuel
    simp only [clipFilter]
    split <;> simp only [id] <;> omega
  transform_size := by
    intro spent payload fuel out t h
    simp only [clipFilter] at h
    split at h
    · simp at h
    · simp only [Prod.mk.injEq, Except.ok.injEq, TransformOutcome.emit.injEq] at h
      rw [← h.1, List.length_take]
      exact (Nat.min_le_left _ _).trans (by decide)
  finish_reports := fun h => by cases h; exact le_rfl
  finish_spends := fun h => by cases h; exact Nat.le_add_right _ _
  finish_size := fun h => by cases h; exact Nat.zero_le _
  lost_le := fun _ _ => Nat.zero_le _

def clipEngine : MeteredEngine ℕ :=
  ⟨⟨"clip", true, clipFilter, fun _ => .ok 0, fun _ => 0⟩, clipFilter_metered,
    fun h => by cases h; exact Nat.zero_le _, fun _ => Nat.zero_le _⟩

def anyOutput : Validator Unit := ⟨fun _ _ => (.ok (), ()), fun _ => .ok ()⟩

/-- The second record is over the limit of the input, the third is out of fuel. -/
theorem clipped_history :
    history anyOutput
      ⟨⟨9, 9, 12, 9, 2, 0, 1, 1⟩, by decide⟩ [clipEngine] 10 (.ok ())
      [(0, ⟨⟨[1, 2, 3, 4], [10]⟩, by decide⟩), (0, ⟨⟨[5, 6, 7, 8, 9, 0, 1], [10]⟩, by decide⟩),
        (0, ⟨⟨[5], [10]⟩, by decide⟩)] (fun _ => 1) =
      [.spent 0, .accepted 5, .spent 1, .emitted 0 3, .returned 3, .accepted 2] := by
  decide +kernel

end Maskura.Pipeline
