import Maskura.Lib.Cascade
import Maskura.Pipeline.Session
import Maskura.Records.Split
import Maskura.Records.Validator

/-!
A session is the composition of its filters: what it puts out is what the first
filter makes of all records, what the second makes of that, and so on. A session
that does not give this failed for one of three reasons: a limit, a filter, or
an output that is not valid in the format.

A filter is any state machine. The session gives every call the fuel that is
left; the fuel can make a call fail, but not change what a call that succeeds
does.
-/

namespace Maskura.Pipeline

open Lib Lib.Cascade Lib.Stateful Records

/-- What the filter does when nothing limits it. -/
structure Machine (σ : Type) where
  step : σ → Bytes → TransformOutcome × σ
  /-- What `finish` returns. -/
  trailing : σ → Bytes

variable {σ ν τ α : Type}

structure Filter.Runs (filter : Filter σ) (machine : Machine σ) : Prop where
  transform_ok : ∀ {s payload fuel outcome t}, filter.transform s payload fuel = (.ok outcome, t) →
    machine.step s payload = (outcome, t)
  finish_ok : ∀ {s fuel bytes used}, filter.finish s fuel = .ok (bytes, used) →
    machine.trailing s = bytes

/-- An engine that starts a machine in its initial state. -/
structure MachineEngine (σ : Type) extends Engine σ where
  machine : Machine σ
  initial : σ
  runs : filter.Runs machine
  start_ok : ∀ {fuel s}, start fuel = .ok s → s = initial

/-- The machine as a transducer of records: it keeps the separators. -/
def Machine.transducer (m : Machine σ) : Transducer σ Record where
  step s record :=
    match m.step s record.payload with
    | (.emit payload, t) => (some ⟨payload, record.separator⟩, t)
    | (.drop, t) => (none, t)
  flush s := if (m.trailing s).isEmpty then none else some ⟨m.trailing s, []⟩

def MachineEngine.running (engine : MachineEngine σ) : Running σ Record :=
  ⟨engine.machine.transducer, engine.initial⟩

def PluginSession.Runs (plugin : PluginSession σ) (m : Running σ Record) : Prop :=
  ∃ machine, plugin.filter.Runs machine ∧ m = ⟨machine.transducer, plugin.state⟩

namespace Session

variable (V : Validator ν)

/-- `process` for one record after the other; the clock is read once for each. -/
def processAll (clock : ℕ → ℕ) : ℕ → List Record → Method σ ν (List Record)
  | _, [] => return []
  | tick, record :: records => do
      let out ← process V (clock tick) record
      let outs ← processAll clock (tick + 1) records
      return out.toList ++ outs

/-- A whole session: the records, and then the end. -/
def run (clock : ℕ → ℕ) (records : List Record) : Method σ ν (List Record) := do
  let out ← processAll V clock 0 records
  let last ← finish V fun index => clock (records.length + index)
  return out ++ last

end Session

/-! ### Expected failures -/

/-- The call succeeds with a result of this kind, or fails without a panic. -/
abbrev Ensures (call : Stateful Failure τ α) (s : τ) (post : α → τ → Prop) : Prop :=
  Ends post (fun failure _ => failure.Expected) call s

theorem Ensures.mono {call : Stateful Failure τ α} {s : τ} {post post' : α → τ → Prop}
    (h : Ensures call s post) (hpost : ∀ a t, post a t → post' a t) : Ensures call s post' :=
  Ends.mono h hpost fun _ _ h => h

/-- What is kept by accounting. -/
def SameRow (s t : Session σ ν) : Prop :=
  t.plugins = s.plugins ∧ t.stageOutputBytes.length = s.stageOutputBytes.length

variable {V : Validator ν} {s : Session σ ν}

theorem ensures_accountFuel {consumed : ℕ} :
    Ensures (Session.accountFuel consumed) s fun _ => SameRow s := by
  simp only [Session.accountFuel, ends_bind, ends_get, ends_reject, ends_modify]
  exact ⟨fun _ => trivial, fun _ => ⟨fun _ => trivial, fun _ => ⟨rfl, rfl⟩⟩⟩

theorem ensures_accountStage {index bytes : ℕ} (h : index < s.stageOutputBytes.length) :
    Ensures (Session.accountStage index bytes) s fun _ => SameRow s := by
  simp only [Session.accountStage, ends_bind, ends_get, ends_require, ends_reject, ends_modify,
    List.getElem?_eq_getElem h]
  refine ⟨fun before _ => ⟨fun _ => trivial, fun _ => ?_⟩, fun hnone => by cases hnone⟩
  exact (Session.checkCumulativeOutput_spec _).ends (fun _ _ => ⟨rfl, List.length_set⟩) fun _ h => h

theorem ensures_putOut {record : Record} :
    Ensures (Session.putOut V record) s fun _ => SameRow s := by
  simp only [Session.putOut, Session.accountOutput, ends_bind, ends_get, ends_modify,
    ends_check_mapError, ends_reject]
  refine ⟨fun _ _ => ⟨fun _ => trivial, fun _ => ?_⟩, fun _ _ => trivial⟩
  exact (Session.checkCumulativeOutput_spec _).ends (fun _ _ => ⟨rfl, rfl⟩) fun _ h => h

/-! ### One record -/

/-- The plugins behind `front`, none of them finished, run these machines. -/
structure Row (front : List (Option (PluginSession σ))) (ms : List (Running σ Record))
    (s : Session σ ν) : Prop where
  plugins : ∃ ps : List (PluginSession σ),
    s.plugins = front ++ ps.map some ∧ List.Forall₂ PluginSession.Runs ps ms
  stages : s.stageOutputBytes.length = s.plugins.length

variable {front : List (Option (PluginSession σ))} {ms : List (Running σ Record)}
  {m : Running σ Record}

theorem Row.same {t : Session σ ν} (h : Row front ms s) (hsame : SameRow s t) : Row front ms t := by
  obtain ⟨hplugins, hlength⟩ := hsame
  exact ⟨hplugins ▸ h.plugins, by rw [hlength, hplugins, h.stages]⟩

/-- The plugin behind `front` is the first of the row. -/
theorem Row.head {plugin : PluginSession σ} (h : Row (front ++ [some plugin]) ms s)
    (hplugin : plugin.Runs m) : Row front (m :: ms) s := by
  obtain ⟨ps, hplugins, hms⟩ := h.plugins
  exact ⟨⟨plugin :: ps, by simp [hplugins], .cons hplugin hms⟩, h.stages⟩

/-- A row that is not empty begins with a plugin. -/
theorem Row.uncons (h : Row front (m :: ms) s) :
    ∃ plugin : PluginSession σ, plugin.Runs m ∧ s.plugins[front.length]? = some (some plugin) ∧
      Row (front ++ [some plugin]) ms s ∧
      ∀ next, Row (front ++ [next]) ms { s with plugins := s.plugins.set front.length next } := by
  obtain ⟨ps, hplugins, hms⟩ := h.plugins
  obtain ⟨plugin, rest, hm, hrest, rfl⟩ := List.forall₂_cons_right_iff.mp hms
  refine ⟨plugin, hm, by simp [hplugins], ⟨⟨rest, by simp [hplugins], hrest⟩, h.stages⟩,
    fun next => ⟨⟨rest, by simp [hplugins], hrest⟩, ?_⟩⟩
  simpa using h.stages

theorem Row.index_lt (h : Row front (m :: ms) s) : front.length < s.stageOutputBytes.length := by
  obtain ⟨plugin, -, hplugin, -⟩ := h.uncons
  rw [h.stages]
  exact (List.getElem?_eq_some_iff.mp hplugin).1

/-- A plugin makes of a payload what its machine makes of it. -/
theorem ensures_transformAt {record : Record} (h : Row front (m :: ms) s) :
    Ensures (Session.transformAt front.length record.payload) s fun outcome t =>
      Row front ((m.push record).2 :: ms) t ∧
        (m.push record).1 = match outcome with
          | .emit payload => some ⟨payload, record.separator⟩
          | .drop => none := by
  obtain ⟨plugin, ⟨machine, hruns, rfl⟩, hplugin, -, hset⟩ := h.uncons
  simp only [Session.transformAt, ends_bind, ends_get]
  refine Session.remainingFuel_spec.ends (fun remaining _ => ?_) fun _ h => h
  simp only [hplugin, ends_bind, ends_modify, ends_check_mapError]
  refine ensures_accountFuel.mono fun _ t ht => ⟨fun outcome houtcome => ?_, fun _ _ => trivial⟩
  have hstep := hruns.transform_ok (Prod.ext houtcome rfl)
  have hrow := ((hset _).same ht).head ⟨machine, hruns, rfl⟩
  cases outcome <;> simpa [Running.push, Machine.transducer, hstep] using hrow

/-- A record routed by the session is one routed through the row. -/
theorem ensures_routeLoop {record : Record} (h : Row front ms s) :
    Ensures (Session.routeLoop V ms.length front.length record) s fun out t =>
      out = (route ms record).1 ∧ Row front (route ms record).2 t := by
  induction ms generalizing front s record with
  | nil =>
      simp only [List.length_nil, Session.routeLoop, ends_bind, ends_pure]
      exact ensures_putOut.mono fun _ t ht => ⟨rfl, h.same ht⟩
  | cons m ms ih =>
      simp only [List.length_cons, Session.routeLoop, ends_bind, route_cons]
      refine (ensures_transformAt h).mono fun outcome t ht => ?_
      obtain ⟨hrow, hpush⟩ := ht
      rw [hpush]
      cases outcome with
      | drop => exact ⟨rfl, hrow⟩
      | emit payload =>
          simp only [ends_bind, ends_modify]
          refine (Session.checkIntermediate_spec _).ends (fun _ _ => ?_) fun _ h => h
          refine (ensures_accountStage hrow.index_lt).mono fun _ u hu => ?_
          obtain ⟨plugin, hplugin, -, hrest, -⟩ := (hrow.same hu).uncons
          have hroute := @ih (u.seen (.emitted front.length (bytesOf [{ record with payload }])))
            (front ++ [some plugin]) ⟨payload, record.separator⟩ ⟨hrest.plugins, hrest.stages⟩
          rw [List.length_append, List.length_singleton] at hroute
          exact hroute.mono fun _ _ hresult => ⟨hresult.1, hresult.2.head hplugin⟩

theorem ensures_routeFrom {record : Record} (h : Row front ms s) :
    Ensures (Session.routeFrom V front.length record) s fun out t =>
      out = (route ms record).1 ∧ Row front (route ms record).2 t := by
  obtain ⟨ps, hplugins, hms⟩ := h.plugins
  have hlength : s.plugins.length - front.length = ms.length := by simp [hplugins, hms.length_eq]
  simp only [Session.routeFrom, ends_bind, ends_get, hlength]
  exact ensures_routeLoop h

/-! ### The whole session -/

theorem checkedTotal_expected {code : Code} {kind : String} {current added limit : ℕ}
    {failure : Failure} (h : checkedTotal code kind current added limit = .error failure) :
    failure.Expected := by
  unfold checkedTotal rejectIf at h
  split_ifs at h
  all_goals cases h
  all_goals trivial

theorem ensures_process {now : ℕ} {record : Record} (h : Row [] ms s) :
    Ensures (Session.process V now record) s fun out t =>
      out = (route ms record).1 ∧ Row [] (route ms record).2 t := by
  simp only [Session.process, ends_bind, ends_get, ends_modify, ends_pure]
  refine (Session.checkDeadline_spec now).ends (fun _ _ => ?_) fun _ h => h
  rw [ends_check]
  refine ⟨fun inputBytes _ => ?_, fun _ hfailure => checkedTotal_expected hfailure⟩
  have hroute := @ensures_routeFrom _ _ V (Session.seen { s with inputBytes }
    (.accepted (bytesOf [record]))) [] ms record ⟨h.plugins, h.stages⟩
  exact hroute.mono fun _ _ hresult => ⟨hresult.1, hresult.2.plugins, hresult.2.stages⟩

theorem ensures_processAll {clock : ℕ → ℕ} {tick : ℕ} {records : List Record} (h : Row [] ms s) :
    Ensures (Session.processAll V clock tick records) s fun out t =>
      out = (routeAll ms records).1 ∧ Row [] (routeAll ms records).2 t := by
  induction records generalizing tick s ms with
  | nil => exact ⟨rfl, h⟩
  | cons record records ih =>
      simp only [Session.processAll, ends_bind, ends_pure]
      refine (ensures_process h).mono fun out t ht => ?_
      refine (ih ht.2).mono fun outs u hu => ⟨?_, hu.2⟩
      rw [routeAll, ht.1, hu.1]

/-- One plugin is finished: what it still has goes through the row behind it. -/
theorem ensures_finishPlugin {now : ℕ} (h : Row front (m :: ms) s) :
    Ensures (Session.finishPlugin V now front.length) s fun out t =>
      match m.transducer.flush m.state with
      | none => out = none ∧ Row (front ++ [none]) ms t
      | some record => out = (route ms record).1 ∧ Row (front ++ [none]) (route ms record).2 t := by
  obtain ⟨plugin, ⟨machine, hruns, rfl⟩, hplugin, -, hset⟩ := h.uncons
  simp only [Session.finishPlugin, ends_bind, ends_get]
  refine (Session.checkDeadline_spec now).ends (fun _ _ => ?_) fun _ h => h
  simp only [hplugin, ends_bind, ends_modify]
  refine Session.remainingFuel_spec.ends (fun remaining _ => ?_) fun _ h => h
  cases hfinish : plugin.filter.finish plugin.state remaining with
  | error error => exact trivial
  | ok result =>
      obtain ⟨trailing, used⟩ := result
      have hflush : machine.transducer.flush plugin.state =
          if trailing.isEmpty then none else some ⟨trailing, []⟩ := by
        rw [← hruns.finish_ok hfinish]
        rfl
      simp only [hflush, ends_bind, ends_modify]
      refine ensures_accountFuel.mono fun _ t ht => ?_
      have hrow := (hset none).same ht
      rw [ends_reject]
      refine ⟨fun _ => trivial, fun _ => ?_⟩
      cases trailing with
      | nil => exact ⟨rfl, hrow⟩
      | cons byte trailing =>
          simp only [List.isEmpty_cons, Bool.false_eq_true, if_false, ends_bind, ends_modify]
          refine (Session.checkIntermediate_spec _).ends (fun _ _ => ?_) fun _ h => h
          have hindex : front.length < t.stageOutputBytes.length := h.index_lt.trans_eq ht.2.symm
          refine (ensures_accountStage hindex).mono fun _ u hu => ?_
          have hroute := @ensures_routeFrom _ _ V (u.seen (.emitted front.length
            (bytesOf [⟨byte :: trailing, []⟩]))) (front ++ [none]) ms ⟨byte :: trailing, []⟩
            ⟨(hrow.same hu).plugins, (hrow.same hu).stages⟩
          rw [List.length_append, List.length_singleton] at hroute
          exact hroute

theorem ensures_finishLoop {clock : ℕ → ℕ} {rest : ℕ} (h : Row front ms s)
    (hrest : ms.length = rest) :
    Ensures (Session.finishLoop V clock rest front.length) s fun out _ => out = flushAll ms := by
  induction rest generalizing front ms s with
  | zero =>
      obtain rfl := List.length_eq_zero_iff.mp hrest
      rw [flushAll]
      rfl
  | succ rest ih =>
      obtain ⟨m, ms, rfl⟩ := List.exists_cons_of_length_eq_add_one hrest
      rw [List.length_cons, Nat.succ_inj] at hrest
      have hlength : front.length + 1 = (front ++ [none]).length := by simp
      simp only [Session.finishLoop, flushAll, hlength, ends_bind, ends_pure]
      refine (ensures_finishPlugin h).mono fun out t ht => ?_
      cases hflush : m.transducer.flush m.state with
      | none =>
          simp only [hflush] at ht
          obtain ⟨rfl, hrow⟩ := ht
          exact (ih hrow hrest).mono fun _ _ houts => houts
      | some record =>
          simp only [hflush] at ht
          obtain ⟨rfl, hrow⟩ := ht
          exact (ih hrow (by rw [length_route, hrest])).mono fun _ _ houts => congrArg _ houts

theorem ensures_finish {clock : ℕ → ℕ} (h : Row [] ms s) :
    Ensures (Session.finish V clock) s fun out _ => out = flushAll ms := by
  obtain ⟨ps, hplugins, hms⟩ := h.plugins
  have hlength : ms.length = s.plugins.length := by simp [hplugins, hms.length_eq]
  simp only [Session.finish, Session.finishWithFuel, ends_bind, ends_get, ends_modify, ends_pure,
    ends_check_mapError]
  exact (ensures_finishLoop h hlength).mono fun out t hout => ⟨fun _ _ => hout, fun _ _ => trivial⟩

/-- A session that does not fail gives what its filters give, one after the other. -/
theorem ensures_run {clock : ℕ → ℕ} {records : List Record} (h : Row [] ms s) :
    Ensures (Session.run V clock records) s fun out _ => out = staged ms records := by
  simp only [Session.run, ends_bind, ends_pure]
  refine (ensures_processAll h).mono fun out t ht => ?_
  refine (ensures_finish ht.2).mono fun last _ hlast => ?_
  rw [← routeAll_flushAll, ht.1, hlast]

theorem ensures_startGuests {limits : PipelineLimits} {engines : List (MachineEngine σ)}
    {fuelConsumed : ℕ} {events : List Event} :
    Ensures (startGuests limits (engines.map (·.toEngine)) fuelConsumed) events fun started _ =>
      List.Forall₂ PluginSession.Runs started.1 (engines.map MachineEngine.running) := by
  induction engines generalizing fuelConsumed events with
  | nil => exact .nil
  | cons engine engines ih =>
      simp only [List.map_cons, startGuests]
      cases hstart : engine.start (limits.maxCumulativeFuel - fuelConsumed) with
      | error error => exact trivial
      | ok state =>
          simp only [ends_bind, ends_modify, ends_reject, ends_pure]
          refine ⟨fun _ => trivial, fun _ => ⟨fun _ => trivial, fun _ => ih.mono ?_⟩⟩
          intro started _ hstarted
          obtain rfl := engine.start_ok hstart
          exact .cons ⟨engine.machine, engine.runs, rfl⟩ hstarted

theorem start_row {limits : PipelineLimits} {deadline : ℕ} {validator : Except MaskuraError ν}
    {engines : List (MachineEngine σ)} {events : List Event}
    (h : (startSession limits (engines.map (·.toEngine)) deadline validator).exec [] =
      (.ok s, events)) :
    Row [] ((engines.filter (·.enabled)).map MachineEngine.running) s := by
  refine Ends.ok (Q := fun s _ => Row [] _ s) (E := fun failure _ => failure.Expected) ?_ h
  simp only [startSession, List.filter_map, ends_bind, ends_reject, ends_check_mapError, ends_get,
    ends_pure]
  refine ⟨fun _ => trivial, fun _ => ensures_startGuests.mono fun started _ hstarted =>
    ⟨fun _ _ => ⟨⟨started.1, rfl, hstarted⟩, by simp⟩, fun _ _ => trivial⟩⟩

/-- The filters, run one after the other on all records. -/
def stagedFilters (engines : List (MachineEngine σ)) (records : List Record) : List Record :=
  staged ((engines.filter (·.enabled)).map MachineEngine.running) records

/-- If no limit is exceeded, no filter fails and the output is valid, then the
session gives what the filters give, one after the other. -/
theorem session_is_composition {limits : PipelineLimits} {deadline : ℕ}
    {validator : Except MaskuraError ν} {engines : List (MachineEngine σ)} {events : List Event}
    {clock : ℕ → ℕ} {records : List Record}
    (hstart : (startSession limits (engines.map (·.toEngine)) deadline validator).exec [] =
      (.ok s, events))
    (hlimit : ∀ error, ((Session.run V clock records).exec s).1 ≠ .error (.limit error))
    (hfilter : ∀ error, ((Session.run V clock records).exec s).1 ≠ .error (.filter error))
    (houtput : ∀ error, ((Session.run V clock records).exec s).1 ≠ .error (.output error)) :
    ((Session.run V clock records).exec s).1 = .ok (stagedFilters engines records) := by
  have hrun : Ensures (Session.run V clock records) s _ := ensures_run (start_row hstart)
  cases hexec : (Session.run V clock records).exec s with
  | mk result t =>
      rw [hexec] at hlimit hfilter houtput
      cases result with
      | ok out => exact congrArg _ (hrun.ok hexec)
      | error failure =>
          cases failure with
          | limit error => exact absurd rfl (hlimit error)
          | filter error => exact absurd rfl (hfilter error)
          | output error => exact absurd rfl (houtput error)
          | panic message => exact (hrun.error hexec).elim

/-- The engine of a filter that needs no fuel. -/
def Machine.unmetered (name : String) (m : Machine σ) (initial : σ) : MachineEngine σ where
  name := name
  enabled := true
  filter := {
    transform s payload _ := (.ok (m.step s payload).1, (m.step s payload).2)
    finish s _ := .ok (m.trailing s, 0)
    fuelConsumed _ := 0
    lost _ _ := 0 }
  start _ := .ok initial
  lost _ := 0
  machine := m
  initial := initial
  runs := ⟨fun h => Prod.ext (Except.ok.inj (Prod.mk.inj h).1) (Prod.mk.inj h).2,
    fun h => (Prod.mk.inj (Except.ok.inj h)).1⟩
  start_ok h := (Except.ok.inj h).symm

/-- A filter that marks every payload, and puts out its mark at the end. -/
def markEngine (name : String) (mark : UInt8) : MachineEngine ℕ :=
  Machine.unmetered name ⟨fun n payload => (.emit (payload ++ [mark]), n + 1), fun _ => [mark]⟩ 0

/-- `OutputValidator`. What it is after it refused a record is not looked at any more. -/
def outputValidator (P : Parsers) : Validator OutputValidator where
  push v record :=
    match v.pushRecord P record with
    | .ok next => (.ok (), next)
    | .error error => (.error error, v)
  finish v := (v.finish P).map fun _ => ()

def sampleLimits : PipelineLimits where
  maxIntermediateRecordBytes := 64
  maxPluginFinishBytes := 64
  maxInputBytes := 64
  maxOutputBytes := 64
  maxExpansionFactor := 32
  maxExpansionSlackBytes := 64
  maxPlugins := 16
  maxCumulativeFuel := 64

/-- A session of these engines for one format, started in time. -/
def startedIn (format : Format) (engines : List (MachineEngine ℕ)) (s : Session ℕ OutputValidator)
    (events : List Event) : Prop :=
  (startSession sampleLimits (engines.map (·.toEngine)) 100
    (OutputValidator.new format .default)).exec [] =
    (.ok s, events)

def twoMarks : List (MachineEngine ℕ) :=
  [markEngine "first" 'x'.toUInt8, markEngine "second" 'y'.toUInt8]

/-- What the first filter puts out at the end goes through the second. -/
theorem two_marks_compose : ∃ s events, startedIn .text twoMarks s events ∧
    ((Session.run (outputValidator sampleParsers) id [⟨['a'.toUInt8], [lf]⟩]).exec s).1 =
      .ok (stagedFilters twoMarks [⟨['a'.toUInt8], [lf]⟩]) := by
  have hok : ∃ s events, startedIn .text twoMarks s events ∧
      ((Session.run (outputValidator sampleParsers) id [⟨['a'.toUInt8], [lf]⟩]).exec s).1 =
        .ok [⟨['a'.toUInt8, 'x'.toUInt8, 'y'.toUInt8], [lf]⟩, ⟨['x'.toUInt8, 'y'.toUInt8], []⟩,
          ⟨['y'.toUInt8], []⟩] :=
    ⟨_, _, rfl, by decide +kernel⟩
  obtain ⟨s, events, hstart, hrun⟩ := hok
  exact ⟨s, events, hstart,
    session_is_composition hstart (by simp [hrun]) (by simp [hrun]) (by simp [hrun])⟩

/-- `serde_json` on an object that is not closed, and on nothing else. -/
def openObjectParsers : Parsers where
  json document :=
    if document = ['\x7b'.toUInt8] then .eof "EOF while parsing an object at line 1 column 1"
    else .value
  csv input _ _ := ⟨true, input.length, 1⟩
  utf8Message _ := "invalid utf-8 sequence"

/-- A filter that makes every payload the same. -/
def constantEngine (payload : Bytes) : MachineEngine ℕ :=
  Machine.unmetered "constant" ⟨fun n _ => (.emit payload, n), fun _ => []⟩ 0

/-- No limit is exceeded and no filter fails, but a line that is no JSON value is
not put out. -/
theorem invalid_line_is_refused : ∃ s events,
    startedIn .jsonl [constantEngine ['\x7b'.toUInt8]] s events ∧
      let result := ((Session.run (outputValidator openObjectParsers) id
        [⟨['1'.toUInt8], [lf]⟩]).exec s).1
      (∀ error, result ≠ .error (.limit error)) ∧ (∀ error, result ≠ .error (.filter error)) ∧
        result ≠ .ok (stagedFilters [constantEngine ['\x7b'.toUInt8]] [⟨['1'.toUInt8], [lf]⟩]) := by
  have hok : ∃ s events, startedIn .jsonl [constantEngine ['\x7b'.toUInt8]] s events ∧
      ((Session.run (outputValidator openObjectParsers) id [⟨['1'.toUInt8], [lf]⟩]).exec s).1 =
        .error (.output ⟨.decodeInvalidOutput, "EOF while parsing an object at line 1 column 1"⟩) :=
    ⟨_, _, rfl, by decide +kernel⟩
  obtain ⟨s, events, hstart, hrun⟩ := hok
  exact ⟨s, events, hstart, by simp [hrun], by simp [hrun], by simp [hrun]⟩

end Maskura.Pipeline
