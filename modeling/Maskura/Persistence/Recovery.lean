import Mathlib.Data.List.Induction
import Maskura.Lib.Transition
import Maskura.Persistence.EventLog

/-!
Crash recovery of an event log.

The invariants compare the files with the full history of appended events,
kept as if nothing had ever been compacted. On disk there is always a tail
of that history, and the scan at startup accepts it when it starts at the
first event or right behind the snapshot. A compaction that stops between
its two file replacements moves the snapshot without moving the start of
the log, so it keeps this only on a log that still starts at the first
event.
-/

namespace Maskura.Persistence

open Maskura.Lib

variable {σ τ : Type}

/-! ### Consecutive events -/

/-- The events carry the sequence numbers `first`, `first + 1`, and so on. -/
def Consecutive : ℕ → List (LoggedEvent τ) → Prop
  | _, [] => True
  | first, event :: rest => event.sequence = first ∧ Consecutive (first + 1) rest

@[simp] theorem consecutive_nil (first : ℕ) : Consecutive first ([] : List (LoggedEvent τ)) :=
  trivial

theorem consecutive_append {first : ℕ} {events more : List (LoggedEvent τ)} :
    Consecutive first (events ++ more) ↔
      Consecutive first events ∧ Consecutive (first + events.length) more := by
  induction events generalizing first with
  | nil => simp
  | cons event events ih =>
      rw [List.cons_append, Consecutive, Consecutive, ih, and_assoc, List.length_cons,
        Nat.add_right_comm, Nat.add_assoc]

theorem consecutive_snoc {first : ℕ} {events : List (LoggedEvent τ)} {event : LoggedEvent τ} :
    Consecutive first (events ++ [event]) ↔
      Consecutive first events ∧ event.sequence = first + events.length := by
  simp [consecutive_append, Consecutive]

theorem Consecutive.drop {first : ℕ} {events : List (LoggedEvent τ)}
    (h : Consecutive first events) (k : ℕ) : Consecutive (first + k) (events.drop k) := by
  induction k generalizing first events with
  | zero => simpa using h
  | succ k ih =>
      cases events with
      | nil => simp
      | cons event events =>
          have := ih h.2
          rwa [Nat.add_right_comm, Nat.add_assoc] at this

theorem Consecutive.sequence_lt {first : ℕ} {events : List (LoggedEvent τ)}
    (h : Consecutive first events) {event : LoggedEvent τ} (hevent : event ∈ events) :
    first ≤ event.sequence ∧ event.sequence < first + events.length := by
  induction events generalizing first with
  | nil => simp at hevent
  | cons head events ih =>
      rcases List.mem_cons.mp hevent with rfl | hmem
      · have hhead : event.sequence = first := h.1
        simp [hhead]
      · have hbounds := ih h.2 hmem
        simp only [List.length_cons]
        omega

/-- The events past `bound` are what is left after the ones up to it. -/
theorem Consecutive.filter_eq_drop {first : ℕ} {events : List (LoggedEvent τ)}
    (h : Consecutive first events) (bound : ℕ) :
    events.filter (fun event => decide (bound < event.sequence)) =
      events.drop (bound + 1 - first) := by
  induction events generalizing first with
  | nil => simp
  | cons event events ih =>
      have hevent : event.sequence = first := h.1
      rw [List.filter_cons, hevent, ih h.2]
      by_cases hbound : bound < first
      · have h₀ : bound + 1 - first = 0 := by omega
        have h₁ : bound + 1 - (first + 1) = 0 := by omega
        simp [hbound, h₀, h₁]
      · obtain ⟨k, hk⟩ : ∃ k, bound + 1 - first = k + 1 := ⟨bound - first, by omega⟩
        have h₁ : bound + 1 - (first + 1) = k := by omega
        simp [hbound, hk, h₁]

/-- The sequence number of the last event, or `base` if there is none. -/
def lastSequence (base : ℕ) (events : List (LoggedEvent τ)) : ℕ :=
  (events.getLast?.map LoggedEvent.sequence).getD base

@[simp] theorem lastSequence_nil (base : ℕ) :
    lastSequence base ([] : List (LoggedEvent τ)) = base := rfl

@[simp] theorem lastSequence_snoc (base : ℕ) (events : List (LoggedEvent τ))
    (event : LoggedEvent τ) : lastSequence base (events ++ [event]) = event.sequence := by
  simp [lastSequence]

theorem Consecutive.lastSequence_eq {first base : ℕ} {events : List (LoggedEvent τ)}
    (h : Consecutive (first + 1) events) (hbase : events = [] → base = first) :
    lastSequence base events = first + events.length := by
  induction events using List.reverseRecOn with
  | nil => simpa using hbase rfl
  | append_singleton events event _ =>
      rw [lastSequence_snoc, (consecutive_snoc.mp h).2, List.length_append, List.length_singleton]
      omega

theorem saturatingAdd_one_of_lt {n : ℕ} (h : n + 1 < u64Bound) : saturatingAdd n 1 = n + 1 := by
  rw [saturatingAdd, Nat.min_eq_left (by omega)]

/-! ### Scanning consecutive frames -/

section Scan

variable (toVec : τ → Option Bytes)

@[simp] theorem framesLen_nil : framesLen toVec [] = 0 := rfl

@[simp] theorem framesLen_append (frames more : List (LoggedEvent τ)) :
    framesLen toVec (frames ++ more) = framesLen toVec frames + framesLen toVec more := by
  simp [framesLen]

/-- What the scan knows after all of `frames`. -/
def ParsedFrames.pushAll (snapshotSequence : ℕ) (parsed : ParsedFrames τ)
    (frames : List (LoggedEvent τ)) : ParsedFrames τ where
  events := parsed.events ++
    frames.filter (fun event => decide (snapshotSequence < event.sequence))
  validBytes := parsed.validBytes + framesLen toVec frames
  frameCount := parsed.frameCount + frames.length
  lastSequence := (frames.getLast?.map LoggedEvent.sequence).or parsed.lastSequence

theorem ParsedFrames.pushAll_nil (snapshotSequence : ℕ) (parsed : ParsedFrames τ) :
    parsed.pushAll toVec snapshotSequence [] = parsed := by
  simp [ParsedFrames.pushAll]

theorem ParsedFrames.pushAll_cons (snapshotSequence : ℕ) (parsed : ParsedFrames τ)
    (event : LoggedEvent τ) (frames : List (LoggedEvent τ)) :
    parsed.pushAll toVec snapshotSequence (event :: frames) =
      (parsed.push snapshotSequence (payloadLen toVec event.payload) event).pushAll toVec
        snapshotSequence frames := by
  have hlast : ((event :: frames).getLast?.map LoggedEvent.sequence).or parsed.lastSequence =
      (frames.getLast?.map LoggedEvent.sequence).or (some event.sequence) := by
    cases hframes : frames.getLast? with
    | none =>
        rw [List.getLast?_eq_none_iff] at hframes
        simp [hframes]
    | some last =>
        simp [List.getLast?_cons, hframes]
  simp only [ParsedFrames.pushAll, ParsedFrames.push, hlast, List.filter_cons, framesLen,
    List.map_cons, List.sum_cons, List.length_cons]
  by_cases hcovered : snapshotSequence < event.sequence
  · simp [hcovered]
    omega
  · simp [hcovered]
    omega

/-- Behind a first frame, consecutive frames are accepted one after the
other. -/
theorem scanFramesFrom_consecutive {previous snapshotSequence : ℕ}
    {frames : List (LoggedEvent τ)} (hframes : Consecutive (previous + 1) frames)
    (hbound : previous + frames.length < u64Bound) {parsed : ParsedFrames τ}
    (hprevious : parsed.lastSequence = some previous) :
    scanFramesFrom toVec snapshotSequence frames parsed =
      .ok (parsed.pushAll toVec snapshotSequence frames) := by
  induction frames generalizing previous parsed with
  | nil => simp [scanFramesFrom, ParsedFrames.pushAll_nil]
  | cons event frames ih =>
      have hsequence : event.sequence = previous + 1 := hframes.1
      rw [List.length_cons] at hbound
      have hnext : wrappingAdd previous 1 = previous + 1 := Nat.mod_eq_of_lt (by omega)
      have hcheck : checkSequence snapshotSequence event.sequence parsed.lastSequence = .ok () := by
        simp [hprevious, checkSequence, rejectIf, hnext, hsequence]
      rw [scanFramesFrom, hcheck, ok_bind, ParsedFrames.pushAll_cons]
      exact ih hframes.2 (by omega) (by simp [ParsedFrames.push, hsequence])

/-- The start-of-log test, and all that a consecutive log depends on. -/
theorem scanFrames_consecutive {first snapshotSequence : ℕ} {frames : List (LoggedEvent τ)}
    (hframes : Consecutive first frames) (hbound : first + frames.length ≤ u64Bound) :
    scanFrames toVec frames snapshotSequence =
      if frames = [] ∨ first = 1 ∨ first = saturatingAdd snapshotSequence 1 then
        .ok (ParsedFrames.pushAll toVec snapshotSequence {} frames)
      else
        .error (.corrupt s!"event log starts at unexpected sequence {first}") := by
  cases frames with
  | nil => simp [scanFrames, scanFramesFrom, ParsedFrames.pushAll_nil]
  | cons event frames =>
      obtain ⟨hsequence, hrest⟩ := hframes
      rw [List.length_cons] at hbound
      rw [scanFrames, scanFramesFrom, ParsedFrames.pushAll_cons, hsequence]
      by_cases hstart : first = 1 ∨ first = saturatingAdd snapshotSequence 1
      · have hcheck : checkSequence snapshotSequence first none = .ok () := by
          simp only [checkSequence, rejectIf_eq_ok]
          tauto
        rw [hcheck, ok_bind, if_pos (.inr hstart)]
        exact scanFramesFrom_consecutive toVec hrest (by omega)
          (by simp [ParsedFrames.push, hsequence])
      · have hcheck : checkSequence snapshotSequence first none =
            .error (.corrupt s!"event log starts at unexpected sequence {first}") := by
          simp only [checkSequence, rejectIf_eq_error]
          tauto
        rw [hcheck, error_bind, if_neg (by simpa using hstart)]

/-- The handle `EventLog::open` returns for a log with these frames. -/
def EventLog.opened (snapshotSequence : ℕ) (frames : List (LoggedEvent τ)) : EventLog where
  nextSequence := max (lastSequence snapshotSequence frames) snapshotSequence + 1
  eventCount := frames.length
  byteLen := framesLen toVec frames
  reloadRequired := false

/-- Opening a consecutive log within the limits. -/
theorem openEventLog_consecutive {first snapshotSequence : ℕ} {file : LogFile τ}
    (hframes : Consecutive first file.frames)
    (hbound : first + file.frames.length ≤ u64Bound)
    (hsize : file.byteLen toVec ≤ maxLogBytes) :
    openEventLog toVec (some file) snapshotSequence =
      if file.frames = [] ∨ first = 1 ∨ first = saturatingAdd snapshotSequence 1 then
        (if max (lastSequence snapshotSequence file.frames) snapshotSequence + 1 < u64Bound then
            .ok (EventLog.opened toVec snapshotSequence file.frames,
              file.frames.filter (fun event => decide (snapshotSequence < event.sequence)))
          else
            .error (.corrupt "event sequence overflow"), { file with tornBytes := 0 })
      else
        (.error (.corrupt s!"event log starts at unexpected sequence {first}"), file) := by
  have hlast : ((file.frames.getLast?.map LoggedEvent.sequence).or none).getD snapshotSequence =
      lastSequence snapshotSequence file.frames := by
    rw [Option.or_none, lastSequence]
  simp only [openEventLog, Option.getD_some, if_neg (Nat.not_lt.mpr hsize),
    scanFrames_consecutive toVec hframes hbound]
  by_cases hstart : file.frames = [] ∨ first = 1 ∨ first = saturatingAdd snapshotSequence 1
  · simp only [if_pos hstart, ParsedFrames.pushAll, hlast, EventLog.opened, List.nil_append,
      Nat.zero_add]
    split_ifs <;> rfl
  · simp only [if_neg hstart]

end Scan

/-! ### Runs of an event log

One log with its snapshot, the handle of the running process if there is
one, and the history of everything appended. -/

structure LogSystem (σ τ : Type) where
  disk : LogDisk σ τ := {}
  handle : Option EventLog := none
  appended : List (LoggedEvent τ) := []
  deriving DecidableEq, Repr

/-- What can happen next. A crash between operations is `crash`; the two
operations that touch files can also be cut short on their way. An append
that a limit turns away changes nothing and is no step. -/
inductive LogAction (σ τ : Type)
  | reopen
  | append (payload : τ)
  | compact (payload : σ)
  | crash
  | crashInAppend (payload : τ) (written : ℕ)
  | crashInCompaction (payload : σ)
  deriving DecidableEq, Repr

section Run

variable (toVec : τ → Option Bytes) (snapshotVec : ℕ → σ → Option Bytes)

def LogSystem.step (s : LogSystem σ τ) : LogAction σ τ → Option (LogSystem σ τ)
  | .reopen =>
      match s.disk.reopen toVec with
      | (.ok (log, _), disk) => some { s with disk := disk, handle := some log }
      | (.error _, _) => none
  | .append payload =>
      s.handle.bind fun log =>
        match log.append toVec none s.disk.log payload with
        | (.ok sequence, log, file) =>
            some
              { disk := { s.disk with log := file }
                handle := some log
                appended := s.appended ++ [⟨sequence, payload⟩] }
        | (.error _, _, _) => none
  | .compact payload =>
      s.handle.bind fun log =>
        match log.compact snapshotVec none none s.disk payload with
        | (.ok (), log, disk) => some { s with disk := disk, handle := some log }
        | (.error _, _, _) => none
  | .crash => some { s with handle := none }
  | .crashInAppend payload written =>
      -- Only part of the frame reached the file; with all of it there the
      -- crash is one after the append.
      s.handle.bind fun log =>
        match log.append toVec (some (.appendWrite written)) s.disk.log payload with
        | (.error (.mutationUnknown _), _, file) =>
            if written < frameLen (payloadLen toVec payload) then
              some { s with disk := { s.disk with log := file }, handle := none }
            else
              none
        | _ => none
  | .crashInCompaction payload =>
      s.handle.bind fun log =>
        match atomicWriteSnapshot snapshotVec none s.disk.snapshot (log.nextSequence - 1)
          payload with
        | (.ok (), snapshot) =>
            some { s with disk := { s.disk with snapshot := snapshot }, handle := none }
        | (.error _, _) => none

def logSystem : System (LogSystem σ τ) (LogAction σ τ) :=
  .ofStep (· = {}) (LogSystem.step toVec snapshotVec)

/-- Recovery is exact: reopening the files succeeds, returns the events the
snapshot does not cover, and numbers the next event after the last one. -/
def LogSystem.Recovers (s : LogSystem σ τ) : Prop :=
  ∃ log, (s.disk.reopen toVec).1 =
      .ok (log, s.appended.filter fun event =>
        decide (s.disk.snapshotSequence < event.sequence)) ∧
    log.nextSequence = lastSequence 0 s.appended + 1

/-- The step does not start from a state where recovery is about to break:
a compaction is cut between its two file replacements only on a log that is
empty or still starts at the first event, and an append still has a
successor sequence number. -/
def LogSystem.Safe (s : LogSystem σ τ) : LogAction σ τ → Prop
  | .append _ => ∀ log ∈ s.handle, log.nextSequence + 1 < u64Bound
  | .crashInCompaction _ =>
      ∀ file ∈ s.disk.log, ∀ first ∈ file.frames.head?, first.sequence = 1
  | _ => True

instance (s : LogSystem σ τ) : (action : LogAction σ τ) → Decidable (s.Safe action)
  | .append _ => inferInstanceAs (Decidable (∀ log ∈ s.handle, log.nextSequence + 1 < u64Bound))
  | .crashInCompaction _ => inferInstanceAs
      (Decidable (∀ file ∈ s.disk.log, ∀ first ∈ file.frames.head?, first.sequence = 1))
  | .reopen | .compact _ | .crash | .crashInAppend _ _ => isTrue trivial

/-! ### The invariant -/

/-- The frames of the log file, if it exists. -/
def LogDisk.frames (disk : LogDisk σ τ) : List (LoggedEvent τ) :=
  (disk.log.map LogFile.frames).getD []

/-- The files hold a tail of the history that starts where opening the log
accepts it. -/
structure LogDisk.Keeps (disk : LogDisk σ τ) (appended : List (LoggedEvent τ)) : Prop where
  /-- The history is numbered from one. -/
  consecutive : Consecutive 1 appended
  /-- There is a next sequence number. -/
  bound : appended.length + 1 < u64Bound
  /-- The snapshot covers no more than what was appended. -/
  covered : disk.snapshotSequence ≤ appended.length
  /-- The log holds everything from its first event on, which is the first
  event of all or the one after the snapshot. -/
  frames : ∃ k, disk.frames = appended.drop k ∧ (k = 0 ∨ k = disk.snapshotSequence)
  /-- The log file is within its limit. -/
  size : ∀ file ∈ disk.log, file.byteLen toVec ≤ maxLogBytes

/-- The handle agrees with the files and the history. -/
structure EventLog.Tracks (log : EventLog) (disk : LogDisk σ τ)
    (appended : List (LoggedEvent τ)) : Prop where
  usable : log.reloadRequired = false
  nextSequence : log.nextSequence = appended.length + 1
  eventCount : log.eventCount = disk.frames.length
  byteLen : log.byteLen = framesLen toVec disk.frames
  clean : ∃ file, disk.log = some file ∧ file.tornBytes = 0

variable {toVec snapshotVec} {disk : LogDisk σ τ} {appended : List (LoggedEvent τ)} {log : EventLog}

/-- The log on disk starts right behind the `k` events it no longer holds. -/
theorem LogDisk.Keeps.consecutive_drop (h : disk.Keeps toVec appended) (k : ℕ) :
    Consecutive (k + 1) (appended.drop k) := by
  have := h.consecutive.drop k
  rwa [Nat.add_comm] at this

/-- From files that keep the history, reopening returns a handle that
tracks them, and the events past the snapshot. -/
theorem LogDisk.Keeps.reopen (h : disk.Keeps toVec appended) :
    ∃ log disk', disk.reopen toVec =
        (.ok (log, appended.filter fun event =>
          decide (disk.snapshotSequence < event.sequence)), disk') ∧
      disk'.Keeps toVec appended ∧ log.Tracks toVec disk' appended ∧
        disk'.snapshot = disk.snapshot := by
  obtain ⟨k, hframes, hk⟩ := h.frames
  have hsuffix : Consecutive (k + 1) disk.frames := hframes ▸ h.consecutive_drop k
  have hkle : k ≤ appended.length := by
    have := h.covered
    omega
  have hlength : disk.frames.length = appended.length - k := by rw [hframes, List.length_drop]
  -- A missing log file opens as an empty one.
  obtain ⟨file, hfile, hopen, hsize⟩ : ∃ file : LogFile τ, disk.frames = file.frames ∧
      openEventLog toVec disk.log disk.snapshotSequence =
        openEventLog toVec (some file) disk.snapshotSequence ∧
      file.byteLen toVec ≤ maxLogBytes := by
    cases hlog : disk.log with
    | none => exact ⟨{}, by simp [LogDisk.frames, hlog], rfl, by simp [LogFile.byteLen]⟩
    | some file => exact ⟨file, by simp [LogDisk.frames, hlog], rfl, h.size file hlog⟩
  have hbase : disk.frames = [] → max disk.snapshotSequence k = k := by
    intro hnil
    have := h.covered
    rw [hnil, List.length_nil] at hlength
    omega
  have hlast : max (lastSequence disk.snapshotSequence disk.frames) disk.snapshotSequence =
      appended.length := by
    have hcovered := h.covered
    by_cases hnil : disk.frames = []
    · have := hbase hnil
      rw [hnil, lastSequence_nil]
      rw [hnil, List.length_nil] at hlength
      omega
    · rw [hsuffix.lastSequence_eq (fun hempty => absurd hempty hnil), hlength]
      omega
  have hstart : file.frames = [] ∨ k + 1 = 1 ∨ k + 1 = saturatingAdd disk.snapshotSequence 1 := by
    have hcovered := h.covered
    have hbound := h.bound
    rcases hk with rfl | rfl
    · exact .inr (.inl rfl)
    · exact .inr (.inr (saturatingAdd_one_of_lt (by omega)).symm)
  have hfilter : file.frames.filter (fun event => decide (disk.snapshotSequence < event.sequence)) =
      appended.filter fun event => decide (disk.snapshotSequence < event.sequence) := by
    rw [← hfile, hsuffix.filter_eq_drop, h.consecutive.filter_eq_drop, hframes, List.drop_drop]
    congr 1
    omega
  have hopened : openEventLog toVec (some file) disk.snapshotSequence =
      (.ok (EventLog.opened toVec disk.snapshotSequence file.frames,
        appended.filter fun event => decide (disk.snapshotSequence < event.sequence)),
        { file with tornBytes := 0 }) := by
    rw [openEventLog_consecutive toVec (hfile ▸ hsuffix) (by rw [← hfile, hlength]; have := h.bound; omega)
      hsize, if_pos hstart, ← hfile, hlast, if_pos h.bound, hfile, hfilter]
  refine ⟨EventLog.opened toVec disk.snapshotSequence file.frames,
    { disk with log := some { file with tornBytes := 0 } }, ?_, ?_, ?_, rfl⟩
  · rw [LogDisk.reopen, hopen, hopened]
  · have hframes' : file.frames = appended.drop k := hfile ▸ hframes
    refine ⟨h.consecutive, h.bound, h.covered, ⟨k, hframes', hk⟩, ?_⟩
    rintro _ ⟨⟩
    simp only [LogFile.byteLen] at hsize ⊢
    omega
  · refine ⟨rfl, ?_, rfl, rfl, _, rfl, rfl⟩
    rw [EventLog.opened, ← hfile, hlast]

/-! ### What one step does to the invariant -/

@[simp] theorem LogDisk.frames_some (snapshot : Option (Snapshot σ)) (file : LogFile τ) :
    LogDisk.frames ⟨snapshot, some file⟩ = file.frames := rfl

/-- The frames of a log whose file was appended to. -/
theorem LogFile.appendFrame_clean {file : LogFile τ} (hclean : file.tornBytes = 0)
    (event : LoggedEvent τ) :
    file.appendFrame toVec event = { file with frames := file.frames ++ [event] } := by
  rw [LogFile.appendFrame, if_pos hclean]

theorem LogDisk.Keeps.append {payload : τ} (h : disk.Keeps toVec appended)
    (htracks : log.Tracks toVec disk appended) (hadmits : log.Admits toVec payload)
    {file : LogFile τ} (hfile : disk.log = some file) (hbound : appended.length + 2 < u64Bound) :
    LogDisk.Keeps toVec
      { disk with log := some (file.appendFrame toVec ⟨log.nextSequence, payload⟩) }
      (appended ++ [⟨log.nextSequence, payload⟩]) := by
  obtain ⟨_, hlog, hclean⟩ := htracks.clean
  obtain rfl := Option.some.inj (hfile.symm.trans hlog)
  obtain ⟨k, hframes, hk⟩ := h.frames
  have hdisk : disk.frames = file.frames := by simp [LogDisk.frames, hfile]
  have hsize := hadmits.size_le
  rw [htracks.byteLen, hdisk] at hsize
  rw [LogFile.appendFrame_clean hclean]
  refine ⟨?_, ?_, ?_, ⟨k, ?_, hk⟩, ?_⟩
  · exact consecutive_snoc.mpr ⟨h.consecutive, htracks.nextSequence.trans (Nat.add_comm _ _)⟩
  · rw [List.length_append, List.length_singleton]
    omega
  · have := h.covered
    rw [List.length_append, List.length_singleton]
    exact Nat.le_succ_of_le this
  · have hcovered := h.covered
    rw [LogDisk.frames_some, ← hdisk, hframes, List.drop_append_of_le_length (by omega)]
  · rintro _ ⟨⟩
    simpa [LogFile.byteLen, hclean, framesLen] using hsize

theorem EventLog.Tracks.append (htracks : log.Tracks toVec disk appended) (payload : τ)
    {file : LogFile τ} (hfile : disk.log = some file) (hbound : appended.length + 2 < u64Bound) :
    (log.advanced toVec payload).Tracks toVec
      { disk with log := some (file.appendFrame toVec ⟨log.nextSequence, payload⟩) }
      (appended ++ [⟨log.nextSequence, payload⟩]) := by
  obtain ⟨_, hlog, hclean⟩ := htracks.clean
  obtain rfl := Option.some.inj (hfile.symm.trans hlog)
  have hdisk : disk.frames = file.frames := by simp [LogDisk.frames, hfile]
  rw [LogFile.appendFrame_clean hclean]
  refine ⟨htracks.usable, ?_, ?_, ?_, _, rfl, hclean⟩
  · rw [EventLog.advanced, htracks.nextSequence, wrappingAdd, Nat.mod_eq_of_lt (by omega),
      List.length_append, List.length_singleton]
  · simp [EventLog.advanced, htracks.eventCount, hdisk]
  · simp [EventLog.advanced, htracks.byteLen, hdisk, framesLen]

/-- A frame that was cut short leaves the history on disk as it was. -/
theorem LogDisk.Keeps.appendPart {payload : τ} (h : disk.Keeps toVec appended)
    (htracks : log.Tracks toVec disk appended) (hadmits : log.Admits toVec payload)
    {file : LogFile τ} (hfile : disk.log = some file) {written : ℕ}
    (hwritten : written < frameLen (payloadLen toVec payload)) :
    LogDisk.Keeps toVec
      { disk with log := some (file.appendPart toVec ⟨log.nextSequence, payload⟩ written) }
      appended := by
  obtain ⟨_, hlog, hclean⟩ := htracks.clean
  obtain rfl := Option.some.inj (hfile.symm.trans hlog)
  have hdisk : disk.frames = file.frames := by simp [LogDisk.frames, hfile]
  have hsize := hadmits.size_le
  rw [htracks.byteLen, hdisk] at hsize
  rw [LogFile.appendPart, if_pos hwritten]
  refine ⟨h.consecutive, h.bound, h.covered, ?_, ?_⟩
  · obtain ⟨k, hframes, hk⟩ := h.frames
    exact ⟨k, hdisk.symm.trans hframes, hk⟩
  · rintro _ ⟨⟩
    simp only [LogFile.byteLen, hclean, Nat.zero_add]
    omega

/-- Publishing a snapshot of everything and emptying the log. -/
theorem LogDisk.Keeps.compact (h : disk.Keeps toVec appended)
    (htracks : log.Tracks toVec disk appended) (payload : σ) :
    LogDisk.Keeps toVec ⟨some (log.snapshotOf payload), some {}⟩ appended ∧
      EventLog.Tracks toVec { log with eventCount := 0, byteLen := 0 }
        (⟨some (log.snapshotOf payload), some {}⟩ : LogDisk σ τ) appended := by
  have hfinal : (log.snapshotOf payload).finalSequence = appended.length := by
    rw [EventLog.snapshotOf, htracks.nextSequence, Nat.add_sub_cancel]
  refine ⟨⟨h.consecutive, h.bound, hfinal.le, ⟨appended.length, ?_, .inr hfinal.symm⟩, ?_⟩, ?_⟩
  · simp
  · rintro _ ⟨⟩
    simp [LogFile.byteLen]
  · exact ⟨htracks.usable, htracks.nextSequence, rfl, rfl, _, rfl, rfl⟩

/-- Publishing the snapshot alone is harmless on a log that is empty or
starts at the first event. -/
theorem LogDisk.Keeps.publish (h : disk.Keeps toVec appended)
    (htracks : log.Tracks toVec disk appended) (payload : σ)
    (hstart : ∀ first ∈ disk.frames.head?, first.sequence = 1) :
    LogDisk.Keeps toVec { disk with snapshot := some (log.snapshotOf payload) } appended := by
  have hfinal : (log.snapshotOf payload).finalSequence = appended.length := by
    rw [EventLog.snapshotOf, htracks.nextSequence, Nat.add_sub_cancel]
  refine ⟨h.consecutive, h.bound, hfinal.le, ?_, h.size⟩
  obtain ⟨k, hframes, -⟩ := h.frames
  have hsuffix : Consecutive (k + 1) disk.frames := hframes ▸ h.consecutive_drop k
  cases hcases : disk.frames with
  | nil => exact ⟨appended.length, by simpa [LogDisk.frames] using hcases, .inr hfinal.symm⟩
  | cons first rest =>
      rw [hcases] at hsuffix hstart
      have hfirst : first.sequence = 1 := hstart first rfl
      have hk : k = 0 := by
        have : first.sequence = k + 1 := hsuffix.1
        omega
      exact ⟨0, by rw [← hk]; exact hframes, .inl rfl⟩

/-- The invariant of a run. -/
structure LogSystem.Inv (toVec : τ → Option Bytes) (s : LogSystem σ τ) : Prop where
  keeps : s.disk.Keeps toVec s.appended
  tracks : ∀ log ∈ s.handle, log.Tracks toVec s.disk s.appended

theorem LogSystem.inv_init : LogSystem.Inv toVec ({} : LogSystem σ τ) := by
  refine ⟨⟨trivial, by simp [u64Bound], Nat.le_refl 0, ⟨0, rfl, .inl rfl⟩, ?_⟩, ?_⟩
  · rintro _ ⟨⟩
  · rintro _ ⟨⟩

/-- Every step, taken apart: what it needs, and the state it leads to. -/
theorem LogSystem.step_cases {s t : LogSystem σ τ} {action : LogAction σ τ}
    (h : s.step toVec snapshotVec action = some t) :
    (action = .reopen ∧ ∃ log events disk, s.disk.reopen toVec = (.ok (log, events), disk) ∧
        t = { s with disk := disk, handle := some log }) ∨
      (∃ payload log file, action = .append payload ∧ s.handle = some log ∧
        s.disk.log = some file ∧ log.Admits toVec payload ∧
        t = ⟨{ s.disk with log := some (file.appendFrame toVec ⟨log.nextSequence, payload⟩) },
          some (log.advanced toVec payload), s.appended ++ [⟨log.nextSequence, payload⟩]⟩) ∨
      (∃ payload log, action = .compact payload ∧ s.handle = some log ∧
        t = ⟨⟨some (log.snapshotOf payload), some {}⟩,
          some { log with eventCount := 0, byteLen := 0 }, s.appended⟩) ∨
      (action = .crash ∧ t = { s with handle := none }) ∨
      (∃ payload written log file, action = .crashInAppend payload written ∧
        s.handle = some log ∧ s.disk.log = some file ∧ log.Admits toVec payload ∧
        written < frameLen (payloadLen toVec payload) ∧
        t = ⟨{ s.disk with
            log := some (file.appendPart toVec ⟨log.nextSequence, payload⟩ written) },
          none, s.appended⟩) ∨
      (∃ payload log, action = .crashInCompaction payload ∧ s.handle = some log ∧
        t = ⟨{ s.disk with snapshot := some (log.snapshotOf payload) }, none, s.appended⟩) := by
  cases action with
  | reopen =>
      simp only [LogSystem.step] at h
      split at h
      · next log events disk hreopen =>
          exact .inl ⟨rfl, log, events, disk, hreopen, (Option.some.inj h).symm⟩
      · cases h
  | append payload =>
      obtain ⟨log, hlog, h⟩ := Option.bind_eq_some_iff.mp h
      refine .inr (.inl ⟨payload, log, ?_⟩)
      rcases EventLog.append_cases toVec none log s.disk.log payload with
        ⟨error, -, happend⟩ | ⟨file, hfile, hadmits, happend | ⟨hfault, -⟩ | ⟨_, _, hfault, -⟩⟩
      · simp [happend] at h
      · simp only [happend, Option.some.injEq] at h
        exact ⟨file, rfl, hlog, hfile, hadmits, h.symm⟩
      · cases hfault
      · cases hfault
  | compact payload =>
      obtain ⟨log, hlog, h⟩ := Option.bind_eq_some_iff.mp h
      refine .inr (.inr (.inl ⟨payload, log, rfl, hlog, ?_⟩))
      rcases EventLog.compact_cases snapshotVec none none log s.disk payload with
        ⟨_, -, hcompact⟩ | ⟨-, -, _, _, -, hcompact⟩ | ⟨-, hcompact⟩ | ⟨-, hcompact⟩
      · simp [hcompact] at h
      · simp [hcompact] at h
      · simp [hcompact] at h
      · simp only [hcompact, Option.some.injEq] at h
        exact h.symm
  | crash => exact .inr (.inr (.inr (.inl ⟨rfl, (Option.some.inj h).symm⟩)))
  | crashInAppend payload written =>
      obtain ⟨log, hlog, h⟩ := Option.bind_eq_some_iff.mp h
      refine .inr (.inr (.inr (.inr (.inl ⟨payload, written, log, ?_⟩))))
      rcases EventLog.append_cases toVec (some (.appendWrite written)) log s.disk.log payload with
        ⟨error, herror, happend⟩ |
          ⟨file, hfile, hadmits, happend | ⟨hfault, -⟩ | ⟨_, _, hfault, happend⟩⟩
      · cases error <;> simp_all [PersistenceError.isMutationUnknown]
      · simp [happend] at h
      · cases hfault
      · cases hfault
        simp only [happend] at h
        split at h
        · next hwritten => exact ⟨file, rfl, hlog, hfile, hadmits, hwritten, (Option.some.inj h).symm⟩
        · cases h
  | crashInCompaction payload =>
      obtain ⟨log, hlog, h⟩ := Option.bind_eq_some_iff.mp h
      refine .inr (.inr (.inr (.inr (.inr ⟨payload, log, rfl, hlog, ?_⟩))))
      split at h
      · next snapshot hpublish =>
          rw [← Option.some.inj h, atomicWriteSnapshot_ok snapshotVec hpublish]
          rfl
      · cases h

theorem LogSystem.Inv.step {s t : LogSystem σ τ} {action : LogAction σ τ} (hs : s.Inv toVec)
    (hsafe : s.Safe action) (h : s.step toVec snapshotVec action = some t) : t.Inv toVec := by
  rcases LogSystem.step_cases h with
    ⟨rfl, log, events, disk, hreopen, rfl⟩ | ⟨payload, log, file, rfl, hlog, hfile, hadmits, rfl⟩ |
    ⟨payload, log, rfl, hlog, rfl⟩ | ⟨rfl, rfl⟩ |
    ⟨payload, written, log, file, rfl, hlog, hfile, hadmits, hwritten, rfl⟩ |
    ⟨payload, log, rfl, hlog, rfl⟩
  · obtain ⟨log', disk', hreopen', hkeeps, htracks, -⟩ := hs.keeps.reopen
    rw [hreopen', Prod.mk.injEq, Except.ok.injEq, Prod.mk.injEq] at hreopen
    obtain ⟨⟨rfl, -⟩, rfl⟩ := hreopen
    refine ⟨hkeeps, ?_⟩
    rintro _ ⟨⟩
    exact htracks
  · have htracks := hs.tracks log hlog
    have hbound : s.appended.length + 2 < u64Bound := by
      have := hsafe log hlog
      rwa [htracks.nextSequence] at this
    refine ⟨hs.keeps.append htracks hadmits hfile hbound, ?_⟩
    rintro _ ⟨⟩
    exact htracks.append payload hfile hbound
  · obtain ⟨hkeeps, htracks⟩ := hs.keeps.compact (hs.tracks log hlog) payload
    refine ⟨hkeeps, ?_⟩
    rintro _ ⟨⟩
    exact htracks
  · refine ⟨hs.keeps, ?_⟩
    rintro _ ⟨⟩
  · refine ⟨hs.keeps.appendPart (hs.tracks log hlog) hadmits hfile hwritten, ?_⟩
    rintro _ ⟨⟩
  · have hstart : ∀ first ∈ s.disk.frames.head?, first.sequence = 1 := by
      intro first hfirst
      obtain ⟨file, hfile, -⟩ := (hs.tracks log hlog).clean
      exact hsafe file hfile first (by simpa [LogDisk.frames, hfile] using hfirst)
    refine ⟨hs.keeps.publish (hs.tracks log hlog) payload hstart, ?_⟩
    rintro _ ⟨⟩

theorem LogSystem.Inv.recovers {s : LogSystem σ τ} (hs : s.Inv toVec) : s.Recovers toVec := by
  obtain ⟨log, disk, hreopen, -, htracks, -⟩ := hs.keeps.reopen
  refine ⟨log, by rw [hreopen], ?_⟩
  have hconsecutive : Consecutive (0 + 1) s.appended := hs.keeps.consecutive
  rw [htracks.nextSequence, hconsecutive.lastSequence_eq (fun _ => rfl), Nat.zero_add]

/-- Opening rejects a consecutive log that starts elsewhere, and one whose
last event has no successor. -/
theorem LogDisk.not_recovers {s : LogSystem σ τ} {k : ℕ} {file : LogFile τ}
    (hlog : s.disk.log = some file) (hframes : Consecutive (k + 1) file.frames)
    (hbound : k + 1 + file.frames.length ≤ u64Bound) (hsize : file.byteLen toVec ≤ maxLogBytes)
    (hbad : (file.frames ≠ [] ∧ k ≠ 0 ∧ k + 1 ≠ saturatingAdd s.disk.snapshotSequence 1) ∨
      u64Bound ≤ max (lastSequence s.disk.snapshotSequence file.frames)
        s.disk.snapshotSequence + 1) : ¬s.Recovers toVec := by
  rintro ⟨log, hreopen, -⟩
  rw [LogDisk.reopen, hlog, openEventLog_consecutive toVec hframes hbound hsize] at hreopen
  rcases hbad with ⟨hne, hk, hstart⟩ | hlast
  · rw [if_neg (by simp [hne, hk, hstart])] at hreopen
    cases hreopen
  · rw [if_neg (Nat.not_lt.mpr hlast)] at hreopen
    split at hreopen <;> cases hreopen

/-- Away from a safe step recovery is lost: the condition leaves out no
step that would have been harmless. -/
theorem LogSystem.Inv.not_recovers {s t : LogSystem σ τ} {action : LogAction σ τ}
    (hs : s.Inv toVec) (hsafe : ¬s.Safe action)
    (h : s.step toVec snapshotVec action = some t) : ¬t.Recovers toVec := by
  obtain ⟨k, hframes, hk⟩ := hs.keeps.frames
  have hcovered := hs.keeps.covered
  have hsuffix : Consecutive (k + 1) s.disk.frames := hframes ▸ hs.keeps.consecutive_drop k
  have hlength : s.disk.frames.length = s.appended.length - k := by
    rw [hframes, List.length_drop]
  rcases LogSystem.step_cases h with
    ⟨rfl, -⟩ | ⟨payload, log, file, rfl, hlog, hfile, hadmits, rfl⟩ | ⟨payload, log, rfl, -⟩ |
    ⟨rfl, -⟩ | ⟨payload, written, log, file, rfl, -⟩ | ⟨payload, log, rfl, hlog, rfl⟩
  · exact absurd trivial hsafe
  · have htracks := hs.tracks log hlog
    obtain ⟨_, hlog', hclean⟩ := htracks.clean
    obtain rfl := Option.some.inj (hfile.symm.trans hlog')
    have hdisk : s.disk.frames = file.frames := by simp [LogDisk.frames, hfile]
    have hnext : u64Bound ≤ s.appended.length + 2 := by
      simp only [LogSystem.Safe, hlog, Option.mem_def, Option.some.injEq, forall_eq',
        htracks.nextSequence] at hsafe
      omega
    have hbound := hs.keeps.bound
    have hsize := hadmits.size_le
    rw [htracks.byteLen, hdisk] at hsize
    rw [LogFile.appendFrame_clean hclean]
    rw [hdisk] at hsuffix hlength
    refine LogDisk.not_recovers rfl
      (consecutive_snoc.mpr ⟨hsuffix, ?_⟩) ?_ ?_ (.inr ?_)
    · simp only [htracks.nextSequence]
      omega
    · simp only [List.length_append, List.length_singleton]
      omega
    · simpa [LogFile.byteLen, hclean, framesLen] using hsize
    · simp only [lastSequence_snoc, htracks.nextSequence]
      omega
  · exact absurd trivial hsafe
  · exact absurd trivial hsafe
  · exact absurd trivial hsafe
  · have htracks := hs.tracks log hlog
    obtain ⟨file, hfile, -⟩ := htracks.clean
    have hdisk : s.disk.frames = file.frames := by simp [LogDisk.frames, hfile]
    obtain ⟨first, hfirst, hsequence⟩ :
        ∃ first, file.frames.head? = some first ∧ first.sequence ≠ 1 := by
      simpa [LogSystem.Safe, hfile] using hsafe
    rw [hdisk] at hsuffix hlength
    have hbound := hs.keeps.bound
    have hhead : first.sequence = k + 1 ∧ 0 < file.frames.length := by
      cases hcases : file.frames with
      | nil => simp [hcases] at hfirst
      | cons event rest =>
          rw [hcases] at hsuffix hfirst
          obtain rfl : event = first := Option.some.inj hfirst
          exact ⟨hsuffix.1, by simp⟩
    have hfinal : LogDisk.snapshotSequence
        { s.disk with snapshot := some (log.snapshotOf payload) } = s.appended.length := by
      simp [LogDisk.snapshotSequence, EventLog.snapshotOf, htracks.nextSequence]
    refine LogDisk.not_recovers hfile hsuffix (by omega) (hs.keeps.size file hfile) (.inl ?_)
    refine ⟨List.length_pos_iff.mp hhead.2, by omega, ?_⟩
    rw [hfinal, saturatingAdd_one_of_lt hbound]
    omega

/-- In every run whose steps are all safe, recovery is exact in every state
reached; and from there the next step keeps it exact precisely when it is
safe. -/
theorem recovery_exact_iff_safe {s : LogSystem σ τ}
    (h : ((logSystem toVec snapshotVec).restrict LogSystem.Safe).Reachable s) :
    s.Recovers toVec ∧ ∀ action t, s.step toVec snapshotVec action = some t →
      (t.Recovers toVec ↔ s.Safe action) := by
  have hinv : s.Inv toVec := by
    refine h.invariant ?_ ?_
    · rintro _ rfl
      exact LogSystem.inv_init
    · rintro a action b ha ⟨hsafe, hstep⟩
      exact ha.step hsafe hstep
  refine ⟨hinv.recovers, fun action t hstep => ⟨fun hrecovers => ?_, fun hsafe => ?_⟩⟩
  · by_contra hsafe
    exact hinv.not_recovers hsafe hstep hrecovers
  · exact (hinv.step hsafe hstep).recovers

end Run

/-! ### A log of numbers

The event and snapshot types of the code's own tests, with their JSON text. -/

/-- The JSON text of a number. -/
def numberVec (n : ℕ) : Option Bytes :=
  some ((Nat.toDigits 10 n).map fun digit => UInt8.ofNat digit.toNat)

/-- The JSON text of a list of numbers. -/
def numbersVec (_ : ℕ) (values : List ℕ) : Option Bytes :=
  some ([0x5b] ++ [0x2c].intercalate (values.map fun n => (numberVec n).getD []) ++ [0x5d])

/-- Two compactions, the second one cut between its two file replacements:
the snapshot covers event four, the log still starts at event three, and
opening it fails. -/
theorem recovery_fails_in_second_compaction :
    ∃ s : LogSystem (List ℕ) ℕ, (logSystem numberVec numbersVec).Reachable s ∧
      (s.disk.reopen numberVec).1 =
        .error (.corrupt "event log starts at unexpected sequence 3") := by
  have hrun : System.run (LogSystem.step numberVec numbersVec) {}
      [.reopen, .append 10, .append 20, .compact [10, 20], .append 30, .append 40,
        .crashInCompaction [10, 20, 30, 40]] =
      some ⟨⟨some ⟨4, [10, 20, 30, 40]⟩, some ⟨[⟨3, 30⟩, ⟨4, 40⟩], 0⟩⟩, none,
        [⟨1, 10⟩, ⟨2, 20⟩, ⟨3, 30⟩, ⟨4, 40⟩]⟩ := by
    decide
  exact ⟨_, System.Reachable.run (.of_init rfl) hrun, by decide⟩

/-- The first compaction may be cut anywhere: the run of the code's own
crash test, taken one append further. -/
theorem recovery_exact_after_first_compaction :
    LogSystem.Recovers numberVec
      (⟨⟨some ⟨2, [10, 20]⟩, some ⟨[⟨1, 10⟩, ⟨2, 20⟩, ⟨3, 30⟩], 0⟩⟩, none,
        [⟨1, 10⟩, ⟨2, 20⟩, ⟨3, 30⟩]⟩ : LogSystem (List ℕ) ℕ) := by
  have hrun : System.run (System.guarded LogSystem.Safe (LogSystem.step numberVec numbersVec)) {}
      [.reopen, .append 10, .append 20, .crashInCompaction [10, 20], .reopen, .append 30, .crash] =
      some ⟨⟨some ⟨2, [10, 20]⟩, some ⟨[⟨1, 10⟩, ⟨2, 20⟩, ⟨3, 30⟩], 0⟩⟩, none,
        [⟨1, 10⟩, ⟨2, 20⟩, ⟨3, 30⟩]⟩ := by
    decide
  exact (recovery_exact_iff_safe (System.Reachable.run_guarded (.of_init rfl) hrun)).1

end Maskura.Persistence
