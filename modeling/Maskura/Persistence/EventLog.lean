import Maskura.Persistence.Frame

/-!
The event log of `filesystem_persistence.rs` and the snapshot beside it.

A log file is the list of the events its frames carry and the number of
bytes of a frame that was cut short behind them; a snapshot file is the
snapshot it holds. Where the environment can interfere, a function takes
the `FaultPoint` at which the file system gives up, and the caller sees the
error the code returns there together with what is then on disk.
-/

namespace Maskura.Persistence

open Maskura.Lib

structure Snapshot (σ : Type) where
  finalSequence : ℕ
  payload : σ
  deriving DecidableEq, Repr

/-- A log file: its whole frames, and the bytes of a torn frame after them. -/
structure LogFile (τ : Type) where
  frames : List (LoggedEvent τ) := []
  tornBytes : ℕ := 0
  deriving DecidableEq, Repr

/-- The in-memory handle of an open log. -/
structure EventLog where
  nextSequence : ℕ
  eventCount : ℕ
  byteLen : ℕ
  reloadRequired : Bool
  deriving DecidableEq, Repr

/-- Where a file operation fails: the fault points of the code's own fault
injector, and a write that stops after some bytes of a frame. -/
inductive FaultPoint
  | preWrite
  | postWrite
  | fileSync
  | rename
  | parentSync
  | append
  | appendWrite (written : ℕ)
  | appendSync
  deriving DecidableEq, Repr

/-! ### Replacing a file

`atomic_write` writes a temporary file and renames it over the target. Up to
the rename the target keeps its contents; a failure after it leaves the new
contents behind an error of unknown outcome. -/

def atomicWrite {α : Type} (fault : Option FaultPoint) (operation : String) (current new : α) :
    Except PersistenceError Unit × α :=
  match fault with
  | some .preWrite | some .postWrite | some .fileSync | some .rename =>
      (.error (.io operation), current)
  | some .parentSync => (.error (.mutationUnknown operation), new)
  | _ => (.ok (), new)

section Log

variable {σ τ : Type} (toVec : τ → Option Bytes) (snapshotVec : ℕ → σ → Option Bytes)

def atomicWriteSnapshot (fault : Option FaultPoint) (current : Option (Snapshot σ))
    (finalSequence : ℕ) (payload : σ) :
    Except PersistenceError Unit × Option (Snapshot σ) :=
  match snapshotVec finalSequence payload with
  | none => (.error (.corrupt "snapshot payload has no JSON form"), current)
  | some encoded =>
      if encoded.length > maxSnapshotBytes then
        (.error (.limitExceeded "snapshot exceeds 32 MiB"), current)
      else
        atomicWrite fault "snapshot publication" current (some ⟨finalSequence, payload⟩)

/-! ### Opening a log -/

/-- Bytes taken by whole frames. -/
def framesLen (frames : List (LoggedEvent τ)) : ℕ :=
  (frames.map fun event => frameLen (payloadLen toVec event.payload)).sum

def LogFile.byteLen (file : LogFile τ) : ℕ := framesLen toVec file.frames + file.tornBytes

/-- `EventLog::open`. The second component is the file afterwards: created
if it was missing, and without its torn tail once the frames were accepted. -/
def openEventLog (file : Option (LogFile τ)) (snapshotSequence : ℕ) :
    Except PersistenceError (EventLog × List (LoggedEvent τ)) × LogFile τ :=
  let file := file.getD {}
  if file.byteLen toVec > maxLogBytes then
    (.error (.limitExceeded "event log exceeds 32 MiB"), file)
  else
    match scanFrames toVec file.frames snapshotSequence with
    | .error error => (.error error, file)
    | .ok replay =>
        let last := max (replay.lastSequence.getD snapshotSequence) snapshotSequence
        let log : EventLog :=
          { nextSequence := last + 1
            eventCount := replay.frameCount
            byteLen := replay.validBytes
            reloadRequired := false }
        if last + 1 < u64Bound then
          (.ok (log, replay.events), { file with tornBytes := 0 })
        else
          (.error (.corrupt "event sequence overflow"), { file with tornBytes := 0 })

/-! ### Appending

The handle is only used on a file without a torn tail: opening repairs the
tail, and a short write sets `reload_required`. Bytes written behind a torn
tail would never decode as a frame, so the model keeps them in the tail. -/

def LogFile.appendFrame (file : LogFile τ) (event : LoggedEvent τ) : LogFile τ :=
  if file.tornBytes = 0 then
    { file with frames := file.frames ++ [event] }
  else
    { file with tornBytes := file.tornBytes + frameLen (payloadLen toVec event.payload) }

/-- The file after a write that stopped after `written` bytes of the frame. -/
def LogFile.appendPart (file : LogFile τ) (event : LoggedEvent τ) (written : ℕ) : LogFile τ :=
  if written < frameLen (payloadLen toVec event.payload) then
    { file with tornBytes := file.tornBytes + written }
  else
    file.appendFrame toVec event

def EventLog.append (fault : Option FaultPoint) (self : EventLog) (file : Option (LogFile τ))
    (payload : τ) : Except PersistenceError ℕ × EventLog × Option (LogFile τ) :=
  if self.reloadRequired then
    (.error .reloadRequired, self, file)
  else
    match toVec payload, file with
    | none, _ => (.error (.corrupt "event payload has no JSON form"), self, file)
    | some bytes, file =>
        let event : LoggedEvent τ := ⟨self.nextSequence, payload⟩
        if bytes.length > maxEventPayloadBytes then
          (.error (.limitExceeded "event payload exceeds 1 MiB"), self, file)
        else if saturatingAdd self.byteLen (frameLen bytes.length) > maxLogBytes then
          (.error (.limitExceeded "event log exceeds 32 MiB"), self, file)
        else
          match fault, file with
          | some .append, _ => (.error (.io "event append"), self, file)
          | _, none => (.error (.io "event append open"), self, none)
          | some (.appendWrite written), some file =>
              (.error (.mutationUnknown "event append"), { self with reloadRequired := true },
                some (file.appendPart toVec event written))
          | some .appendSync, some file =>
              (.error (.mutationUnknown "event append sync"), { self with reloadRequired := true },
                some (file.appendFrame toVec event))
          | _, some file =>
              (.ok self.nextSequence,
                { self with
                  nextSequence := wrappingAdd self.nextSequence 1
                  eventCount := self.eventCount + 1
                  byteLen := self.byteLen + frameLen bytes.length },
                some (file.appendFrame toVec event))

/-! ### Compaction -/

def EventLog.shouldCompact (self : EventLog) : Bool :=
  decide (self.eventCount ≥ compactAfterEvents ∨ self.byteLen ≥ compactAfterBytes)

/-- The files an event log lives on. -/
structure LogDisk (σ τ : Type) where
  snapshot : Option (Snapshot σ) := none
  log : Option (LogFile τ) := none
  deriving DecidableEq, Repr

/-- The sequence up to which the snapshot covers the log. -/
def LogDisk.snapshotSequence (disk : LogDisk σ τ) : ℕ :=
  (disk.snapshot.map Snapshot.finalSequence).getD 0

/-- `EventLog::compact`: publish the snapshot, then replace the log by an
empty one. -/
def EventLog.compact (snapshotFault logFault : Option FaultPoint) (self : EventLog)
    (disk : LogDisk σ τ) (payload : σ) :
    Except PersistenceError Unit × EventLog × LogDisk σ τ :=
  if self.reloadRequired then
    (.error .reloadRequired, self, disk)
  else
    let finalSequence := self.nextSequence - 1
    match atomicWriteSnapshot snapshotVec snapshotFault disk.snapshot finalSequence payload with
    | (.error error, snapshot) =>
        (.error error, { self with reloadRequired := error.isMutationUnknown },
          { disk with snapshot := snapshot })
    | (.ok (), snapshot) =>
        match atomicWrite logFault "event log compaction" disk.log (some {}) with
        | (.error error, log) =>
            (.error error, { self with reloadRequired := error.isMutationUnknown },
              { snapshot := snapshot, log := log })
        | (.ok (), log) =>
            (.ok (), { self with eventCount := 0, byteLen := 0 },
              { snapshot := snapshot, log := log })

/-- `load_snapshot` followed by `open_event_log` at the sequence of the
snapshot found, as every owner of a log does at startup. -/
def LogDisk.reopen (disk : LogDisk σ τ) :
    Except PersistenceError (EventLog × List (LoggedEvent τ)) × LogDisk σ τ :=
  let opened := openEventLog toVec disk.log disk.snapshotSequence
  (opened.1, { disk with log := some opened.2 })

end Log

/-! ### What the operations can do -/

section Outcomes

variable {σ τ : Type} (toVec : τ → Option Bytes) (snapshotVec : ℕ → σ → Option Bytes)

/-- The replacement happened or it did not, and an error that leaves this
open comes after the fact. -/
theorem atomicWrite_cases {α : Type} (fault : Option FaultPoint) (operation : String)
    (current new : α) :
    atomicWrite fault operation current new = (.ok (), new) ∨
      atomicWrite fault operation current new = (.error (.io operation), current) ∨
      atomicWrite fault operation current new = (.error (.mutationUnknown operation), new) := by
  rcases fault with - | fault
  · exact .inl rfl
  · cases fault <;> simp [atomicWrite]

theorem atomicWriteSnapshot_ok {fault : Option FaultPoint} {current snapshot : Option (Snapshot σ)}
    {finalSequence : ℕ} {payload : σ}
    (h : atomicWriteSnapshot snapshotVec fault current finalSequence payload = (.ok (), snapshot)) :
    snapshot = some ⟨finalSequence, payload⟩ := by
  simp only [atomicWriteSnapshot] at h
  split at h
  · cases h
  · split at h
    · cases h
    · rcases atomicWrite_cases fault "snapshot publication" current (some ⟨finalSequence, payload⟩)
        with hwrite | hwrite | hwrite
      · rw [hwrite] at h
        exact (congrArg Prod.snd h).symm
      · rw [hwrite] at h
        cases h
      · rw [hwrite] at h
        cases h

/-- A payload that passes every limit of `append`. -/
structure EventLog.Admits (log : EventLog) (payload : τ) : Prop where
  usable : log.reloadRequired = false
  encodes : ∃ bytes, toVec payload = some bytes
  payload_le : payloadLen toVec payload ≤ maxEventPayloadBytes
  size_le : log.byteLen + frameLen (payloadLen toVec payload) ≤ maxLogBytes

/-- The handle after a successful append. -/
def EventLog.advanced (self : EventLog) (payload : τ) : EventLog :=
  { self with
    nextSequence := wrappingAdd self.nextSequence 1
    eventCount := self.eventCount + 1
    byteLen := self.byteLen + frameLen (payloadLen toVec payload) }

theorem saturatingAdd_le {a b bound : ℕ} (hbound : bound < u64Bound - 1)
    (h : ¬saturatingAdd a b > bound) : a + b ≤ bound := by
  simp only [saturatingAdd] at h
  omega

/-- Every way an append can end: turned away with nothing written, written
in full, written with its outcome unknown, or cut short. -/
theorem EventLog.append_cases (fault : Option FaultPoint) (self : EventLog)
    (file : Option (LogFile τ)) (payload : τ) :
    (∃ error, error.isMutationUnknown = false ∧
        self.append toVec fault file payload = (.error error, self, file)) ∨
      ∃ f, file = some f ∧ self.Admits toVec payload ∧
        (self.append toVec fault file payload =
            (.ok self.nextSequence, self.advanced toVec payload,
              some (f.appendFrame toVec ⟨self.nextSequence, payload⟩)) ∨
          (fault = some .appendSync ∧ ∃ operation, self.append toVec fault file payload =
            (.error (.mutationUnknown operation), { self with reloadRequired := true },
              some (f.appendFrame toVec ⟨self.nextSequence, payload⟩))) ∨
          ∃ operation written, fault = some (.appendWrite written) ∧
            self.append toVec fault file payload =
              (.error (.mutationUnknown operation), { self with reloadRequired := true },
                some (f.appendPart toVec ⟨self.nextSequence, payload⟩ written))) := by
  cases hreload : self.reloadRequired with
  | true => exact .inl ⟨.reloadRequired, rfl, by simp [EventLog.append, hreload]⟩
  | false =>
      cases hbytes : toVec payload with
      | none =>
          exact .inl ⟨.corrupt "event payload has no JSON form", rfl, by
            simp [EventLog.append, hreload, hbytes]⟩
      | some bytes =>
          have hlen : payloadLen toVec payload = bytes.length := by simp [payloadLen, hbytes]
          by_cases hpayload : bytes.length > maxEventPayloadBytes
          · exact .inl ⟨.limitExceeded "event payload exceeds 1 MiB", rfl, by
              simp [EventLog.append, hreload, hbytes, hpayload]⟩
          by_cases hsize : saturatingAdd self.byteLen (frameLen bytes.length) > maxLogBytes
          · exact .inl ⟨.limitExceeded "event log exceeds 32 MiB", rfl, by
              simp [EventLog.append, hreload, hbytes, hpayload, hsize]⟩
          have hadmits : self.Admits toVec payload :=
            ⟨hreload, ⟨bytes, hbytes⟩, by omega,
              hlen ▸ saturatingAdd_le (by decide) hsize⟩
          cases file with
          | none =>
              left
              by_cases hfault : fault = some .append
              · exact ⟨.io "event append", rfl, by
                  simp [EventLog.append, hreload, hbytes, hpayload, hsize, hfault]⟩
              · refine ⟨.io "event append open", rfl, ?_⟩
                simp only [EventLog.append, hreload, hbytes, hpayload, hsize, if_false,
                  Bool.false_eq_true]
          | some f =>
              rcases fault with - | fault
              · refine .inr ⟨f, rfl, hadmits, .inl ?_⟩
                simp [EventLog.append, hreload, hbytes, hpayload, hsize, EventLog.advanced, hlen]
              · cases fault with
                | append =>
                    exact .inl ⟨.io "event append", rfl, by
                      simp [EventLog.append, hreload, hbytes, hpayload, hsize]⟩
                | appendWrite written =>
                    refine .inr ⟨f, rfl, hadmits, .inr (.inr ⟨"event append", written, rfl, ?_⟩)⟩
                    simp [EventLog.append, hreload, hbytes, hpayload, hsize]
                | appendSync =>
                    refine .inr ⟨f, rfl, hadmits, .inr (.inl ⟨rfl, "event append sync", ?_⟩)⟩
                    simp [EventLog.append, hreload, hbytes, hpayload, hsize]
                | _ =>
                    refine .inr ⟨f, rfl, hadmits, .inl ?_⟩
                    simp [EventLog.append, hreload, hbytes, hpayload, hsize, EventLog.advanced, hlen]

/-- Without a fault, what the limits admit is written. -/
theorem EventLog.Admits.append {self : EventLog} {payload : τ} (h : self.Admits toVec payload)
    (file : LogFile τ) :
    self.append toVec none (some file) payload =
      (.ok self.nextSequence, self.advanced toVec payload,
        some (file.appendFrame toVec ⟨self.nextSequence, payload⟩)) := by
  obtain ⟨bytes, hbytes⟩ := h.encodes
  have hlen : payloadLen toVec payload = bytes.length := by simp [payloadLen, hbytes]
  have hpayload : ¬bytes.length > maxEventPayloadBytes := by
    have := h.payload_le
    omega
  have hsize : ¬saturatingAdd self.byteLen (frameLen bytes.length) > maxLogBytes := by
    have := h.size_le
    rw [hlen] at this
    simp only [saturatingAdd]
    omega
  simp [EventLog.append, h.usable, hbytes, hpayload, hsize, EventLog.advanced, hlen]

/-- The snapshot a compaction publishes. -/
def EventLog.snapshotOf (self : EventLog) (payload : σ) : Snapshot σ :=
  ⟨self.nextSequence - 1, payload⟩

/-- The faults under which a compaction publishes its snapshot and leaves the
log as it was. -/
def splitsCompaction (snapshotFault logFault : Option FaultPoint) : Bool :=
  match snapshotFault with
  | some .parentSync => true
  | some .preWrite | some .postWrite | some .fileSync | some .rename => false
  | _ =>
      match logFault with
      | some .preWrite | some .postWrite | some .fileSync | some .rename => true
      | _ => false

/-- Every way a compaction can end: nothing changed, the snapshot published
but the old log still there, or both files replaced. -/
theorem EventLog.compact_cases (snapshotFault logFault : Option FaultPoint) (self : EventLog)
    (disk : LogDisk σ τ) (payload : σ) :
    (∃ error, error.isMutationUnknown = false ∧
        self.compact snapshotVec snapshotFault logFault disk payload = (.error error, self, disk)) ∨
      (self.reloadRequired = false ∧ splitsCompaction snapshotFault logFault = true ∧
        ∃ error reload, error.isMutationUnknown = reload ∧
        self.compact snapshotVec snapshotFault logFault disk payload =
          (.error error, { self with reloadRequired := reload },
            { disk with snapshot := some (self.snapshotOf payload) })) ∨
      (self.reloadRequired = false ∧
        self.compact snapshotVec snapshotFault logFault disk payload =
          (.error (.mutationUnknown "event log compaction"), { self with reloadRequired := true },
            { snapshot := some (self.snapshotOf payload), log := some {} })) ∨
      (self.reloadRequired = false ∧
        self.compact snapshotVec snapshotFault logFault disk payload =
          (.ok (), { self with eventCount := 0, byteLen := 0 },
            { snapshot := some (self.snapshotOf payload), log := some {} })) := by
  cases hreload : self.reloadRequired with
  | true => exact .inl ⟨.reloadRequired, rfl, by simp [EventLog.compact, hreload]⟩
  | false =>
      have hself : { self with reloadRequired := false } = self := by rw [← hreload]
      simp only [EventLog.compact, atomicWriteSnapshot, EventLog.snapshotOf, hreload]
      cases snapshotVec (self.nextSequence - 1) payload with
      | none =>
          exact .inl ⟨.corrupt "snapshot payload has no JSON form", rfl,
            by simp [hself, PersistenceError.isMutationUnknown]⟩
      | some encoded =>
          by_cases hsize : encoded.length > maxSnapshotBytes
          · exact .inl ⟨.limitExceeded "snapshot exceeds 32 MiB", rfl,
              by simp [hsize, hself, PersistenceError.isMutationUnknown]⟩
          simp only [hsize]
          rcases atomicWrite_cases snapshotFault "snapshot publication" disk.snapshot
            (some ⟨self.nextSequence - 1, payload⟩) with hpublish | hpublish | hpublish
          · rcases atomicWrite_cases logFault "event log compaction" disk.log (some {})
              with hlog | hlog | hlog
            · exact .inr (.inr (.inr ⟨trivial, by simp [hpublish, hlog]⟩))
            · have hsplit : splitsCompaction snapshotFault logFault = true := by
                rcases snapshotFault with - | s <;> rcases logFault with - | l <;>
                  first
                  | (cases s <;> cases l <;> simp_all [atomicWrite, splitsCompaction])
                  | (cases l <;> simp_all [atomicWrite, splitsCompaction])
                  | simp_all [atomicWrite]
              refine .inr (.inl ⟨trivial, hsplit, .io "event log compaction", false, rfl, ?_⟩)
              simp [hpublish, hlog, PersistenceError.isMutationUnknown]
            · refine .inr (.inr (.inl ⟨trivial, ?_⟩))
              simp [hpublish, hlog, PersistenceError.isMutationUnknown]
          · refine .inl ⟨.io "snapshot publication", rfl, ?_⟩
            simp [hpublish, hself, PersistenceError.isMutationUnknown]
          · have hsplit : splitsCompaction snapshotFault logFault = true := by
              rcases snapshotFault with - | s
              · simp [atomicWrite] at hpublish
              · cases s <;> simp_all [atomicWrite, splitsCompaction]
            refine .inr (.inl ⟨trivial, hsplit, .mutationUnknown "snapshot publication", true, rfl, ?_⟩)
            simp [hpublish, PersistenceError.isMutationUnknown]

theorem atomicWriteSnapshot_preWrite (current : Option (Snapshot σ)) (finalSequence : ℕ)
    (payload : σ) :
    ∃ error, error.isMutationUnknown = false ∧
      atomicWriteSnapshot snapshotVec (some .preWrite) current finalSequence payload =
        (.error error, current) := by
  simp only [atomicWriteSnapshot]
  split
  · exact ⟨_, rfl, rfl⟩
  · split
    · exact ⟨_, rfl, rfl⟩
    · exact ⟨_, rfl, rfl⟩

/-- A compaction that fails before it writes leaves everything as it was. -/
theorem EventLog.compact_preWrite (logFault : Option FaultPoint) (self : EventLog)
    (disk : LogDisk σ τ) (payload : σ) :
    ∃ error, error.isMutationUnknown = false ∧
      self.compact snapshotVec (some .preWrite) logFault disk payload =
        (.error error, self, disk) := by
  cases hreload : self.reloadRequired with
  | true => exact ⟨.reloadRequired, rfl, by simp [EventLog.compact, hreload]⟩
  | false =>
      have hself : { self with reloadRequired := false } = self := by rw [← hreload]
      obtain ⟨error, hknown, hwrite⟩ :=
        atomicWriteSnapshot_preWrite snapshotVec disk.snapshot (self.nextSequence - 1) payload
      exact ⟨error, hknown, by simp [EventLog.compact, hreload, hwrite, hknown, hself]⟩

end Outcomes

end Maskura.Persistence
