import Maskura.Multipart.Agreement

/-!
A process that stops in the middle of a call.

A call of the repository is a list of file system steps on the directory of
its upload. A stop leaves the steps before it done, and of the frame being
written as many bytes as got through. Whether the next start finds the store
depends on the last step that was done: a directory or a log without a first
event, and a temporary file, make `load_entries` refuse the whole store.
-/

namespace Maskura.Multipart

open Maskura.Lib Maskura.Persistence

/-! ### File system steps -/

inductive FileEffect
  | createDirectory
  | createLog
  | append (logged : LoggedEvent FileMultipartEventV1)
  | createTemporary (name : String)
  | renameSnapshot (name : String) (stored : Snapshot FileMultipartSnapshotV1)
  /-- An empty temporary file takes the place of the log. -/
  | renameLog (name : String)
  | removeLog
  | removeDirectory

/-- One step on the directory of an upload, if there is one. -/
def FileEffect.run (toVec : FileMultipartEventV1 → Option Bytes)
    (directory : Option UploadDirectory) : FileEffect → Option UploadDirectory
  | .createDirectory => some (directory.getD {})
  | .createLog => directory.map fun d => { d with log := some (d.log.getD {}) }
  | .append logged =>
      directory.map fun d => { d with log := d.log.map fun file => file.appendFrame toVec logged }
  | .createTemporary name =>
      directory.map fun d => { d with temporaries := name :: d.temporaries }
  | .renameSnapshot name stored =>
      directory.map fun d =>
        { d with snapshot := some stored, temporaries := d.temporaries.erase name }
  | .renameLog name =>
      directory.map fun d => { d with log := some {}, temporaries := d.temporaries.erase name }
  | .removeLog => directory.map fun d => { d with log := none }
  | .removeDirectory => directory.filter fun d => d.fileNames ≠ []

/-- What is left of a step that was cut short: of an append, the bytes that
were written. -/
def FileEffect.runPart (toVec : FileMultipartEventV1 → Option Bytes) (written : ℕ)
    (directory : Option UploadDirectory) : FileEffect → Option UploadDirectory
  | .append logged =>
      directory.map fun d =>
        { d with log := d.log.map fun file => file.appendPart toVec logged written }
  | _ => directory

/-- Where a process stops: after this many steps, and this many bytes into
the frame that comes next. -/
structure StopPoint where
  steps : ℕ
  written : ℕ
  deriving DecidableEq, Repr

def runUntil (toVec : FileMultipartEventV1 → Option Bytes) (point : StopPoint)
    (directory : Option UploadDirectory) (effects : List FileEffect) : Option UploadDirectory :=
  let done := (effects.take point.steps).foldl (FileEffect.run toVec) directory
  match effects[point.steps]? with
  | some effect => effect.runPart toVec point.written done
  | none => done

/-! ### The steps of a call -/

/-- A call of the repository, with the ids its temporary files are named
after. -/
inductive StoreCall
  | create (eventId : Uuid) (upload : MultipartUpload)
  | apply (uploadId : String) (eventId : Uuid) (transition : FileMultipartTransitionV1)
      (snapshotId logId : Uuid)

def StoreCall.uploadId : StoreCall → String
  | .create _ upload => upload.identity.uploadId
  | .apply uploadId _ _ _ _ => uploadId

def StoreCall.eventId : StoreCall → Uuid
  | .create eventId _ => eventId
  | .apply _ eventId _ _ _ => eventId

/-- `unique_temporary_path`. -/
def temporaryName (ext : StoreExternals) (name : String) (id : Uuid) : String :=
  "." ++ name ++ "." ++ ext.uuidText id ++ ".tmp"

/-- Both files of a compaction are replaced, the snapshot first. -/
def compactionSteps (ext : StoreExternals) (log : EventLog)
    (snapshot : FileMultipartSnapshotV1) (snapshotId logId : Uuid) : List FileEffect :=
  [.createTemporary (temporaryName ext snapshotFile snapshotId),
    .renameSnapshot (temporaryName ext snapshotFile snapshotId) (log.snapshotOf snapshot),
    .createTemporary (temporaryName ext eventLogFile logId),
    .renameLog (temporaryName ext eventLogFile logId)]

/-- The steps of `EventLog::compact`: none if the snapshot has no text within
the limit. -/
def compactionEffects (ext : StoreExternals) (log : EventLog)
    (snapshot : FileMultipartSnapshotV1) (snapshotId logId : Uuid) : List FileEffect :=
  match ext.snapshotVec (log.nextSequence - 1) snapshot with
  | none => []
  | some encoded =>
      if encoded.length > maxSnapshotBytes then []
      else compactionSteps ext log snapshot snapshotId logId

/-- A call that runs to its end without a fault. -/
def FileMultipartStore.perform (ext : StoreExternals) (self : FileMultipartStore) :
    StoreCall → Except MutationFailure Unit × FileMultipartStore
  | .create eventId upload => self.createUpload ext none eventId upload
  | .apply uploadId eventId transition _ _ =>
      self.applyTransition ext {} uploadId eventId transition

/-- The file system steps of such a call. -/
def FileMultipartStore.effects (ext : StoreExternals) (self : FileMultipartStore) :
    StoreCall → List FileEffect
  | .create eventId upload =>
      match self.state.prepareUpload ext eventId upload with
      | .error _ => []
      | .ok (event, _) =>
          match freshLog.append ext.eventVec none (some {}) event with
          | (.ok _, _, _) => [.createDirectory, .createLog, .append ⟨1, event⟩]
          | (.error _, _, _) => [.createDirectory, .createLog, .removeLog, .removeDirectory]
  | .apply uploadId eventId transition snapshotId logId =>
      match self.state.prepareEvent ext.toExternals uploadId eventId transition with
      | .error _ => []
      | .ok (entry, event, candidate) =>
          match entry.log.append ext.eventVec none (self.root.getD uploadId {}).log event with
          | (.error _, _, _) => []
          | (.ok _, log, _) =>
              .append ⟨entry.log.nextSequence, event⟩ ::
                if log.shouldCompact then
                  compactionEffects ext log candidate.snapshot snapshotId logId
                else []

/-- Put back a directory, or take it away. -/
def setDirectory (root : UploadsRoot) (uploadId : String) :
    Option UploadDirectory → UploadsRoot
  | some directory => root.insert uploadId directory
  | none => root.erase uploadId

theorem setDirectory_getElem? (root : UploadsRoot) (uploadId other : String)
    (directory : Option UploadDirectory) :
    (setDirectory root uploadId directory)[other]? =
      if uploadId = other then directory else root[other]? := by
  cases directory with
  | some directory => exact FinMap.getElem?_insert_eq _ _ _ _
  | none => exact FinMap.getElem?_erase_eq _ _ _

theorem setDirectory_same (root : UploadsRoot) (uploadId other : String) :
    (setDirectory root uploadId root[uploadId]?)[other]? = root[other]? := by
  rw [setDirectory_getElem?]
  split
  · next hother => rw [hother]
  · rfl

/-- The directories after a process stopped in a call. -/
def FileMultipartStore.stopped (ext : StoreExternals) (self : FileMultipartStore)
    (call : StoreCall) (point : StopPoint) : UploadsRoot :=
  setDirectory self.root call.uploadId
    (runUntil ext.eventVec point self.root[call.uploadId]? (self.effects ext call))

/-! ### Where it is safe to stop -/

/-- A store that was stopped right after this step loads again. The directory
is that of the upload before the call. -/
def FileEffect.Settled (directory : Option UploadDirectory) : FileEffect → Prop
  | .createDirectory | .createLog | .createTemporary _ | .removeLog => False
  | .renameSnapshot _ _ =>
      ∀ d ∈ directory, ∀ file ∈ d.log, ∀ first ∈ file.frames.head?, first.sequence = 1
  | .append _ | .renameLog _ | .removeDirectory => True

instance (directory : Option UploadDirectory) :
    (effect : FileEffect) → Decidable (effect.Settled directory)
  | .createDirectory | .createLog | .createTemporary _ | .removeLog => isFalse id
  | .renameSnapshot _ _ => inferInstanceAs (Decidable (∀ d ∈ directory, ∀ file ∈ d.log,
      ∀ first ∈ file.frames.head?, first.sequence = 1))
  | .append _ | .renameLog _ | .removeDirectory => isTrue trivial

/-- The last step before the stop is a settled one, and the upload has room
for another event. -/
def FileMultipartStore.StopSafe (ext : StoreExternals) (store : FileMultipartStore)
    (call : StoreCall) (point : StopPoint) : Prop :=
  (∀ effect ∈ ((store.effects ext call).take point.steps).getLast?,
    effect.Settled store.root[call.uploadId]?) ∧ store.Safe {} call.uploadId

/-- The snapshot that the event of a call leads to. -/
def FileMultipartState.candidate (ext : StoreExternals) (self : FileMultipartState) :
    StoreCall → Option FileMultipartSnapshotV1
  | .create eventId upload =>
      (self.prepareUpload ext eventId upload).toOption.map fun prepared => prepared.2.snapshot
  | .apply uploadId eventId transition _ _ =>
      (self.prepareEvent ext.toExternals uploadId eventId transition).toOption.map
        fun prepared => prepared.2.2.snapshot

/-- What a stop leaves: the snapshots in memory, or those with the event in
flight. -/
structure Survives (ext : StoreExternals) (issued : List Uuid) (store : FileMultipartStore)
    (call : StoreCall) (root : UploadsRoot)
    (view : Std.TreeMap String FileMultipartSnapshotV1) : Prop where
  root : RootHolds ext issued root view
  quotas : WithinQuotas store.state.quotas (view.toList.map Prod.snd)
  view : (∀ other : String, view[other]? = store.view[other]?) ∨
    ∃ candidate, store.state.candidate ext call = some candidate ∧
      ∀ other : String, view[other]? = (store.view.insert call.uploadId candidate)[other]?

section Stop

variable {ext : StoreExternals} {issued : List Uuid} {store : FileMultipartStore}
  {point : StopPoint}

/-- Directories that are as they were. -/
theorem FileMultipartStore.Inv.survives (h : store.Inv ext issued) {call : StoreCall}
    {root : UploadsRoot} (hroot : ∀ other : String, root[other]? = store.root[other]?) :
    Survives ext issued store call root store.view := by
  refine ⟨fun other => ?_, h.viewQuotas, .inl fun _ => rfl⟩
  rw [hroot]
  exact h.rootHolds other

theorem runUntil_nil (toVec : FileMultipartEventV1 → Option Bytes)
    (directory : Option UploadDirectory) : runUntil toVec point directory [] = directory := by
  simp [runUntil]

variable {uploadId : String} {entry : FileMultipartEntry} {event : FileMultipartEventV1}
  {candidate : FileMultipartSnapshotV1} {directory : UploadDirectory}
  {history : List (LoggedEvent FileMultipartEventV1)} {file : LogFile FileMultipartEventV1}

/-- Stopping in a transition whose event the log admits: its directory keeps
the snapshot before the event or the one after it. -/
theorem Prepared.runUntil
    (p : Prepared ext issued store uploadId entry event candidate directory history)
    (hadmits : entry.log.Admits ext.eventVec event) (hfile : directory.log = some file)
    (hroom : store.Safe {} uploadId) (point : StopPoint) {rest : List FileEffect} {snapshotId logId : Uuid}
    (hrest : rest = [] ∨ (entry.log.advanced ext.eventVec event).shouldCompact = true ∧
      rest = compactionSteps ext (entry.log.advanced ext.eventVec event) candidate snapshotId logId)
    (hsafe : ∀ effect ∈ ((FileEffect.append ⟨entry.log.nextSequence, event⟩ :: rest).take
      point.steps).getLast?, effect.Settled (some directory)) :
    ∃ directory' history',
      Multipart.runUntil ext.eventVec point (some directory)
          (.append ⟨entry.log.nextSequence, event⟩ :: rest) = some directory' ∧
        (directory'.Kept ext (event.eventId :: issued) uploadId history' entry.reducer.snapshot ∨
          directory'.Kept ext (event.eventId :: issued) uploadId history' candidate) := by
  obtain ⟨hlogged, htracks⟩ := p.logged hroom hadmits hfile
  have hreplayable : List.length (history ++ [LoggedEvent.mk entry.log.nextSequence event]) ≤
      ((entry.log.advanced ext.eventVec event).snapshotOf candidate).finalSequence +
        maxReplayEvents := by
    rw [EventLog.snapshotOf, htracks.nextSequence, Nat.add_sub_cancel]
    exact Nat.le_add_right _ _
  have hlog : directory.log.map (fun file =>
      file.appendFrame ext.eventVec ⟨entry.log.nextSequence, event⟩) =
        some (file.appendFrame ext.eventVec ⟨entry.log.nextSequence, event⟩) := by
    rw [hfile]
    rfl
  obtain ⟨steps, written⟩ := point
  cases steps with
  | zero =>
      -- The frame itself is being written.
      by_cases hwritten : written < frameLen (payloadLen ext.eventVec event)
      · refine ⟨_, history, ?_, .inl (p.torn hadmits hfile hwritten)⟩
        simp [Multipart.runUntil, FileEffect.runPart, hfile]
      · refine ⟨_, _, ?_, .inr hlogged⟩
        simp [Multipart.runUntil, FileEffect.runPart, hfile, LogFile.appendPart, hwritten]
  | succ steps =>
      rcases hrest with rfl | ⟨hcompact, rfl⟩
      · refine ⟨_, _, ?_, .inr hlogged⟩
        simp [Multipart.runUntil, FileEffect.run, hlog]
      · rcases steps with _ | _ | _ | _ | steps
        · -- The event is logged, and the compaction has not begun.
          refine ⟨_, _, ?_, .inr hlogged⟩
          simp [Multipart.runUntil, compactionSteps, FileEffect.run, FileEffect.runPart, hlog]
        · exact (hsafe _ rfl).elim
        · -- The snapshot is published, and the log is still the old one.
          have hstart : ∀ first ∈ file.frames.head?, first.sequence = 1 :=
            hsafe (.renameSnapshot _ _) rfl directory rfl file hfile
          have hpublished := hlogged.holds.publish htracks
            (tracks_head_append p.tracks hadmits hfile hcompact hstart)
          refine ⟨_, _, ?_, .inr ⟨hpublished, hreplayable, hlogged.issued⟩⟩
          simp [Multipart.runUntil, compactionSteps, FileEffect.run, FileEffect.runPart, hlog]
        · exact (hsafe _ rfl).elim
        · obtain ⟨hcompacted, -⟩ := hlogged.holds.compact htracks
          refine ⟨_, _, ?_, .inr ⟨hcompacted, hreplayable, hlogged.issued⟩⟩
          simp [Multipart.runUntil, compactionSteps, FileEffect.run, hlog]

theorem compactionEffects_cases (ext : StoreExternals) (log : EventLog)
    (snapshot : FileMultipartSnapshotV1) (snapshotId logId : Uuid) :
    compactionEffects ext log snapshot snapshotId logId = [] ∨
      compactionEffects ext log snapshot snapshotId logId =
        compactionSteps ext log snapshot snapshotId logId := by
  rw [compactionEffects]
  split
  · exact .inl rfl
  · split
    · exact .inl rfl
    · exact .inr rfl

/-- A call that takes no step at all. -/
theorem FileMultipartStore.Inv.survives_nil (h : store.Inv ext issued) (call : StoreCall)
    (heffects : store.effects ext call = []) :
    Survives ext (call.eventId :: issued) store call (store.stopped ext call point) store.view := by
  refine (h.mono (List.subset_cons_self _ _)).survives fun other => ?_
  rw [FileMultipartStore.stopped, heffects, runUntil_nil, setDirectory_same]

theorem FileMultipartStore.Inv.stopped_apply (h : store.Inv ext issued) {eventId : Uuid}
    (hid : eventId ∉ issued) {transition : FileMultipartTransitionV1} {snapshotId logId : Uuid}
    (hsafe : store.StopSafe ext (.apply uploadId eventId transition snapshotId logId) point) :
    ∃ view, Survives ext (eventId :: issued) store
      (.apply uploadId eventId transition snapshotId logId)
      (store.stopped ext (.apply uploadId eventId transition snapshotId logId) point) view := by
  obtain ⟨hsettled, hroom⟩ := hsafe
  cases hprepare : store.state.prepareEvent ext.toExternals uploadId eventId transition with
  | error error =>
      exact ⟨_, h.survives_nil (.apply uploadId eventId transition snapshotId logId) (by
        simp only [FileMultipartStore.effects, hprepare])⟩
  | ok prepared =>
      obtain ⟨entry, event, candidate⟩ := prepared
      obtain ⟨directory, history, p⟩ := h.prepared hid hprepare
      obtain ⟨-, -, rfl, -⟩ := prepareEvent_ok hprepare
      rcases EventLog.append_cases ext.eventVec none entry.log directory.log event with
        ⟨error, -, happend⟩ | ⟨file, hfile, hadmits, happend | ⟨hfault, -⟩ | ⟨_, _, hfault, -⟩⟩
      · exact ⟨_, h.survives_nil (.apply uploadId event.eventId transition snapshotId logId) (by
            simp only [FileMultipartStore.effects, hprepare, p.getD, happend])⟩
      · have heffects : ∃ rest, store.effects ext
            (.apply uploadId event.eventId transition snapshotId logId) =
              .append ⟨entry.log.nextSequence, event⟩ :: rest ∧
            (rest = [] ∨ (entry.log.advanced ext.eventVec event).shouldCompact = true ∧
              rest = compactionSteps ext (entry.log.advanced ext.eventVec event) candidate.snapshot
                snapshotId logId) := by
          refine ⟨if (entry.log.advanced ext.eventVec event).shouldCompact then
            compactionEffects ext (entry.log.advanced ext.eventVec event) candidate.snapshot
              snapshotId logId else [],
            by simp only [FileMultipartStore.effects, hprepare, p.getD, happend], ?_⟩
          split
          · next hcompact =>
              rcases compactionEffects_cases ext (entry.log.advanced ext.eventVec event)
                candidate.snapshot snapshotId logId with hnone | hsome
              · exact .inl hnone
              · exact .inr ⟨hcompact, hsome⟩
          · exact .inl rfl
        obtain ⟨rest, heffects, hrest⟩ := heffects
        rw [heffects] at hsettled
        obtain ⟨directory', history', hrun, hkept⟩ := p.runUntil hadmits hfile hroom point
          hrest (by
            intro effect heffect
            have := hsettled effect heffect
            rwa [show store.root[(StoreCall.apply uploadId event.eventId transition snapshotId
              logId).uploadId]? = some directory from p.directory_eq] at this)
        have hroot : ∀ other : String,
            (store.stopped ext (.apply uploadId event.eventId transition snapshotId logId)
              point)[other]? = if uploadId = other then some directory' else store.root[other]? := by
          intro other
          rw [FileMultipartStore.stopped, setDirectory_getElem?, heffects]
          simp only [StoreCall.uploadId, p.directory_eq, hrun]
        have hinv := h.mono (List.subset_cons_self event.eventId issued)
        rcases hkept with hold | hnew
        · refine ⟨_, hinv.rootHolds_set hold hroot, h.quotas_same p.view, .inl p.view_same⟩
        · refine ⟨_, hinv.rootHolds_set hnew hroot, p.quotas, .inr ⟨candidate.snapshot, ?_, ?_⟩⟩
          · simp [FileMultipartState.candidate, hprepare, Except.toOption]
          · exact fun _ => rfl
      · cases hfault
      · cases hfault

theorem FileMultipartStore.Inv.stopped_create (h : store.Inv ext issued) {eventId : Uuid}
    {upload : MultipartUpload} (hsafe : store.StopSafe ext (.create eventId upload) point) :
    ∃ view, Survives ext (eventId :: issued) store (.create eventId upload)
      (store.stopped ext (.create eventId upload) point) view := by
  obtain ⟨hsettled, -⟩ := hsafe
  have hinv := h.mono (List.subset_cons_self eventId issued)
  cases hprepare : store.state.prepareUpload ext eventId upload with
  | error error =>
      exact ⟨_, h.survives_nil (.create eventId upload) (by
        simp only [FileMultipartStore.effects, hprepare])⟩
  | ok prepared =>
      obtain ⟨event, candidate⟩ := prepared
      obtain ⟨hname, hentry, hevent, rfl, hidentity, hvalidate⟩ := prepareUpload_ok hprepare
      have hnone := h.root_none hentry
      -- Nothing is left of a creation that ends without a directory.
      have hgone : Multipart.runUntil ext.eventVec point none
          (store.effects ext (.create event.eventId upload)) = none →
          Survives ext (event.eventId :: issued) store (.create event.eventId upload)
            (store.stopped ext (.create event.eventId upload) point) store.view := by
        intro hrun
        refine hinv.survives fun other => ?_
        rw [← setDirectory_same store.root upload.identity.uploadId, hnone, ← hrun, ← hnone]
        rfl
      obtain ⟨steps, written⟩ := point
      rcases EventLog.append_cases ext.eventVec none freshLog (some {}) event with
        ⟨error, -, happend⟩ | ⟨file, hfile, hadmits, happend | ⟨hfault, -⟩ | ⟨_, _, hfault, -⟩⟩
      · have heffects : store.effects ext (.create event.eventId upload) =
            [.createDirectory, .createLog, .removeLog, .removeDirectory] := by
          simp only [FileMultipartStore.effects, hprepare, happend]
        rw [heffects] at hsettled
        refine ⟨_, hgone ?_⟩
        rw [heffects]
        rcases steps with _ | _ | _ | _ | steps
        · rfl
        · exact (hsettled _ rfl).elim
        · exact (hsettled _ rfl).elim
        · exact (hsettled _ rfl).elim
        · simp [Multipart.runUntil, FileEffect.run, UploadDirectory.fileNames]
      · obtain rfl := Option.some.inj hfile
        have heffects : store.effects ext (.create event.eventId upload) =
            [.createDirectory, .createLog, .append ⟨1, event⟩] := by
          simp only [FileMultipartStore.effects, hprepare, happend]
        rw [heffects] at hsettled
        rcases steps with _ | _ | _ | steps
        · refine ⟨_, hgone ?_⟩
          rw [heffects]
          rfl
        · exact (hsettled _ rfl).elim
        · exact (hsettled _ rfl).elim
        · obtain ⟨hkept, -⟩ := UploadDirectory.kept_created hname hevent hadmits hidentity
          refine ⟨_, hinv.rootHolds_set hkept fun other => ?_, validateCandidate_quotas hvalidate,
            .inr ⟨candidate.snapshot, ?_, fun _ => rfl⟩⟩
          · rw [FileMultipartStore.stopped, setDirectory_getElem?, heffects]
            simp only [StoreCall.uploadId, hnone]
            simp [Multipart.runUntil, FileEffect.run, LogFile.appendFrame]
          · simp [FileMultipartState.candidate, hprepare, Except.toOption]
      · cases hfault
      · cases hfault

/-! ### All steps of a call -/

/-- Done to the end, the steps of a compaction leave what `EventLog::compact`
leaves, whose outcome is not in doubt. -/
theorem compactionEffects_run (ext : StoreExternals) {log : EventLog}
    (hlog : log.reloadRequired = false) (directory : UploadDirectory)
    (snapshot : FileMultipartSnapshotV1) (snapshotId logId : Uuid) :
    ∃ result log' disk,
      log.compact ext.snapshotVec none none directory.toLogDisk snapshot = (result, log', disk) ∧
      (∀ error, result = .error error → error.isMutationUnknown = false) ∧
      (compactionEffects ext log snapshot snapshotId logId).foldl (FileEffect.run ext.eventVec)
          (some directory) = some { directory with toLogDisk := disk } := by
  rw [compactionEffects]
  cases hencoded : ext.snapshotVec (log.nextSequence - 1) snapshot with
  | none =>
      simp [EventLog.compact, atomicWriteSnapshot, hlog, hencoded, PersistenceError.isMutationUnknown]
  | some encoded =>
      by_cases hsize : encoded.length > maxSnapshotBytes
      · simp [EventLog.compact, atomicWriteSnapshot, hlog, hencoded, hsize,
          PersistenceError.isMutationUnknown]
      · simp [EventLog.compact, atomicWriteSnapshot, atomicWrite, hlog, hencoded, hsize,
          compactionSteps, FileEffect.run, EventLog.snapshotOf]

theorem compactUpload_root (ext : StoreExternals) (store : FileMultipartStore) (uploadId : String)
    (entry : FileMultipartEntry) (hlog : entry.log.reloadRequired = false)
    (directory : UploadDirectory) (snapshotId logId : Uuid) :
    ∃ directory', (if entry.log.shouldCompact then
          compactionEffects ext entry.log entry.reducer.snapshot snapshotId logId
        else []).foldl (FileEffect.run ext.eventVec) (some directory) = some directory' ∧
      (store.compactUpload ext {} uploadId entry directory).root =
        store.root.insert uploadId directory' := by
  rw [FileMultipartStore.compactUpload]
  split
  · obtain ⟨result, log, disk, hcompact, hknown, hrun⟩ :=
      compactionEffects_run ext hlog directory entry.reducer.snapshot snapshotId logId
    refine ⟨_, hrun, ?_⟩
    simp only [hcompact]
    cases result with
    | ok _ => rfl
    | error error =>
        simp only [hknown error rfl, Bool.false_eq_true, if_false]
        rfl
  · exact ⟨directory, rfl, rfl⟩

/-- Done to the end, the steps of a call leave the directories of the call itself. -/
theorem FileMultipartStore.Inv.effects_run (h : store.Inv ext issued) {call : StoreCall}
    (hid : call.eventId ∉ issued) (other : String) :
    (setDirectory store.root call.uploadId ((store.effects ext call).foldl
      (FileEffect.run ext.eventVec) store.root[call.uploadId]?))[other]? =
        (store.perform ext call).2.root[other]? := by
  cases call with
  | create eventId upload =>
      cases hprepare : store.state.prepareUpload ext eventId upload with
      | error error =>
          simp only [FileMultipartStore.effects, FileMultipartStore.perform,
            FileMultipartStore.createUpload, hprepare, List.foldl_nil, setDirectory_same]
      | ok prepared =>
          obtain ⟨event, candidate⟩ := prepared
          obtain ⟨-, hentry, -⟩ := prepareUpload_ok hprepare
          have hnone := h.root_none hentry
          have hgetD : store.root.getD upload.identity.uploadId {} = {} := by
            rw [Std.TreeMap.getD_eq_getD_getElem?, hnone]
            rfl
          simp only [setDirectory_getElem?, FileMultipartStore.perform,
            FileMultipartStore.createUpload, StoreCall.uploadId, FileMultipartStore.effects, hprepare,
            hgetD, hnone, openEventLog_missing, ne_eq, not_true_eq_false, if_false]
          rcases EventLog.append_cases ext.eventVec none freshLog (some {}) event with
            ⟨error, hknown, happend⟩ |
              ⟨file, hfile, hadmits, happend | ⟨hfault, -⟩ | ⟨_, _, hfault, -⟩⟩
          · simp [happend, hknown, FileEffect.run, UploadDirectory.fileNames,
              FinMap.getElem?_erase_eq, Option.filter_some]
          · obtain rfl := Option.some.inj hfile
            rw [happend]
            exact (FinMap.getElem?_insert_eq _ _ _ _).symm
          · cases hfault
          · cases hfault
  | apply uploadId eventId transition snapshotId logId =>
      cases hprepare : store.state.prepareEvent ext.toExternals uploadId eventId transition with
      | error error =>
          simp only [FileMultipartStore.effects, FileMultipartStore.perform,
            FileMultipartStore.applyTransition, hprepare, List.foldl_nil, setDirectory_same]
      | ok prepared =>
          obtain ⟨entry, event, candidate⟩ := prepared
          obtain ⟨directory, history, p⟩ := h.prepared hid hprepare
          simp only [setDirectory_getElem?, FileMultipartStore.effects, FileMultipartStore.perform,
            StoreCall.uploadId, FileMultipartStore.applyTransition, hprepare, p.getD, p.directory_eq]
          rcases EventLog.append_cases ext.eventVec none entry.log directory.log event with
            ⟨error, hknown, happend⟩ |
              ⟨file, hfile, hadmits, happend | ⟨hfault, -⟩ | ⟨_, _, hfault, -⟩⟩
          · simp only [happend, hknown, Bool.false_eq_true, if_false]
            exact (FinMap.getElem?_insert_eq _ _ _ _).symm
          · obtain ⟨directory', hrun, hroot⟩ := compactUpload_root ext store uploadId
              ⟨candidate, entry.log.advanced ext.eventVec event⟩ hadmits.usable
              { directory with
                log := some (file.appendFrame ext.eventVec ⟨entry.log.nextSequence, event⟩) }
              snapshotId logId
            have hfinish (store : FileMultipartStore) : store.finish.2 = store := by
              rw [FileMultipartStore.finish]
              split <;> rfl
            simp only [happend, hfinish, hroot]
            rw [List.foldl_cons, FileEffect.run, Option.map_some, hfile, Option.map_some, hrun]
            exact (FinMap.getElem?_insert_eq _ _ _ _).symm
          · cases hfault
          · cases hfault

end Stop

/-! ### Runs with stops -/

/-- A repository, the event ids it was ever given, and the snapshots its
returned calls acknowledged. -/
structure CrashRun extends StoreRun where
  acknowledged : Std.TreeMap String FileMultipartSnapshotV1 := {}

inductive CrashAction
  | call (call : StoreCall)
  | stop (call : StoreCall) (point : StopPoint)

/-- A call that returns, or a stop with a restart behind it. A restart that
does not load is the end of the run. -/
def CrashRun.step (ext : StoreExternals) (s : CrashRun) : CrashAction → Option CrashRun
  | .call call =>
      if s.issued.contains call.eventId then none
      else
        let result := s.store.perform ext call
        let acknowledged :=
          match result.1, s.store.state.candidate ext call with
          | .ok (), some candidate => s.acknowledged.insert call.uploadId candidate
          | _, _ => s.acknowledged
        some ⟨⟨result.2, call.eventId :: s.issued⟩, acknowledged⟩
  | .stop call point =>
      if s.issued.contains call.eventId then none
      else
        match loadEntries ext s.store.state.quotas (s.store.stopped ext call point) with
        | (.error _, _) => none
        | (.ok entries, root) =>
            let store : FileMultipartStore := ⟨⟨s.store.state.quotas, entries, none⟩, root⟩
            some ⟨⟨store, call.eventId :: s.issued⟩, store.view⟩

def crashSystem (ext : StoreExternals) (quotas : StagingQuotaLimits) :
    System CrashRun CrashAction :=
  .ofStep (· = ⟨⟨⟨{ quotas := quotas }, {}⟩, []⟩, {}⟩) (CrashRun.step ext)

def CrashRun.Safe (ext : StoreExternals) (s : CrashRun) : CrashAction → Prop
  | .call (.create _ _) => True
  | .call (.apply uploadId _ _ _ _) => s.store.Safe {} uploadId
  | .stop call point => s.store.StopSafe ext call point

instance (ext : StoreExternals) (s : CrashRun) :
    (action : CrashAction) → Decidable (s.Safe ext action)
  | .call (.create _ _) => isTrue trivial
  | .call (.apply uploadId _ _ _ _) => inferInstanceAs (Decidable (s.store.Safe {} uploadId))
  | .stop call point => inferInstanceAs (Decidable ((∀ effect ∈
      ((s.store.effects ext call).take point.steps).getLast?,
        effect.Settled s.store.root[call.uploadId]?) ∧ s.store.Safe {} call.uploadId))

section Runs

variable {ext : StoreExternals} {quotas : StagingQuotaLimits} {s t : CrashRun}

theorem FileMultipartStore.Inv.stopped {issued : List Uuid} {store : FileMultipartStore}
    (h : store.Inv ext issued) {call : StoreCall} {point : StopPoint} (hid : call.eventId ∉ issued)
    (hsafe : store.StopSafe ext call point) :
    ∃ view, Survives ext (call.eventId :: issued) store call (store.stopped ext call point)
      view := by
  cases call with
  | create eventId upload => exact h.stopped_create hsafe
  | apply uploadId eventId transition snapshotId logId => exact h.stopped_apply hid hsafe

/-- Memory agrees with the directories, and shows what was acknowledged. -/
structure CrashRun.Inv (ext : StoreExternals) (s : CrashRun) : Prop where
  store : s.store.Inv ext s.issued
  view : ∀ other : String, s.store.view[other]? = s.acknowledged[other]?

/-- A call that returns keeps what was acknowledged before, and acknowledges
its own snapshot. -/
theorem CrashRun.Inv.call (h : s.Inv ext) {call : StoreCall} (hsafe : s.Safe ext (.call call))
    (hstep : s.step ext (.call call) = some t) : t.Inv ext := by
  simp only [CrashRun.step] at hstep
  split at hstep
  · cases hstep
  next hnew =>
    obtain rfl := Option.some.inj hstep
    cases call with
    | create eventId upload =>
        obtain ⟨hinv, ⟨failure, hresult, hview⟩ | ⟨event, candidate, hprepare, hresult, hview⟩⟩ :=
          h.store.createUpload eventId upload
        · refine ⟨hinv, fun other => (hview other).trans ?_⟩
          simp only [FileMultipartStore.perform, hresult, h.view]
        · refine ⟨hinv, fun other => (hview other).trans ?_⟩
          simp only [FileMultipartStore.perform, hresult, FileMultipartState.candidate, hprepare,
            Except.toOption, Option.map_some, StoreCall.uploadId, FinMap.getElem?_insert_eq, h.view]
    | apply uploadId eventId transition snapshotId logId =>
        cases hprepare : s.store.state.prepareEvent ext.toExternals uploadId eventId transition with
        | error error =>
            have hresult : s.store.applyTransition ext {} uploadId eventId transition =
                (.error (preMutation error), s.store) := by
              simp only [FileMultipartStore.applyTransition, hprepare]
            simp only [FileMultipartStore.perform, hresult]
            exact ⟨h.store.mono (List.subset_cons_self _ _), h.view⟩
        | ok prepared =>
            obtain ⟨entry, event, candidate⟩ := prepared
            have hnew : eventId ∉ s.issued := by simpa [StoreCall.eventId] using hnew
            obtain ⟨hinv, houtcome⟩ := h.store.applyTransition hnew hsafe hprepare
            refine ⟨hinv, fun other => ?_⟩
            simp only [FileMultipartStore.perform, FileMultipartState.candidate, hprepare,
              Except.toOption, Option.map_some, StoreCall.uploadId]
            cases hresult : (s.store.applyTransition ext {} uploadId eventId transition).1 with
            | ok _ =>
                rw [hresult] at houtcome
                cases houtcome with
                | stored _ _ hview => rw [hview, FinMap.getElem?_insert_eq,
                    FinMap.getElem?_insert_eq, h.view]
            | error failure =>
                rw [hresult] at houtcome
                cases houtcome with
                | stored _ hfault _ =>
                    rcases hfault with hok | ⟨hfault, -⟩
                    · cases hok
                    · exact absurd rfl hfault
                | failed _ hview => rw [hview, h.view]

/-- What a stop leaves loads, and the repository goes on with it. -/
theorem CrashRun.Inv.stop (h : s.Inv ext) {call : StoreCall} {point : StopPoint}
    (hid : call.eventId ∉ s.issued) (hsafe : s.store.StopSafe ext call point) :
    ∃ entries root,
      loadEntries ext s.store.state.quotas (s.store.stopped ext call point) = (.ok entries, root) ∧
      FileMultipartStore.Inv ext (call.eventId :: s.issued)
        ⟨⟨s.store.state.quotas, entries, none⟩, root⟩ ∧
      ((∀ uploadId : String, entries[uploadId]?.map (fun entry => entry.reducer.snapshot) =
          s.acknowledged[uploadId]?) ∨
        ∃ candidate, s.store.state.candidate ext call = some candidate ∧
          ∀ uploadId : String, entries[uploadId]?.map (fun entry => entry.reducer.snapshot) =
            (s.acknowledged.insert call.uploadId candidate)[uploadId]?) := by
  obtain ⟨view, hsurvives⟩ := h.store.stopped hid hsafe
  obtain ⟨entries, root, hload, hinv, hview⟩ := hsurvives.root.loadEntries hsurvives.quotas
  refine ⟨entries, root, hload, hinv, ?_⟩
  rcases hsurvives.view with hsame | ⟨candidate, hcandidate, hnew⟩
  · exact .inl fun uploadId => by rw [hview, hsame, h.view]
  · refine .inr ⟨candidate, hcandidate, fun uploadId => ?_⟩
    rw [hview, hnew, FinMap.getElem?_insert_eq, FinMap.getElem?_insert_eq, h.view]

theorem crash_inv (h : ((crashSystem ext quotas).restrict (CrashRun.Safe ext)).Reachable s) :
    s.Inv ext := by
  refine h.invariant (I := fun s : CrashRun => s.Inv ext) ?_ ?_
  · rintro _ rfl
    refine ⟨⟨rfl, fun _ => .inl ⟨Std.TreeMap.getElem?_emptyc, Std.TreeMap.getElem?_emptyc⟩,
      withinQuotas_nil quotas⟩, fun other => ?_⟩
    rw [view_getElem?]
    exact (congrArg _ Std.TreeMap.getElem?_emptyc).trans Std.TreeMap.getElem?_emptyc.symm
  · rintro a action b ha ⟨hsafe, hstep⟩
    cases action with
    | call call => exact ha.call hsafe hstep
    | stop call point =>
        -- The snapshots a restart loads are the acknowledged ones from then on.
        simp only [crashSystem, System.ofStep, CrashRun.step] at hstep
        split at hstep
        · cases hstep
        next hnew =>
          obtain ⟨entries, root, hload, hinv, -⟩ := ha.stop (by simpa using hnew) hsafe
          rw [hload] at hstep
          obtain rfl := Option.some.inj hstep
          exact ⟨hinv, fun _ => rfl⟩

/-- In every run of calls and stops that are all safe, what a further safe
stop leaves loads, and shows the acknowledged snapshots, with at most the
event in flight added. -/
theorem stop_keeps_acknowledged
    (h : ((crashSystem ext quotas).restrict (CrashRun.Safe ext)).Reachable s) (call : StoreCall)
    (point : StopPoint) (hid : call.eventId ∉ s.issued)
    (hsafe : s.Safe ext (.stop call point)) :
    ∃ entries root,
      loadEntries ext s.store.state.quotas (s.store.stopped ext call point) = (.ok entries, root) ∧
      ((∀ uploadId : String, entries[uploadId]?.map (fun entry => entry.reducer.snapshot) =
          s.acknowledged[uploadId]?) ∨
        ∃ candidate, s.store.state.candidate ext call = some candidate ∧
          ∀ uploadId : String, entries[uploadId]?.map (fun entry => entry.reducer.snapshot) =
            (s.acknowledged.insert call.uploadId candidate)[uploadId]?) := by
  obtain ⟨entries, root, hload, -, hview⟩ := (crash_inv h).stop hid hsafe
  exact ⟨entries, root, hload, hview⟩

end Runs

/-! ### A sample stop -/

def sampleCrashStart : CrashRun := ⟨sampleStart, {}⟩

def sampleCalls : List CrashAction :=
  [.call (.create 1 sampleUpload),
    .call (.apply sampleIdentity.uploadId 2 (.partReserved samplePending 150) 11 12)]

/-- The commit of the reserved part, stopped 20 bytes into its frame. -/
def sampleCommit : StoreCall :=
  .apply sampleIdentity.uploadId 3 (.partCommitted samplePending samplePart 201) 13 14

theorem sample_stop_keeps_acknowledged :
    ∃ s : CrashRun, s.issued = [2, 1] ∧
      (s.acknowledged[sampleIdentity.uploadId]?.map fun snapshot =>
        snapshot.finalEventSequence) = some 2 ∧
      ∃ entries root,
        loadEntries sampleStoreExternals s.store.state.quotas
          (s.store.stopped sampleStoreExternals sampleCommit ⟨0, 20⟩) = (.ok entries, root) ∧
        ((∀ uploadId : String, entries[uploadId]?.map (fun entry => entry.reducer.snapshot) =
            s.acknowledged[uploadId]?) ∨
          ∃ candidate, s.store.state.candidate sampleStoreExternals sampleCommit = some candidate ∧
            ∀ uploadId : String, entries[uploadId]?.map (fun entry => entry.reducer.snapshot) =
              (s.acknowledged.insert sampleCommit.uploadId candidate)[uploadId]?) := by
  have hrun : ((System.run (System.guarded (CrashRun.Safe sampleStoreExternals)
      (CrashRun.step sampleStoreExternals)) sampleCrashStart sampleCalls).map fun s =>
        (s.issued, s.acknowledged[sampleIdentity.uploadId]?.map fun snapshot =>
          snapshot.finalEventSequence,
          decide (s.Safe sampleStoreExternals (.stop sampleCommit ⟨0, 20⟩)))) =
        some ([2, 1], some 2, true) := by
    decide
  obtain ⟨s, hs, hfacts⟩ := Option.map_eq_some_iff.mp hrun
  simp only [Prod.mk.injEq, decide_eq_true_eq] at hfacts
  obtain ⟨hissued, hfinal, hsafe⟩ := hfacts
  refine ⟨s, hissued, hfinal, stop_keeps_acknowledged
    (System.Reachable.run_guarded (.of_init (s := sampleCrashStart) rfl) hs) sampleCommit ⟨0, 20⟩
    ?_ hsafe⟩
  rw [hissued]
  decide

def otherUpload : MultipartUpload :=
  { sampleUpload with identity := { sampleIdentity with uploadId := otherUploadId } }

/-- An upload is acknowledged. Then the process stops in the creation of
another one, after its directory was made: no upload loads any more. -/
theorem stop_in_creation_refuses_store :
    ∃ s : CrashRun, (crashSystem sampleStoreExternals sampleQuotas).Reachable s ∧
      (s.acknowledged[sampleIdentity.uploadId]?.map fun snapshot =>
        snapshot.finalEventSequence) = some 2 ∧
      (StoreCall.create 3 otherUpload).eventId ∉ s.issued ∧
      (loadEntries sampleStoreExternals s.store.state.quotas
        (s.store.stopped sampleStoreExternals (.create 3 otherUpload) ⟨1, 0⟩)).1 =
          .error (corruptState "multipart upload event log is missing") := by
  have hrun : ((System.run (CrashRun.step sampleStoreExternals) sampleCrashStart sampleCalls).map
      fun s => (s.issued, s.acknowledged[sampleIdentity.uploadId]?.map fun snapshot =>
        snapshot.finalEventSequence,
        match (loadEntries sampleStoreExternals s.store.state.quotas
          (s.store.stopped sampleStoreExternals (.create 3 otherUpload) ⟨1, 0⟩)).1 with
        | .ok _ => none
        | .error error => some error)) =
        some ([2, 1], some 2, some (corruptState "multipart upload event log is missing")) := by
    rfl
  obtain ⟨s, hs, hfacts⟩ := Option.map_eq_some_iff.mp hrun
  simp only [Prod.mk.injEq] at hfacts
  obtain ⟨hissued, hfinal, hload⟩ := hfacts
  refine ⟨s, System.Reachable.run (.of_init (s := sampleCrashStart) rfl) hs, hfinal, ?_, ?_⟩
  · rw [hissued]
    decide
  · split at hload
    · cases hload
    · next error herror => rw [herror, Option.some.inj hload]

end Maskura.Multipart
