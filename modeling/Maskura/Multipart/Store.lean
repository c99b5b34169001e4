import Maskura.Persistence.Recovery
import Maskura.Multipart.Quota
import Maskura.Multipart.Runs

/-!
`FileMultipartRepository` on disk: one directory per upload with an event log
and a snapshot, how the repository loads them, and how a live process creates
uploads and applies transitions.

A directory is the two files the code knows by name and the names of
temporary files that a stopped process left behind. Which of its writes fail
is up to the file system; a `WriteFaults` says so for one transition.
-/

namespace Maskura.Multipart

open Maskura.Lib Maskura.Persistence

/-! ### Errors -/

inductive StagingError
  | unavailable
  | notFound
  | notOpen
  | quotaExceeded
  | invalidPart
  | invalidListing
  | completionConflict
  | fenced
  | persistence (message : String)
  | crypto (message : String)
  deriving DecidableEq, Repr

/-- The text of an error, as it is shown. -/
def StagingError.message : StagingError → String
  | .unavailable => "multipart staging is unavailable"
  | .notFound => "multipart upload was not found or is not authorized"
  | .notOpen => "multipart upload is no longer open"
  | .quotaExceeded => "multipart staging quota exceeded"
  | .invalidPart => "invalid multipart part"
  | .invalidListing => "invalid multipart upload listing request"
  | .completionConflict => "multipart completion request conflicts with the existing request"
  | .fenced => "multipart completion lease is fenced"
  | .persistence message => s!"multipart staging persistence failure: {message}"
  | .crypto message => s!"multipart staging encryption failure: {message}"

/-- The text of a persistence error, without the operating system's own. -/
def persistenceMessage : PersistenceError → String
  | .io operation => s!"filesystem persistence {operation} failed"
  | .mutationUnknown operation => s!"filesystem persistence {operation} may have committed"
  | .corrupt message => s!"filesystem persistence data is corrupt: {message}"
  | .unsupportedVersion version =>
      s!"unsupported filesystem persistence schema version {version}"
  | .limitExceeded message => s!"filesystem persistence limit exceeded: {message}"
  | .reloadRequired =>
      "filesystem persistence must be reloaded after an uncertain mutation"

def persistenceError (error : PersistenceError) : StagingError :=
  .persistence (persistenceMessage error)

def reducerPersistenceError (error : FileMultipartReducerError) : StagingError :=
  .persistence error.message

def corruptState (message : String) : StagingError := .persistence message

/-- A failed mutation, and whether it may have happened all the same. -/
structure MutationFailure where
  error : StagingError
  unknown : Bool
  deriving DecidableEq, Repr

def preMutation (error : StagingError) : MutationFailure := ⟨error, false⟩

/-! ### Directories -/

def snapshotFile : String := "snapshot.json"

def eventLogFile : String := "events.log"

structure UploadDirectory extends LogDisk FileMultipartSnapshotV1 FileMultipartEventV1 where
  /-- The names of temporary files. -/
  temporaries : List String := []
  deriving Repr

abbrev UploadsRoot := Std.TreeMap String UploadDirectory

/-- The file names of a directory. -/
def UploadDirectory.fileNames (directory : UploadDirectory) : List String :=
  (directory.snapshot.toList.map fun _ => snapshotFile) ++
    (directory.log.toList.map fun _ => eventLogFile) ++ directory.temporaries

/-- Texts that other crates produce. -/
structure StoreExternals extends Externals where
  /-- The JSON text of an event, as a frame carries it. -/
  eventVec : FileMultipartEventV1 → Option Bytes
  /-- The JSON text of a snapshot envelope. -/
  snapshotVec : ℕ → FileMultipartSnapshotV1 → Option Bytes
  /-- `Uuid::parse_str`. -/
  parseUuid : String → Option Uuid
  /-- `Uuid::to_string`. -/
  uuidText : Uuid → String

/-! ### Loading -/

def validateUploadFiles (hasLog : Bool) : List String → Except StagingError Unit
  | [] => rejectIf (hasLog = false) (corruptState "multipart upload event log is missing")
  | name :: rest => do
      rejectIf (name ≠ snapshotFile ∧ name ≠ eventLogFile)
        (corruptState "unknown file in multipart upload directory")
      validateUploadFiles (hasLog || name = eventLogFile) rest

def validateUploadDirectoryName (ext : StoreExternals) (uploadId : String) :
    Except StagingError Unit := do
  let parsed ← okOr (ext.parseUuid uploadId)
    (corruptState "local multipart upload id is not a UUID")
  rejectIf (ext.uuidText parsed ≠ uploadId)
    (corruptState "local multipart upload id is not canonical")

structure FileMultipartEntry where
  reducer : FileMultipartReducer
  log : EventLog

/-- The snapshot a directory starts from, and the sequence it covers. -/
def UploadDirectory.loadSnapshot (directory : UploadDirectory) :
    Except StagingError (ℕ × FileMultipartSnapshotV1) :=
  match directory.snapshot with
  | none => .ok (0, {})
  | some snapshot =>
      if snapshot.finalSequence ≠ snapshot.payload.finalEventSequence then
        .error (corruptState "multipart snapshot sequence mismatch")
      else
        .ok (snapshot.finalSequence, snapshot.payload)

/-- Replay the events of a log. -/
def replayEvents (ext : Externals) (reducer : FileMultipartReducer) :
    List (LoggedEvent FileMultipartEventV1) → Except StagingError FileMultipartReducer
  | [] => .ok reducer
  | logged :: rest =>
      if logged.sequence ≠ logged.payload.sequence then
        .error (corruptState "multipart event sequence mismatch")
      else
        match reducer.apply ext logged.payload with
        | (.error error, _) => .error (reducerPersistenceError error)
        | (.ok _, reducer) => replayEvents ext reducer rest

def checkIdentity (uploadId : String) (snapshot : FileMultipartSnapshotV1) :
    Except StagingError Unit := do
  let identity ← okOr snapshot.identity
    (corruptState "multipart upload directory has no identity")
  rejectIf (identity.uploadId ≠ uploadId)
    (corruptState "multipart upload directory identity mismatch")

/-- The body of the loop of `load_entries`, with the directory it leaves
behind: opening the log cuts off a torn tail. -/
def loadUpload (ext : StoreExternals) (uploadId : String) (directory : UploadDirectory) :
    Except StagingError FileMultipartEntry × UploadDirectory :=
  let start : Except StagingError (ℕ × FileMultipartReducer) := do
    validateUploadDirectoryName ext uploadId
    validateUploadFiles false directory.fileNames
    let (sequence, snapshot) ← directory.loadSnapshot
    let reducer ← (FileMultipartReducer.fromSnapshot snapshot).mapError reducerPersistenceError
    return (sequence, reducer)
  match start with
  | .error error => (.error error, directory)
  | .ok (sequence, reducer) =>
      match openEventLog ext.eventVec directory.log sequence with
      | (.error error, log) => (.error (persistenceError error), { directory with log := some log })
      | (.ok (handle, events), log) =>
          let loaded : Except StagingError FileMultipartEntry := do
            let reducer ← replayEvents ext.toExternals reducer events
            checkIdentity uploadId reducer.snapshot
            return ⟨reducer, handle⟩
          (loaded, { directory with log := some log })

/-- The loop of `load_entries`. The file system lists the directories in no
particular order; the model takes that of their names, which only decides
which of several errors is reported. -/
def loadListed (ext : StoreExternals) (entries : Std.TreeMap String FileMultipartEntry)
    (root : UploadsRoot) : List (String × UploadDirectory) →
      Except StagingError (Std.TreeMap String FileMultipartEntry) × UploadsRoot
  | [] => (.ok entries, root)
  | (uploadId, directory) :: rest =>
      match loadUpload ext uploadId directory with
      | (.error error, directory) => (.error error, root.insert uploadId directory)
      | (.ok entry, directory) =>
          if entries.contains uploadId then
            (.error (corruptState "duplicate multipart upload identity"),
              root.insert uploadId directory)
          else
            loadListed ext (entries.insert uploadId entry) (root.insert uploadId directory) rest

/-- The snapshots of a store, in the order of the upload ids. -/
def snapshotsOf (entries : Std.TreeMap String FileMultipartEntry) : List FileMultipartSnapshotV1 :=
  entries.toList.map fun entry => entry.2.reducer.snapshot

def loadEntries (ext : StoreExternals) (quotas : StagingQuotaLimits) (root : UploadsRoot) :
    Except StagingError (Std.TreeMap String FileMultipartEntry) × UploadsRoot :=
  match loadListed ext {} root root.toList with
  | (.error error, root) => (.error error, root)
  | (.ok entries, root) =>
      match reconstructFileMultipartQuotas (snapshotsOf entries) quotas with
      | .error error => (.error (reducerPersistenceError error), root)
      | .ok _ => (.ok entries, root)

/-! ### The live repository -/

structure FileMultipartState where
  quotas : StagingQuotaLimits
  entries : Std.TreeMap String FileMultipartEntry := {}
  poisoned : Option String := none

/-- A running repository and the directory it works on. -/
structure FileMultipartStore where
  state : FileMultipartState
  root : UploadsRoot := {}

/-- Where the writes of one transition fail: the append of its event, and the
two file replacements of the compaction that may follow. -/
structure WriteFaults where
  append : Option FaultPoint := none
  snapshot : Option FaultPoint := none
  log : Option FaultPoint := none
  deriving DecidableEq, Repr

def FileMultipartState.ensureHealthy (self : FileMultipartState) : Except StagingError Unit :=
  match self.poisoned with
  | some error => .error (.persistence error)
  | none => .ok ()

/-- Whether the store stays within its quotas with `candidate` in the place
of one upload. -/
def FileMultipartState.validateCandidate (self : FileMultipartState) (uploadId : String)
    (candidate : FileMultipartSnapshotV1) : Except StagingError Unit := do
  let others := self.entries.toList.filter fun entry => entry.1 ≠ uploadId
  let snapshots := others.map (fun entry => entry.2.reducer.snapshot) ++ [candidate]
  let _ ← (reconstructFileMultipartQuotas snapshots self.quotas).mapError reducerPersistenceError
  return ()

/-- Read everything again after a write of unknown outcome. -/
def FileMultipartStore.reloadAfterUnknown (ext : StoreExternals) (self : FileMultipartStore) :
    FileMultipartStore :=
  match loadEntries ext self.state.quotas self.root with
  | (.ok entries, root) => ⟨{ self.state with entries := entries, poisoned := none }, root⟩
  | (.error error, root) => ⟨{ self.state with poisoned := some error.message }, root⟩

/-- `apply` on a reducer that is thrown away when it fails. -/
def FileMultipartReducer.applied (ext : Externals) (self : FileMultipartReducer)
    (event : FileMultipartEventV1) : Except StagingError FileMultipartReducer :=
  match self.apply ext event with
  | (.error error, _) => .error (reducerPersistenceError error)
  | (.ok _, reducer) => .ok reducer

/-- The first half of `apply_transition`: build the event and try it on a
reducer of its own. -/
def FileMultipartState.prepareEvent (ext : Externals) (self : FileMultipartState)
    (uploadId : String) (eventId : Uuid) (transition : FileMultipartTransitionV1) :
    Except StagingError (FileMultipartEntry × FileMultipartEventV1 × FileMultipartReducer) := do
  self.ensureHealthy
  let entry ← okOr self.entries[uploadId]? (.persistence "multipart upload state disappeared")
  let identity ← okOr entry.reducer.snapshot.identity (corruptState "multipart identity is missing")
  let sequence := entry.reducer.snapshot.finalEventSequence + 1
  rejectIf (sequence ≥ u64Bound) (corruptState "multipart event sequence exhausted")
  let event : FileMultipartEventV1 :=
    ⟨fileMultipartSchemaVersion, sequence, eventId, identity, transition⟩
  let reducer ← (FileMultipartReducer.fromSnapshot entry.reducer.snapshot).mapError
    reducerPersistenceError
  let candidate ← reducer.applied ext event
  self.validateCandidate uploadId candidate.snapshot
  return (entry, event, candidate)

def FileMultipartStore.setUpload (self : FileMultipartStore) (uploadId : String)
    (entry : FileMultipartEntry) (directory : UploadDirectory) : FileMultipartStore :=
  ⟨{ self.state with entries := self.state.entries.insert uploadId entry },
    self.root.insert uploadId directory⟩

/-- The error a caller sees when the store had to be poisoned on the way. -/
def FileMultipartStore.finish (self : FileMultipartStore) :
    Except MutationFailure Unit × FileMultipartStore :=
  match self.state.ensureHealthy with
  | .error error => (.error ⟨error, true⟩, self)
  | .ok () => (.ok (), self)

/-- The compaction at the end of `apply_transition`. A failure whose outcome
is known is ignored. -/
def FileMultipartStore.compactUpload (ext : StoreExternals) (faults : WriteFaults)
    (uploadId : String) (entry : FileMultipartEntry) (directory : UploadDirectory)
    (self : FileMultipartStore) : FileMultipartStore :=
  if entry.log.shouldCompact then
    let snapshot := entry.reducer.snapshot
    match entry.log.compact ext.snapshotVec faults.snapshot faults.log directory.toLogDisk
      snapshot with
    | (.ok (), log, disk) =>
        -- The snapshot was validated when the event was applied.
        let reducer := { snapshot := snapshot, replayFloor := snapshot.finalEventSequence }
        self.setUpload uploadId ⟨reducer, log⟩ { directory with toLogDisk := disk }
    | (.error error, log, disk) =>
        let self := self.setUpload uploadId ⟨entry.reducer, log⟩ { directory with toLogDisk := disk }
        if error.isMutationUnknown then self.reloadAfterUnknown ext else self
  else
    self.setUpload uploadId entry directory

def FileMultipartStore.applyTransition (ext : StoreExternals) (faults : WriteFaults)
    (self : FileMultipartStore) (uploadId : String) (eventId : Uuid)
    (transition : FileMultipartTransitionV1) : Except MutationFailure Unit × FileMultipartStore :=
  match self.state.prepareEvent ext.toExternals uploadId eventId transition with
  | .error error => (.error (preMutation error), self)
  | .ok (entry, event, candidate) =>
      let directory := self.root.getD uploadId {}
      match entry.log.append ext.eventVec faults.append directory.log event with
      | (.error error, log, file) =>
          let self := self.setUpload uploadId ⟨entry.reducer, log⟩ { directory with log := file }
          (.error ⟨persistenceError error, error.isMutationUnknown⟩,
            if error.isMutationUnknown then self.reloadAfterUnknown ext else self)
      | (.ok _, log, file) =>
          (self.compactUpload ext faults uploadId ⟨candidate, log⟩
            { directory with log := file }).finish

/-- The first half of `create_upload`. -/
def FileMultipartState.prepareUpload (ext : StoreExternals) (self : FileMultipartState)
    (eventId : Uuid) (upload : MultipartUpload) :
    Except StagingError (FileMultipartEventV1 × FileMultipartReducer) := do
  self.ensureHealthy
  let uploadId := upload.identity.uploadId
  validateUploadDirectoryName ext uploadId
  rejectIf (self.entries.contains uploadId = true) (.persistence "duplicate upload id")
  let event : FileMultipartEventV1 :=
    ⟨fileMultipartSchemaVersion, 1, eventId, upload.identity, .uploadCreated upload⟩
  let candidate ← FileMultipartReducer.empty.applied ext.toExternals event
  self.validateCandidate uploadId candidate.snapshot
  return (event, candidate)

/-- `create_upload`. The new log is opened at sequence zero, and the first
append decides whether the upload exists. -/
def FileMultipartStore.createUpload (ext : StoreExternals) (appendFault : Option FaultPoint)
    (self : FileMultipartStore) (eventId : Uuid) (upload : MultipartUpload) :
    Except MutationFailure Unit × FileMultipartStore :=
  match self.state.prepareUpload ext eventId upload with
  | .error error => (.error (preMutation error), self)
  | .ok (event, candidate) =>
      let uploadId := upload.identity.uploadId
      let directory := self.root.getD uploadId {}
      match openEventLog ext.eventVec directory.log 0 with
      | (.error error, file) =>
          (.error (preMutation (persistenceError error)),
            { self with root := self.root.insert uploadId { directory with log := some file } })
      | (.ok (log, existing), file) =>
          if existing ≠ [] then
            (.error (preMutation (corruptState "new multipart event log was not empty")),
              { self with root := self.root.insert uploadId { directory with log := some file } })
          else
            match log.append ext.eventVec appendFault (some file) event with
            | (.ok sequence, log, file) =>
                if sequence = 1 then
                  (.ok (), self.setUpload uploadId ⟨candidate, log⟩ { directory with log := file })
                else
                  (.error (preMutation (corruptState "new multipart event sequence is invalid")),
                    { self with
                      root := self.root.insert uploadId { directory with log := file } })
            | (.error error, _, file) =>
                if error.isMutationUnknown then
                  let self := { self with
                    root := self.root.insert uploadId { directory with log := file } }
                  (.error ⟨persistenceError error, true⟩, self.reloadAfterUnknown ext)
                else
                  -- The log is removed, and with it the directory if that leaves it empty.
                  let directory := { directory with log := none }
                  (.error ⟨persistenceError error, false⟩,
                    { self with
                      root :=
                        if directory.fileNames = [] then self.root.erase uploadId
                        else self.root.insert uploadId directory })

end Maskura.Multipart
