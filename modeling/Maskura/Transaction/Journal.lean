import Maskura.Lib.FinMap
import Maskura.Lib.Fold
import Maskura.Transaction.Types

/-!
The file-backed operation journal. Each operation has a directory with a
snapshot and an event log; a call prepares one event, reduces it on a copy
of the operation's state, appends it to the log and only then adopts the
copy. What the disk holds is given here by the events stored so far, in the
order of the appends: compaction replaces events by the state they reduce
to, which changes nothing that a reload can see.
-/

namespace Maskura.Transaction

open Maskura.Lib
open Maskura.Multipart (Uuid Json)
open Maskura.Persistence (u64Bound)

def schemaVersion : ℕ := 1

def maxParts : ℕ := 10000

def maxEvidence : ℕ := 4096

structure FileOperationSnapshotV1 where
  schemaVersion : ℕ := Transaction.schemaVersion
  finalEventSequence : ℕ := 0
  operation : Option OperationRecord := none
  parts : List PartRecord := []
  evidence : List EvidenceRecord := []

inductive FileOperationTransitionV1
  | intentInserted (operation : OperationRecord)
  | opened (uploadId : Option String) (updatedAtMs : ℤ)
  | clientMultipartReferenceChanged (expected next : Option String) (updatedAtMs : ℤ)
  | expectedChanged (expected : ExpectedObject) (updatedAtMs : ℤ)
  | stateChanged (expected next : OperationState) (committed : Option StoredObjectMeta)
      (updatedAtMs : ℤ)
  | partRecorded (part : PartRecord)
  | evidenceAppended (evidence : EvidenceRecord)
  | mutationLaunched (notBeforeMs updatedAtMs : ℤ)
  | exactAbsenceObserved (observedAtMs updatedAtMs : ℤ)
  | claimed (owner : String) (leaseUntilMs : ℤ)
  | terminalRetired (expectedState : OperationState)
      (expectedClientMultipartUploadId : Option String)

structure FileOperationEventV1 where
  schemaVersion : ℕ
  sequence : ℕ
  operationId : Uuid
  transition : FileOperationTransitionV1

/-! ### Checks -/

def checkedTimestamp (value : ℤ) (name : String) : Except JournalError Unit :=
  rejectIf (value < 0) (.corrupt ("negative " ++ name))

def checkedOptionalTimestamp (value : Option ℤ) (name : String) : Except JournalError Unit :=
  match value with
  | some value => checkedTimestamp value name
  | none => .ok ()

def validateOperation (operation : OperationRecord) : Except JournalError Unit := do
  checkedTimestamp operation.createdAtMs "operation creation timestamp"
  checkedTimestamp operation.updatedAtMs "operation update timestamp"
  rejectIf (operation.updatedAtMs < operation.createdAtMs)
    (.corrupt "operation update predates creation")
  checkedOptionalTimestamp operation.leaseExpiresAtMs "lease expiry timestamp"
  checkedOptionalTimestamp operation.mutationNotBeforeMs "mutation not-before timestamp"
  checkedOptionalTimestamp operation.exactAbsenceObservedAtMs "exact absence timestamp"
  rejectIf (operation.leaseOwner.isSome ≠ operation.leaseExpiresAtMs.isSome)
    (.corrupt "partial operation lease")
  rejectIf (operation.state = .committed ∧ operation.committed.isNone ∨
      operation.state ≠ .committed ∧ operation.committed.isSome)
    (.corrupt "operation committed metadata does not match state")

/-- The parts come in increasing order of their numbers, which also keeps the
numbers distinct. -/
def validateParts (operationId : Uuid) :
    (previous : Option ℤ) → List PartRecord → Except JournalError Unit
  | _, [] => .ok ()
  | previous, part :: rest => do
      checkedTimestamp part.createdAtMs "part creation timestamp"
      rejectIf (part.operationId ≠ operationId ∨ part.partNumber ≤ 0 ∨
          ∃ old ∈ previous, old ≥ part.partNumber)
        (.corrupt "invalid or unsorted operation parts")
      validateParts operationId (some part.partNumber) rest

def validateEvidence (operationId : Uuid) :
    (evidenceIds : List Uuid) → List EvidenceRecord → Except JournalError Unit
  | _, [] => .ok ()
  | evidenceIds, evidence :: rest => do
      checkedTimestamp evidence.createdAtMs "evidence creation timestamp"
      rejectIf (evidence.operationId ≠ operationId ∨ evidence.id ∈ evidenceIds)
        (.corrupt "invalid operation evidence")
      validateEvidence operationId (evidence.id :: evidenceIds) rest

/-- The rest of `validate_snapshot`, by whether the operation is there. -/
def validateRecords (snapshot : FileOperationSnapshotV1) : Except JournalError Unit :=
  match snapshot.operation with
  | none =>
      rejectIf (¬(snapshot.parts.isEmpty ∧ snapshot.evidence.isEmpty))
        (.corrupt "retired operation retains child records")
  | some operation => do
      validateOperation operation
      validateParts operation.id none snapshot.parts
      validateEvidence operation.id [] snapshot.evidence

def validateSnapshot (snapshot : FileOperationSnapshotV1) : Except JournalError Unit := do
  rejectIf (snapshot.schemaVersion ≠ schemaVersion)
    (.corrupt ("unsupported file operation snapshot version " ++ toString snapshot.schemaVersion))
  rejectIf (snapshot.parts.length > maxParts ∨ snapshot.evidence.length > maxEvidence)
    (.corrupt "operation child record bound exceeded")
  validateRecords snapshot

def setUpdatedAt (operation : OperationRecord) (value : ℤ) :
    Except JournalError OperationRecord := do
  checkedTimestamp value "operation update timestamp"
  rejectIf (value < operation.createdAtMs) (.corrupt "operation update predates creation")
  pure { operation with updatedAtMs := value }

def requireOperation (snapshot : FileOperationSnapshotV1) (operationId : Uuid) :
    Except JournalError OperationRecord :=
  okOr (snapshot.operation.filter fun operation => operation.id = operationId)
    (.notFound operationId)

/-! ### The reducer

One function for each transition. Those that change the operation in place
go through `updateOperation`, which is `operation_mut`. -/

def FileOperationSnapshotV1.updateOperation (snapshot : FileOperationSnapshotV1)
    (operationId : Uuid) (update : OperationRecord → Except JournalError OperationRecord) :
    Except JournalError FileOperationSnapshotV1 := do
  let operation ← requireOperation snapshot operationId
  let next ← update operation
  pure { snapshot with operation := some next }

def reduceIntentInserted (snapshot : FileOperationSnapshotV1) (operationId : Uuid)
    (operation : OperationRecord) : Except JournalError FileOperationSnapshotV1 := do
  rejectIf (snapshot.operation.isSome ∨ ¬snapshot.parts.isEmpty ∨ ¬snapshot.evidence.isEmpty)
    (.conflict "duplicate operation id")
  rejectIf (operation.id ≠ operationId ∨ operation.state ≠ .intent)
    (.conflict "new operation must start in INTENT")
  pure { snapshot with operation := some operation }

def reduceOpened (uploadId : Option String) (updatedAtMs : ℤ) (operation : OperationRecord) :
    Except JournalError OperationRecord := do
  rejectIf (operation.state ≠ .intent)
    (.conflict ("expected INTENT, found " ++ operation.state.asStr))
  let operation ← setUpdatedAt operation updatedAtMs
  pure { operation with state := .open, uploadId := uploadId }

def reduceClientMultipartReferenceChanged (operationId : Uuid) (expected next : Option String)
    (updatedAtMs : ℤ) (operation : OperationRecord) : Except JournalError OperationRecord := do
  rejectIf (operation.clientMultipartUploadId ≠ expected)
    (.conflict ("operation " ++ uuidText operationId ++ " client multipart reference changed"))
  let operation ← setUpdatedAt operation updatedAtMs
  pure { operation with clientMultipartUploadId := next }

def reduceExpectedChanged (operationId : Uuid) (expected : ExpectedObject) (updatedAtMs : ℤ)
    (operation : OperationRecord) : Except JournalError OperationRecord := do
  rejectIf (¬(operation.state = .intent ∨ operation.state = .open))
    (.conflict ("operation " ++ uuidText operationId ++ " cannot update expected output in " ++
      operation.state.asStr))
  let operation ← setUpdatedAt operation updatedAtMs
  pure { operation with expected := expected }

def reduceStateChanged (expected next : OperationState) (committed : Option StoredObjectMeta)
    (updatedAtMs : ℤ) (operation : OperationRecord) : Except JournalError OperationRecord := do
  rejectIf (operation.state ≠ expected)
    (.conflict ("expected " ++ expected.asStr ++ ", found " ++ operation.state.asStr))
  let operation ← setUpdatedAt operation updatedAtMs
  pure { operation with
    state := next, committed := committed, leaseOwner := none, leaseExpiresAtMs := none }

/-- The parts are sorted, so a binary search finds the number or its place. -/
def insertPart (part : PartRecord) (parts : List PartRecord) : List PartRecord :=
  parts.takeWhile (fun old => old.partNumber < part.partNumber) ++
    part :: parts.dropWhile fun old => old.partNumber < part.partNumber

def placePart (snapshot : FileOperationSnapshotV1) (part : PartRecord) :
    Except JournalError FileOperationSnapshotV1 :=
  match snapshot.parts.find? fun old => old.partNumber = part.partNumber with
  | some old => do
      rejectIf (old.etag ≠ part.etag ∨ old.sizeBytes ≠ part.sizeBytes ∨ old.digest ≠ part.digest)
        (.conflict ("part " ++ toString part.partNumber ++ " retry body or result changed"))
      pure snapshot
  | none => do
      rejectIf (snapshot.parts.length ≥ maxParts) (.conflict "operation part bound exceeded")
      pure { snapshot with parts := insertPart part snapshot.parts }

def reducePartRecorded (snapshot : FileOperationSnapshotV1) (operationId : Uuid)
    (part : PartRecord) : Except JournalError FileOperationSnapshotV1 := do
  let _ ← requireOperation snapshot operationId
  rejectIf (part.operationId ≠ operationId ∨ part.partNumber ≤ 0)
    (.conflict "uploaded part reference is invalid")
  placePart snapshot part

def placeEvidence (snapshot : FileOperationSnapshotV1) (evidence : EvidenceRecord) :
    Except JournalError FileOperationSnapshotV1 :=
  match snapshot.evidence.find? fun old => old.id = evidence.id with
  | some old => do
      rejectIf (old.operationId ≠ evidence.operationId ∨ old.kind ≠ evidence.kind ∨
          ¬(old.detail == evidence.detail) = true)
        (.conflict "evidence id conflicts with an existing record")
      pure snapshot
  | none => do
      rejectIf (snapshot.evidence.length ≥ maxEvidence)
        (.conflict "operation evidence bound exceeded")
      pure { snapshot with evidence := snapshot.evidence ++ [evidence] }

def reduceEvidenceAppended (snapshot : FileOperationSnapshotV1) (operationId : Uuid)
    (evidence : EvidenceRecord) : Except JournalError FileOperationSnapshotV1 := do
  let _ ← requireOperation snapshot operationId
  rejectIf (evidence.operationId ≠ operationId)
    (.conflict "evidence operation reference is invalid")
  placeEvidence snapshot evidence

/-- A launch extends the time before which nothing may be concluded from an
absence, and forgets the absence seen before it. -/
def reduceMutationLaunched (notBeforeMs updatedAtMs : ℤ) (operation : OperationRecord) :
    Except JournalError OperationRecord := do
  rejectIf (operation.state.isTerminal)
    (.conflict "terminal operation cannot launch a provider mutation")
  checkedTimestamp notBeforeMs "mutation not-before timestamp"
  let operation ← setUpdatedAt operation updatedAtMs
  pure { operation with
    mutationNotBeforeMs := some (max (operation.mutationNotBeforeMs.getD i64Min) notBeforeMs)
    exactAbsenceObservedAtMs := none }

def reduceExactAbsenceObserved (observedAtMs updatedAtMs : ℤ) (operation : OperationRecord) :
    Except JournalError OperationRecord := do
  checkedTimestamp observedAtMs "exact absence timestamp"
  rejectIf (operation.exactAbsenceObservedAtMs.isSome)
    (.conflict "exact absence was already observed")
  let operation ← setUpdatedAt operation updatedAtMs
  pure { operation with exactAbsenceObservedAtMs := some observedAtMs }

def reduceClaimed (owner : String) (leaseUntilMs : ℤ) (operation : OperationRecord) :
    Except JournalError OperationRecord := do
  rejectIf (operation.state.isTerminal ∨ owner.isEmpty) (.conflict "operation cannot be claimed")
  checkedTimestamp leaseUntilMs "lease expiry timestamp"
  pure { operation with leaseOwner := some owner, leaseExpiresAtMs := some leaseUntilMs }

def reduceTerminalRetired (snapshot : FileOperationSnapshotV1) (operationId : Uuid)
    (expectedState : OperationState) (expectedClientMultipartUploadId : Option String) :
    Except JournalError FileOperationSnapshotV1 := do
  rejectIf (¬expectedState.isTerminal) (.conflict "journal retirement requires a terminal state")
  let operation ← requireOperation snapshot operationId
  rejectIf (operation.state ≠ expectedState ∨
      operation.clientMultipartUploadId ≠ expectedClientMultipartUploadId)
    (.conflict ("operation " ++ uuidText operationId ++
      " terminal state or multipart reference changed"))
  pure { snapshot with operation := none, parts := [], evidence := [] }

def reduceTransition (snapshot : FileOperationSnapshotV1) (event : FileOperationEventV1) :
    Except JournalError FileOperationSnapshotV1 :=
  match event.transition with
  | .intentInserted operation => reduceIntentInserted snapshot event.operationId operation
  | .opened uploadId updatedAtMs =>
      snapshot.updateOperation event.operationId (reduceOpened uploadId updatedAtMs)
  | .clientMultipartReferenceChanged expected next updatedAtMs =>
      snapshot.updateOperation event.operationId
        (reduceClientMultipartReferenceChanged event.operationId expected next updatedAtMs)
  | .expectedChanged expected updatedAtMs =>
      snapshot.updateOperation event.operationId
        (reduceExpectedChanged event.operationId expected updatedAtMs)
  | .stateChanged expected next committed updatedAtMs => do
      rejectIf (¬expected.canTransitionTo next)
        (.conflict ("illegal transition " ++ expected.asStr ++ " -> " ++ next.asStr))
      rejectIf ((next = .committed) ≠ (committed.isSome = true))
        (.conflict "COMMITTED transitions require object metadata only")
      snapshot.updateOperation event.operationId
        (reduceStateChanged expected next committed updatedAtMs)
  | .partRecorded part => reducePartRecorded snapshot event.operationId part
  | .evidenceAppended evidence => reduceEvidenceAppended snapshot event.operationId evidence
  | .mutationLaunched notBeforeMs updatedAtMs =>
      snapshot.updateOperation event.operationId (reduceMutationLaunched notBeforeMs updatedAtMs)
  | .exactAbsenceObserved observedAtMs updatedAtMs =>
      snapshot.updateOperation event.operationId
        (reduceExactAbsenceObserved observedAtMs updatedAtMs)
  | .claimed owner leaseUntilMs =>
      snapshot.updateOperation event.operationId (reduceClaimed owner leaseUntilMs)
  | .terminalRetired expectedState expectedClientMultipartUploadId =>
      reduceTerminalRetired snapshot event.operationId expectedState
        expectedClientMultipartUploadId

/-- `checked_add(1)` on the sequence number. -/
def nextSequence (snapshot : FileOperationSnapshotV1) : Except JournalError ℕ := do
  rejectIf (u64Bound ≤ snapshot.finalEventSequence + 1)
    (.corrupt "operation event sequence overflow")
  pure (snapshot.finalEventSequence + 1)

/-- `FileOperationReducer::apply`. -/
def FileOperationSnapshotV1.apply (snapshot : FileOperationSnapshotV1)
    (event : FileOperationEventV1) : Except JournalError FileOperationSnapshotV1 := do
  rejectIf (event.schemaVersion ≠ Transaction.schemaVersion)
    (.corrupt ("unsupported file operation event version " ++ toString event.schemaVersion))
  let expectedSequence ← nextSequence snapshot
  rejectIf (event.sequence ≠ expectedSequence) (.corrupt "operation event sequence is invalid")
  let candidate ← reduceTransition snapshot event
  validateSnapshot { candidate with finalEventSequence := event.sequence }
  pure { candidate with finalEventSequence := event.sequence }

/-! ### The journal -/

abbrev Entries := Std.TreeMap Uuid FileOperationSnapshotV1

structure FileOperationJournal where
  entries : Entries := ∅
  poisoned : Option String := none
  /-- The events the logs hold, in the order they were appended. -/
  disk : List FileOperationEventV1 := []

/-- An attempt to load the entries again: the reads succeed, or one fails. -/
inductive Reload
  | loaded
  | failed (error : JournalError)
  deriving DecidableEq, Repr

/-- What `EventLog::append` and a compaction after it do. An append that
fails may leave its outcome unknown; the event is then on disk or it is not,
and the journal reloads. A compaction that fails in that way makes the
journal reload too. -/
inductive Append
  | stored (compaction : Option Reload)
  | failed (error : JournalError)
  | unknown (error : JournalError) (isStored : Bool) (reload : Reload)
  deriving DecidableEq, Repr

/-- What a call meets outside the journal: the clock, the disk for each
operation, and whether the directory of a new operation can be set up. -/
structure Environment where
  now : ℤ
  append : Uuid → Append := fun _ => .stored none
  directory : Except JournalError Unit := .ok ()

/-- The state of an operation as its directory gives it, one event on. -/
def applyTo (entries : Entries) (event : FileOperationEventV1) : Except JournalError Entries := do
  let snapshot ← (entries[event.operationId]?.getD {}).apply event
  pure (entries.insert event.operationId snapshot)

def loadEntries (disk : List FileOperationEventV1) : Except JournalError Entries :=
  disk.foldlM applyTo ∅

namespace FileOperationJournal

def ensureHealthy (journal : FileOperationJournal) : Except JournalError Unit :=
  match journal.poisoned with
  | some error => .error (.persistence error)
  | none => .ok ()

/-- What the reads of a reload come to. -/
def Reload.outcome (reload : Reload) (disk : List FileOperationEventV1) :
    Except JournalError Entries :=
  match reload with
  | .loaded => loadEntries disk
  | .failed error => .error error

def reloadAfterUnknown (journal : FileOperationJournal) (reload : Reload) :
    FileOperationJournal :=
  match Reload.outcome reload journal.disk with
  | .ok entries => { journal with entries := entries, poisoned := none }
  | .error error => { journal with poisoned := some error.display }

/-- The event for a transition and the state it leads to, before anything is
written. -/
def prepare (journal : FileOperationJournal) (operationId : Uuid)
    (transition : FileOperationTransitionV1) :
    Except JournalError (FileOperationEventV1 × FileOperationSnapshotV1) := do
  journal.ensureHealthy
  let snapshot ← okOr journal.entries[operationId]? (.notFound operationId)
  let sequence ← nextSequence snapshot
  validateSnapshot snapshot
  let event : FileOperationEventV1 :=
    { schemaVersion := schemaVersion, sequence := sequence, operationId := operationId,
      transition := transition }
  let candidate ← snapshot.apply event
  pure (event, candidate)

/-- The event has reached the log. -/
def store (journal : FileOperationJournal) (event : FileOperationEventV1) :
    FileOperationJournal :=
  { journal with disk := journal.disk ++ [event] }

/-- The journal after an append that succeeded, and perhaps a compaction. -/
def adopt (journal : FileOperationJournal) (event : FileOperationEventV1)
    (candidate : FileOperationSnapshotV1) (compaction : Option Reload) : FileOperationJournal :=
  let next : FileOperationJournal := { journal.store event with
    entries := journal.entries.insert event.operationId candidate }
  match compaction with
  | none => next
  | some reload => next.reloadAfterUnknown reload

def write (journal : FileOperationJournal) (event : FileOperationEventV1)
    (candidate : FileOperationSnapshotV1) :
    Append → Except JournalError Unit × FileOperationJournal
  | .stored compaction =>
      let next := journal.adopt event candidate compaction
      (next.ensureHealthy, next)
  | .failed error => (.error error, journal)
  | .unknown error isStored reload =>
      (.error error,
        (if isStored then journal.store event else journal).reloadAfterUnknown reload)

def appendTransition (journal : FileOperationJournal) (env : Environment) (operationId : Uuid)
    (transition : FileOperationTransitionV1) :
    Except JournalError Unit × FileOperationJournal :=
  match journal.prepare operationId transition with
  | .error error => (.error error, journal)
  | .ok (event, candidate) => journal.write event candidate (env.append operationId)

/-- The first event of an operation that has no directory yet. -/
def prepareNew (journal : FileOperationJournal) (env : Environment)
    (operation : OperationRecord) :
    Except JournalError (FileOperationEventV1 × FileOperationSnapshotV1) := do
  journal.ensureHealthy
  env.directory
  let event : FileOperationEventV1 :=
    { schemaVersion := schemaVersion, sequence := 1, operationId := operation.id,
      transition := .intentInserted operation }
  let candidate ← FileOperationSnapshotV1.apply {} event
  pure (event, candidate)

/-- `FileOperationState::insert` after its checks on the record. A first
append never compacts. -/
def insertChecked (journal : FileOperationJournal) (env : Environment)
    (operation : OperationRecord) : Except JournalError Unit × FileOperationJournal :=
  match journal.entries[operation.id]? with
  | some snapshot =>
      if snapshot.operation.isSome then
        (.error (.conflict "duplicate operation id"), journal)
      else journal.appendTransition env operation.id (.intentInserted operation)
  | none =>
      match journal.prepareNew env operation with
      | .error error => (.error error, journal)
      | .ok (event, candidate) =>
          match env.append operation.id with
          | .stored _ => journal.write event candidate (.stored none)
          | outcome => journal.write event candidate outcome

def checkInsert (journal : FileOperationJournal) (operation : OperationRecord) :
    Except JournalError Unit := do
  journal.ensureHealthy
  rejectIf (operation.state ≠ .intent) (.conflict "new operation must start in INTENT")
  validateOperation operation

def insertIntent (journal : FileOperationJournal) (env : Environment)
    (operation : OperationRecord) : Except JournalError Unit × FileOperationJournal :=
  match journal.checkInsert operation with
  | .error error => (.error error, journal)
  | .ok () => journal.insertChecked env operation

/-- The operation a healthy journal holds under an id. -/
def operation? (journal : FileOperationJournal) (operationId : Uuid) : Option OperationRecord :=
  journal.entries[operationId]?.bind (·.operation)

def get (journal : FileOperationJournal) (operationId : Uuid) :
    Except JournalError (Option OperationRecord) := do
  journal.ensureHealthy
  pure (journal.operation? operationId)

def setOpen (journal : FileOperationJournal) (env : Environment) (operationId : Uuid)
    (uploadId : Option String) : Except JournalError Unit × FileOperationJournal :=
  journal.appendTransition env operationId (.opened uploadId env.now)

def compareAndSetClientMultipartUploadReference (journal : FileOperationJournal)
    (env : Environment) (operationId : Uuid) (expected next : Option String) :
    Except JournalError Unit × FileOperationJournal :=
  journal.appendTransition env operationId
    (.clientMultipartReferenceChanged expected next env.now)

def setExpected (journal : FileOperationJournal) (env : Environment) (operationId : Uuid)
    (expected : ExpectedObject) : Except JournalError Unit × FileOperationJournal :=
  journal.appendTransition env operationId (.expectedChanged expected env.now)

def transition (journal : FileOperationJournal) (env : Environment) (operationId : Uuid)
    (expected next : OperationState) (committed : Option StoredObjectMeta) :
    Except JournalError Unit × FileOperationJournal :=
  journal.appendTransition env operationId (.stateChanged expected next committed env.now)

def recordPart (journal : FileOperationJournal) (env : Environment) (part : PartRecord) :
    Except JournalError Unit × FileOperationJournal :=
  journal.appendTransition env part.operationId (.partRecorded part)

def parts (journal : FileOperationJournal) (operationId : Uuid) :
    Except JournalError (List PartRecord) := do
  journal.ensureHealthy
  pure ((journal.entries[operationId]?.map (·.parts)).getD [])

def appendEvidence (journal : FileOperationJournal) (env : Environment)
    (evidence : EvidenceRecord) : Except JournalError Unit × FileOperationJournal :=
  journal.appendTransition env evidence.operationId (.evidenceAppended evidence)

def evidence (journal : FileOperationJournal) (operationId : Uuid) :
    Except JournalError (List EvidenceRecord) := do
  journal.ensureHealthy
  pure ((journal.entries[operationId]?.map (·.evidence)).getD [])

def recordMutationLaunch (journal : FileOperationJournal) (env : Environment)
    (operationId : Uuid) (notBeforeMs : ℤ) : Except JournalError Unit × FileOperationJournal :=
  journal.appendTransition env operationId (.mutationLaunched notBeforeMs env.now)

/-- The checks of `confirm_exact_absence`, with the operation they are about. -/
def checkAbsence (journal : FileOperationJournal) (operationId : Uuid)
    (observedAtMs minimumSeparationMs : ℤ) : Except JournalError OperationRecord := do
  checkedTimestamp observedAtMs "exact absence timestamp"
  rejectIf (minimumSeparationMs < 0) (.conflict "negative exact absence separation")
  journal.ensureHealthy
  okOr (journal.operation? operationId) (.notFound operationId)

/-- An observation is too early while a launched mutation may still commit. -/
def ObservedTooEarly (operation : OperationRecord) (observedAtMs : ℤ) : Prop :=
  ∃ notBefore ∈ operation.mutationNotBeforeMs, observedAtMs < notBefore

instance (operation : OperationRecord) (observedAtMs : ℤ) :
    Decidable (ObservedTooEarly operation observedAtMs) := by
  unfold ObservedTooEarly
  infer_instance

def confirmExactAbsence (journal : FileOperationJournal) (env : Environment) (operationId : Uuid)
    (observedAtMs minimumSeparationMs : ℤ) : Except JournalError Bool × FileOperationJournal :=
  match journal.checkAbsence operationId observedAtMs minimumSeparationMs with
  | .error error => (.error error, journal)
  | .ok operation =>
      if ObservedTooEarly operation observedAtMs then (.ok false, journal)
      else
        match operation.exactAbsenceObservedAtMs with
        | some first =>
            (.ok (decide (saturatingSub observedAtMs first ≥ minimumSeparationMs)), journal)
        | none =>
            let (result, next) := journal.appendTransition env operationId
              (.exactAbsenceObserved observedAtMs env.now)
            (result.map fun () => false, next)

/-- The checks that both claims make on their arguments. -/
def checkClaim (journal : FileOperationJournal) (owner : String)
    (staleBeforeMs leaseUntilMs : ℤ) : Except JournalError Unit := do
  checkedTimestamp staleBeforeMs "stale threshold timestamp"
  checkedTimestamp leaseUntilMs "lease expiry timestamp"
  rejectIf (owner.isEmpty) (.conflict "claim owner is empty")
  journal.ensureHealthy

/-- An operation that has not ended, was not touched since the threshold and
has no running lease. -/
def Claimable (now staleBeforeMs : ℤ) (operation : OperationRecord) : Prop :=
  operation.state.isTerminal = false ∧ operation.updatedAtMs ≤ staleBeforeMs ∧
    ∀ expiry ∈ operation.leaseExpiresAtMs, expiry < now

instance (now staleBeforeMs : ℤ) (operation : OperationRecord) :
    Decidable (Claimable now staleBeforeMs operation) := by
  unfold Claimable
  infer_instance

/-- The candidates of a claim with the times they are sorted by. -/
def candidates (journal : FileOperationJournal) (now staleBeforeMs : ℤ) : List (ℤ × Uuid) :=
  journal.entries.toList.filterMap fun (id, snapshot) =>
    snapshot.operation.bind fun operation =>
      if Claimable now staleBeforeMs operation then some (operation.updatedAtMs, id) else none

/-- The order of pairs: the times, then the ids. -/
def candidateLe (a b : ℤ × Uuid) : Prop := a.1 < b.1 ∨ a.1 = b.1 ∧ a.2 ≤ b.2

instance : DecidableRel candidateLe := fun a b => by
  unfold candidateLe
  infer_instance

/-- The claims one after the other, up to the first that fails. -/
def claimEach (env : Environment) (owner : String) (leaseUntilMs : ℤ) :
    (ids : List Uuid) → (claimed : List OperationRecord) → FileOperationJournal →
      Except JournalError (List OperationRecord) × FileOperationJournal
  | [], claimed, journal => (.ok claimed, journal)
  | id :: rest, claimed, journal =>
      match journal.appendTransition env id (.claimed owner leaseUntilMs) with
      | (.error error, next) => (.error error, next)
      | (.ok (), next) =>
          claimEach env owner leaseUntilMs rest (claimed ++ (next.operation? id).toList) next

def claimReconcilable (journal : FileOperationJournal) (env : Environment) (owner : String)
    (staleBeforeMs leaseUntilMs : ℤ) (limit : ℕ) :
    Except JournalError (List OperationRecord) × FileOperationJournal :=
  match journal.checkClaim owner staleBeforeMs leaseUntilMs with
  | .error error => (.error error, journal)
  | .ok () =>
      let sorted := (journal.candidates env.now staleBeforeMs).insertionSort candidateLe
      claimEach env owner leaseUntilMs ((sorted.take limit).map Prod.snd) [] journal

def claimReconcilableOperation (journal : FileOperationJournal) (env : Environment)
    (operationId : Uuid) (owner : String) (staleBeforeMs leaseUntilMs : ℤ) :
    Except JournalError (Option OperationRecord) × FileOperationJournal :=
  match journal.checkClaim owner staleBeforeMs leaseUntilMs with
  | .error error => (.error error, journal)
  | .ok () =>
      match journal.operation? operationId with
      | none => (.ok none, journal)
      | some operation =>
          if Claimable env.now staleBeforeMs operation then
            let (result, next) :=
              journal.appendTransition env operationId (.claimed owner leaseUntilMs)
            (result.map fun () => next.operation? operationId, next)
          else (.ok none, journal)

def retireTerminal (journal : FileOperationJournal) (env : Environment) (operationId : Uuid)
    (expectedState : OperationState) (expectedClientMultipartUploadId : Option String) :
    Except JournalError Unit × FileOperationJournal :=
  journal.appendTransition env operationId
    (.terminalRetired expectedState expectedClientMultipartUploadId)

end FileOperationJournal

/-! ### Calls -/

inductive Call
  | insertIntent (operation : OperationRecord)
  | get (operationId : Uuid)
  | setOpen (operationId : Uuid) (uploadId : Option String)
  | compareAndSetClientMultipartUploadReference (operationId : Uuid)
      (expected next : Option String)
  | setExpected (operationId : Uuid) (expected : ExpectedObject)
  | transition (operationId : Uuid) (expected next : OperationState)
      (committed : Option StoredObjectMeta)
  | recordPart (part : PartRecord)
  | parts (operationId : Uuid)
  | appendEvidence (evidence : EvidenceRecord)
  | evidence (operationId : Uuid)
  | recordMutationLaunch (operationId : Uuid) (notBeforeMs : ℤ)
  | confirmExactAbsence (operationId : Uuid) (observedAtMs minimumSeparationMs : ℤ)
  | claimReconcilable (owner : String) (staleBeforeMs leaseUntilMs : ℤ) (limit : ℕ)
  | claimReconcilableOperation (operationId : Uuid) (owner : String)
      (staleBeforeMs leaseUntilMs : ℤ)
  | retireTerminal (operationId : Uuid) (expectedState : OperationState)
      (expectedClientMultipartUploadId : Option String)
  /-- The process ends and opens the journal again. While that fails there is
  no journal to call, which a poisoned one stands for. -/
  | reopen (reload : Reload)

/-- A call and what it meets outside the journal. -/
structure Exchange where
  call : Call
  env : Environment

/-- An answer as far as it tells whether the call was accepted. -/
def answered {α : Type} (outcome : Except JournalError α × FileOperationJournal) :
    Except JournalError Unit × FileOperationJournal :=
  (outcome.1.map fun _ => (), outcome.2)

def FileOperationJournal.serve (journal : FileOperationJournal) (exchange : Exchange) :
    Except JournalError Unit × FileOperationJournal :=
  let env := exchange.env
  match exchange.call with
  | .insertIntent operation => journal.insertIntent env operation
  | .get operationId => answered (journal.get operationId, journal)
  | .setOpen operationId uploadId => journal.setOpen env operationId uploadId
  | .compareAndSetClientMultipartUploadReference operationId expected next =>
      journal.compareAndSetClientMultipartUploadReference env operationId expected next
  | .setExpected operationId expected => journal.setExpected env operationId expected
  | .transition operationId expected next committed =>
      journal.transition env operationId expected next committed
  | .recordPart part => journal.recordPart env part
  | .parts operationId => answered (journal.parts operationId, journal)
  | .appendEvidence evidence => journal.appendEvidence env evidence
  | .evidence operationId => answered (journal.evidence operationId, journal)
  | .recordMutationLaunch operationId notBeforeMs =>
      journal.recordMutationLaunch env operationId notBeforeMs
  | .confirmExactAbsence operationId observedAtMs minimumSeparationMs =>
      answered (journal.confirmExactAbsence env operationId observedAtMs minimumSeparationMs)
  | .claimReconcilable owner staleBeforeMs leaseUntilMs limit =>
      answered (journal.claimReconcilable env owner staleBeforeMs leaseUntilMs limit)
  | .claimReconcilableOperation operationId owner staleBeforeMs leaseUntilMs =>
      answered (journal.claimReconcilableOperation env operationId owner staleBeforeMs leaseUntilMs)
  | .retireTerminal operationId expectedState expectedClientMultipartUploadId =>
      journal.retireTerminal env operationId expectedState expectedClientMultipartUploadId
  | .reopen reload => (.ok (), journal.reloadAfterUnknown reload)

end Maskura.Transaction
