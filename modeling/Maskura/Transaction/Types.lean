import Maskura.Multipart.Types

/-!
The records of the object-operation journal. An operation is one attempt to
write an object at a destination; it moves through the seven states of
`OperationState` and ends in one of the two terminal ones.
-/

namespace Maskura.Transaction

open Maskura.Multipart (Uuid Json)

deriving instance BEq for Json

/-! ### Durations -/

def i64Min : ℤ := -2 ^ 63

def i64Max : ℤ := 2 ^ 63 - 1

/-- `i64::saturating_sub`. -/
def saturatingSub (a b : ℤ) : ℤ := max i64Min (min i64Max (a - b))

/-- A saturated difference that is at least a nonnegative bound did not
saturate below the true difference. -/
theorem le_sub_of_le_saturatingSub {a b bound : ℤ} (hbound : 0 ≤ bound)
    (h : bound ≤ saturatingSub a b) : bound ≤ a - b := by
  have hmin : i64Min < 0 := by decide
  unfold saturatingSub at h
  rcases le_max_iff.mp h with h | h
  · omega
  · exact h.trans (min_le_right _ _)

/-- `Uuid::to_string`: hexadecimal digits in groups of 8, 4, 4, 4 and 12. -/
def uuidText (id : Uuid) : String :=
  let digits := id.toHex.toList
  let group (start count : ℕ) : String := String.ofList ((digits.drop start).take count)
  group 0 8 ++ "-" ++ group 8 4 ++ "-" ++ group 12 4 ++ "-" ++ group 16 4 ++ "-" ++ group 20 12

/-! ### Operations -/

inductive OperationState
  | intent
  | open
  | completing
  | commitUnknown
  | committed
  | aborting
  | provenAborted
  deriving DecidableEq, Repr

namespace OperationState

def asStr : OperationState → String
  | intent => "INTENT"
  | .open => "OPEN"
  | completing => "COMPLETING"
  | commitUnknown => "COMMIT_UNKNOWN"
  | committed => "COMMITTED"
  | aborting => "ABORTING"
  | provenAborted => "PROVEN_ABORTED"

def canTransitionTo : OperationState → OperationState → Bool
  | intent, .open | intent, aborting => true
  | .open, completing | .open, aborting => true
  | completing, committed | completing, commitUnknown | completing, provenAborted => true
  | commitUnknown, committed | commitUnknown, provenAborted => true
  | aborting, provenAborted => true
  | _, _ => false

def isTerminal : OperationState → Bool
  | committed | provenAborted => true
  | _ => false

/-- The terminal states are those no transition leaves. -/
theorem isTerminal_iff {state : OperationState} :
    state.isTerminal = true ↔ ∀ next, state.canTransitionTo next = false := by
  constructor
  · intro h next
    cases state <;> cases next <;> first | rfl | cases h
  · intro h
    cases state with
    | intent => exact absurd (h .open) (by decide)
    | «open» => exact absurd (h .completing) (by decide)
    | completing => exact absurd (h .committed) (by decide)
    | commitUnknown => exact absurd (h .committed) (by decide)
    | aborting => exact absurd (h .provenAborted) (by decide)
    | committed => rfl
    | provenAborted => rfl

end OperationState

structure WorkspaceDestinationBinding where
  backendConfigVersion : String
  capabilityAttestationId : String
  routingEpoch : ℕ
  routingLeaseId : Uuid
  routingFencingToken : ℕ
  deriving DecidableEq, Repr

structure ObjectDestination where
  backendId : String
  bucket : String
  logicalKey : String
  physicalKey : String
  workspaceBinding : Option WorkspaceDestinationBinding := none
  deriving DecidableEq, Repr

/-- The metadata is a `BTreeMap`, given by its entries in key order. -/
structure ExpectedObject where
  digest : Option String := none
  size : Option ℕ := none
  metadata : List (String × String) := []
  deriving DecidableEq, Repr

structure StoredObjectMeta where
  etag : Option String := none
  versionId : Option String := none
  supersededVersionIds : List String := []
  versionHistoryComplete : Bool := false
  deriving DecidableEq, Repr

structure OperationRecord where
  id : Uuid
  state : OperationState
  destination : ObjectDestination
  tenantId : Option String := none
  namespaceEpoch : Option ℕ := none
  expected : ExpectedObject
  uploadId : Option String := none
  clientMultipartUploadId : Option String := none
  committed : Option StoredObjectMeta := none
  leaseOwner : Option String := none
  leaseExpiresAtMs : Option ℤ := none
  mutationNotBeforeMs : Option ℤ := none
  exactAbsenceObservedAtMs : Option ℤ := none
  createdAtMs : ℤ
  updatedAtMs : ℤ
  deriving DecidableEq, Repr

/-- `OperationRecord::intent`, with the id and the time it draws. -/
def OperationRecord.newIntent (id : Uuid) (now : ℤ) (destination : ObjectDestination)
    (expected : ExpectedObject) : OperationRecord where
  id := id
  state := .intent
  destination := destination
  expected := expected
  createdAtMs := now
  updatedAtMs := now

structure PartRecord where
  operationId : Uuid
  partNumber : ℤ
  etag : String
  sizeBytes : ℕ
  digest : String
  createdAtMs : ℤ
  deriving DecidableEq, Repr

structure EvidenceRecord where
  id : Uuid
  operationId : Uuid
  kind : String
  detail : Json
  createdAtMs : ℤ

inductive JournalError
  | notFound (operationId : Uuid)
  | conflict (message : String)
  | corrupt (message : String)
  | persistence (message : String)
  deriving DecidableEq, Repr

def JournalError.display : JournalError → String
  | .notFound operationId => "operation " ++ uuidText operationId ++ " was not found"
  | .conflict message => "operation journal conflict: " ++ message
  | .corrupt message => "operation journal contains corrupt data: " ++ message
  | .persistence message => "operation journal persistence failed: " ++ message

/-! ### Sinks -/

inductive BackendErrorKind
  | definitive
  | ambiguous
  deriving DecidableEq, Repr

structure BackendError where
  kind : BackendErrorKind
  message : String
  deriving DecidableEq, Repr

inductive CapabilityError
  | missingIncompleteUploadDiscovery
  | missingIncompleteUploadAbort
  | missingCompletionReconciliation
  | cleanupSlaExceeded
  deriving DecidableEq, Repr

inductive TransactionError
  | journal (error : JournalError)
  | backend (error : BackendError)
  | capability (error : CapabilityError)
  | finished
  | completionAmbiguous
  | tooManyParts
  | spool (message : String)
  | outputMismatch
  | capacityExceeded
  | publication (message : String)
  | commitAuthority (message : String)
  deriving DecidableEq, Repr

end Maskura.Transaction
