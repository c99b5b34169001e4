import Maskura.Transaction.Journal

/-!
What the disk says of an operation. The journal answers from memory, but a
reload or a restart answers from the logs; what holds of every run is
therefore said of the events on disk. A healthy journal holds what they
reduce to, and a call either stores its event behind them or fails. Of an
operation's record two fields are followed here: the time before which a
launched mutation may still commit, and the absence observed since.
-/

namespace Maskura.Transaction

open Maskura.Lib
open Maskura.Multipart (Uuid)

/-! ### What an event does to the absence record -/

/-- The two fields that decide whether an absence is confirmed. -/
def OperationRecord.absence (operation : OperationRecord) : Option ℤ × Option ℤ :=
  (operation.mutationNotBeforeMs, operation.exactAbsenceObservedAtMs)

/-- The transitions that keep the operation and its absence record. -/
def FileOperationTransitionV1.Neutral : FileOperationTransitionV1 → Prop
  | .intentInserted _ | .mutationLaunched _ _ | .exactAbsenceObserved _ _
  | .terminalRetired _ _ => False
  | _ => True

/-- All that an event can do to the absence record of its operation. -/
inductive Reduces : FileOperationTransitionV1 → Option OperationRecord →
    Option OperationRecord → Prop
  | inserted (operation : OperationRecord) :
      Reduces (.intentInserted operation) none (some operation)
  | launched {operation next : OperationRecord} {notBeforeMs updatedAtMs : ℤ}
      (h : next.absence =
        (some (max (operation.mutationNotBeforeMs.getD i64Min) notBeforeMs), none)) :
      Reduces (.mutationLaunched notBeforeMs updatedAtMs) (some operation) (some next)
  | observed {operation next : OperationRecord} {observedAtMs updatedAtMs : ℤ}
      (h : next.absence = (operation.mutationNotBeforeMs, some observedAtMs)) :
      Reduces (.exactAbsenceObserved observedAtMs updatedAtMs) (some operation) (some next)
  | retired (operation : OperationRecord) (expectedState : OperationState)
      (reference : Option String) :
      Reduces (.terminalRetired expectedState reference) (some operation) none
  | neutral {operation next : OperationRecord} {transition : FileOperationTransitionV1}
      (htransition : transition.Neutral) (h : next.absence = operation.absence) :
      Reduces transition (some operation) (some next)

theorem setUpdatedAt_eq_ok {operation next : OperationRecord} {value : ℤ}
    (h : setUpdatedAt operation value = .ok next) :
    next = { operation with updatedAtMs := value } := by
  simp only [setUpdatedAt, checkedTimestamp, bind_eq_ok, rejectIf_eq_ok, exists_const,
    pure_eq_ok] at h
  exact h.2.2.symm

section Reducer

variable {snapshot candidate : FileOperationSnapshotV1} {operation next : OperationRecord}
  {operationId : Uuid} {event : FileOperationEventV1}

theorem requireOperation_eq_ok (h : requireOperation snapshot operationId = .ok operation) :
    snapshot.operation = some operation := by
  rw [requireOperation, okOr_eq_ok, Option.filter_eq_some_iff] at h
  exact h.1

theorem updateOperation_eq_ok {update : OperationRecord → Except JournalError OperationRecord}
    (h : snapshot.updateOperation operationId update = .ok candidate) :
    ∃ operation next, snapshot.operation = some operation ∧ update operation = .ok next ∧
      candidate = { snapshot with operation := some next } := by
  simp only [FileOperationSnapshotV1.updateOperation, bind_eq_ok, pure_eq_ok] at h
  obtain ⟨operation, hrequire, next, hupdate, rfl⟩ := h
  exact ⟨operation, next, requireOperation_eq_ok hrequire, hupdate, rfl⟩

/-- An update that leaves the two fields alone is neutral. -/
theorem reduces_neutral {update : OperationRecord → Except JournalError OperationRecord}
    {transition : FileOperationTransitionV1}
    (h : snapshot.updateOperation operationId update = .ok candidate)
    (htransition : transition.Neutral)
    (hupdate : ∀ operation next, update operation = .ok next → next.absence = operation.absence) :
    Reduces transition snapshot.operation candidate.operation := by
  obtain ⟨operation, next, hsome, hnext, rfl⟩ := updateOperation_eq_ok h
  rw [hsome]
  exact .neutral htransition (hupdate operation next hnext)

theorem reduceOpened_eq_ok {uploadId : Option String} {updatedAtMs : ℤ}
    (h : reduceOpened uploadId updatedAtMs operation = .ok next) :
    operation.state = .intent ∧ next =
      { operation with state := .open, uploadId := uploadId, updatedAtMs := updatedAtMs } := by
  simp only [reduceOpened, bind_eq_ok, rejectIf_eq_ok, exists_const, not_not, pure_eq_ok] at h
  obtain ⟨hstate, updated, hupdated, rfl⟩ := h
  rw [setUpdatedAt_eq_ok hupdated]
  exact ⟨hstate, rfl⟩

theorem reduceClientMultipartReferenceChanged_eq_ok {expected reference : Option String}
    {updatedAtMs : ℤ}
    (h : reduceClientMultipartReferenceChanged operationId expected reference updatedAtMs
      operation = .ok next) :
    next = { operation with clientMultipartUploadId := reference, updatedAtMs := updatedAtMs } := by
  simp only [reduceClientMultipartReferenceChanged, bind_eq_ok, rejectIf_eq_ok, exists_const,
    pure_eq_ok] at h
  obtain ⟨-, updated, hupdated, rfl⟩ := h
  rw [setUpdatedAt_eq_ok hupdated]

theorem reduceExpectedChanged_eq_ok {expected : ExpectedObject} {updatedAtMs : ℤ}
    (h : reduceExpectedChanged operationId expected updatedAtMs operation = .ok next) :
    (operation.state = .intent ∨ operation.state = .open) ∧
      next = { operation with expected := expected, updatedAtMs := updatedAtMs } := by
  simp only [reduceExpectedChanged, bind_eq_ok, rejectIf_eq_ok, exists_const, not_not,
    pure_eq_ok] at h
  obtain ⟨hstate, updated, hupdated, rfl⟩ := h
  rw [setUpdatedAt_eq_ok hupdated]
  exact ⟨hstate, rfl⟩

theorem reduceStateChanged_eq_ok {expected state : OperationState}
    {committed : Option StoredObjectMeta} {updatedAtMs : ℤ}
    (h : reduceStateChanged expected state committed updatedAtMs operation = .ok next) :
    operation.state = expected ∧ next = { operation with
      state := state, committed := committed, leaseOwner := none, leaseExpiresAtMs := none,
      updatedAtMs := updatedAtMs } := by
  simp only [reduceStateChanged, bind_eq_ok, rejectIf_eq_ok, exists_const, not_not, pure_eq_ok] at h
  obtain ⟨hstate, updated, hupdated, rfl⟩ := h
  rw [setUpdatedAt_eq_ok hupdated]
  exact ⟨hstate, rfl⟩

theorem reduceClaimed_eq_ok {owner : String} {leaseUntilMs : ℤ}
    (h : reduceClaimed owner leaseUntilMs operation = .ok next) :
    next = { operation with leaseOwner := some owner, leaseExpiresAtMs := some leaseUntilMs } := by
  simp only [reduceClaimed, checkedTimestamp, bind_eq_ok, rejectIf_eq_ok, exists_const,
    pure_eq_ok] at h
  obtain ⟨-, -, rfl⟩ := h
  rfl

theorem reduceMutationLaunched_eq_ok {notBeforeMs updatedAtMs : ℤ}
    (h : reduceMutationLaunched notBeforeMs updatedAtMs operation = .ok next) :
    operation.state.isTerminal = false ∧ next = { operation with
      mutationNotBeforeMs := some (max (operation.mutationNotBeforeMs.getD i64Min) notBeforeMs)
      exactAbsenceObservedAtMs := none, updatedAtMs := updatedAtMs } := by
  simp only [reduceMutationLaunched, checkedTimestamp, bind_eq_ok, rejectIf_eq_ok, exists_const,
    Bool.not_eq_true, pure_eq_ok] at h
  obtain ⟨hstate, -, updated, hupdated, rfl⟩ := h
  rw [setUpdatedAt_eq_ok hupdated]
  exact ⟨hstate, rfl⟩

theorem reduceExactAbsenceObserved_eq_ok {observedAtMs updatedAtMs : ℤ}
    (h : reduceExactAbsenceObserved observedAtMs updatedAtMs operation = .ok next) :
    next = { operation with
      exactAbsenceObservedAtMs := some observedAtMs, updatedAtMs := updatedAtMs } := by
  simp only [reduceExactAbsenceObserved, checkedTimestamp, bind_eq_ok, rejectIf_eq_ok, exists_const,
    pure_eq_ok] at h
  obtain ⟨-, -, updated, hupdated, rfl⟩ := h
  rw [setUpdatedAt_eq_ok hupdated]

theorem placePart_ok {part : PartRecord} (h : placePart snapshot part = .ok candidate) :
    candidate = snapshot ∨
      candidate = { snapshot with parts := insertPart part snapshot.parts } := by
  unfold placePart at h
  split at h <;>
    simp only [bind_eq_ok, rejectIf_eq_ok, exists_const, pure_eq_ok] at h
  · exact .inl h.2.symm
  · exact .inr h.2.symm

theorem placeEvidence_ok {evidence : EvidenceRecord}
    (h : placeEvidence snapshot evidence = .ok candidate) :
    candidate = snapshot ∨
      candidate = { snapshot with evidence := snapshot.evidence ++ [evidence] } := by
  unfold placeEvidence at h
  split at h <;>
    simp only [bind_eq_ok, rejectIf_eq_ok, exists_const, pure_eq_ok] at h
  · exact .inl h.2.symm
  · exact .inr h.2.symm

theorem reduceTransition_reduces (h : reduceTransition snapshot event = .ok candidate) :
    Reduces event.transition snapshot.operation candidate.operation := by
  unfold reduceTransition at h
  split at h
  · next operation htransition =>
    rw [htransition]
    simp only [reduceIntentInserted, bind_eq_ok, rejectIf_eq_ok, exists_const, pure_eq_ok, not_or,
      Option.not_isSome_iff_eq_none] at h
    obtain ⟨⟨hnone, -⟩, -, rfl⟩ := h
    rw [hnone]
    exact .inserted operation
  · next htransition =>
    rw [htransition]
    exact reduces_neutral h trivial fun _ _ hnext => by rw [(reduceOpened_eq_ok hnext).2]; rfl
  · next htransition =>
    rw [htransition]
    exact reduces_neutral h trivial fun _ _ hnext => by
      rw [reduceClientMultipartReferenceChanged_eq_ok hnext]; rfl
  · next htransition =>
    rw [htransition]
    exact reduces_neutral h trivial fun _ _ hnext => by
      rw [(reduceExpectedChanged_eq_ok hnext).2]; rfl
  · next htransition =>
    rw [htransition]
    simp only [bind_eq_ok, rejectIf_eq_ok, exists_const] at h
    exact reduces_neutral h.2.2 trivial fun _ _ hnext => by
      rw [(reduceStateChanged_eq_ok hnext).2]; rfl
  · next part htransition =>
    rw [htransition]
    simp only [reducePartRecorded, bind_eq_ok, rejectIf_eq_ok, exists_const] at h
    obtain ⟨operation, hrequire, -, hplace⟩ := h
    rcases placePart_ok hplace with rfl | rfl <;>
      exact requireOperation_eq_ok hrequire ▸ .neutral trivial rfl
  · next evidence htransition =>
    rw [htransition]
    simp only [reduceEvidenceAppended, bind_eq_ok, rejectIf_eq_ok, exists_const] at h
    obtain ⟨operation, hrequire, -, hplace⟩ := h
    rcases placeEvidence_ok hplace with rfl | rfl <;>
      exact requireOperation_eq_ok hrequire ▸ .neutral trivial rfl
  · next htransition =>
    rw [htransition]
    obtain ⟨operation, next, hsome, hnext, rfl⟩ := updateOperation_eq_ok h
    rw [hsome]
    exact .launched (by rw [(reduceMutationLaunched_eq_ok hnext).2]; rfl)
  · next htransition =>
    rw [htransition]
    obtain ⟨operation, next, hsome, hnext, rfl⟩ := updateOperation_eq_ok h
    rw [hsome]
    exact .observed (by rw [reduceExactAbsenceObserved_eq_ok hnext]; rfl)
  · next htransition =>
    rw [htransition]
    exact reduces_neutral h trivial fun _ _ hnext => by rw [reduceClaimed_eq_ok hnext]; rfl
  · next expectedState reference htransition =>
    rw [htransition]
    simp only [reduceTerminalRetired, bind_eq_ok, rejectIf_eq_ok, exists_const, pure_eq_ok] at h
    obtain ⟨-, operation, hrequire, -, rfl⟩ := h
    rw [requireOperation_eq_ok hrequire]
    exact .retired operation expectedState reference

theorem apply_reduces (h : snapshot.apply event = .ok candidate) :
    Reduces event.transition snapshot.operation candidate.operation := by
  simp only [FileOperationSnapshotV1.apply, bind_eq_ok, rejectIf_eq_ok, exists_const,
    pure_eq_ok] at h
  obtain ⟨-, _, -, -, reduced, hreduce, -, -, rfl⟩ := h
  have hreduces := reduceTransition_reduces hreduce
  exact hreduces

end Reducer

/-! ### What the disk says of an operation -/

/-- A journal that answers holds what its logs reduce to, and the logs can be
read at any time. -/
structure FileOperationJournal.Coherent (journal : FileOperationJournal) : Prop where
  readable : ∃ entries, loadEntries journal.disk = .ok entries
  healthy : journal.poisoned = none → loadEntries journal.disk = .ok journal.entries

/-- The operation that the events of a disk reduce to. -/
def diskOperation (disk : List FileOperationEventV1) (operationId : Uuid) :
    Option OperationRecord :=
  match loadEntries disk with
  | .ok entries => entries[operationId]?.bind (·.operation)
  | .error _ => none

theorem diskOperation_eq {disk : List FileOperationEventV1} {entries : Entries}
    (h : loadEntries disk = .ok entries) (operationId : Uuid) :
    diskOperation disk operationId = entries[operationId]?.bind (·.operation) := by
  rw [diskOperation, h]

namespace FileOperationJournal

variable {journal next : FileOperationJournal} {env : Environment} {operationId : Uuid}
  {transition : FileOperationTransitionV1} {event : FileOperationEventV1}
  {candidate : FileOperationSnapshotV1} {result : Except JournalError Unit}

theorem ensureHealthy_eq_ok {u : Unit} :
    journal.ensureHealthy = .ok u ↔ journal.poisoned = none := by
  unfold ensureHealthy
  cases journal.poisoned <;> simp

theorem Coherent.operation? (h : journal.Coherent) (hpoisoned : journal.poisoned = none)
    (operationId : Uuid) :
    journal.operation? operationId = diskOperation journal.disk operationId :=
  (diskOperation_eq (h.healthy hpoisoned) operationId).symm

theorem Coherent.reloadAfterUnknown (journal : FileOperationJournal)
    (h : ∃ entries, loadEntries journal.disk = .ok entries) (reload : Reload) :
    (journal.reloadAfterUnknown reload).Coherent ∧
      (journal.reloadAfterUnknown reload).disk = journal.disk := by
  obtain ⟨entries, hentries⟩ := h
  cases reload with
  | loaded =>
      simp only [FileOperationJournal.reloadAfterUnknown, Reload.outcome, hentries]
      exact ⟨⟨⟨entries, hentries⟩, fun _ => hentries⟩, trivial⟩
  | failed error =>
      simp only [FileOperationJournal.reloadAfterUnknown, Reload.outcome]
      exact ⟨⟨⟨entries, hentries⟩, fun hnone => nomatch hnone⟩, trivial⟩

/-- An event that was prepared extends what can be loaded. -/
theorem loadEntries_store {entries : Entries} (hload : loadEntries journal.disk = .ok entries)
    (happly : (entries[event.operationId]?.getD {}).apply event = .ok candidate) :
    loadEntries (journal.store event).disk = .ok (entries.insert event.operationId candidate) := by
  refine foldlM_concat_eq_ok.mpr ⟨entries, hload, ?_⟩
  simp only [applyTo, happly]
  rfl

/-- An append either leaves the disk as it was, and then the call fails, or
puts the event at the end of it. -/
theorem Coherent.write (h : journal.Coherent) (hpoisoned : journal.poisoned = none)
    (happly : (journal.entries[event.operationId]?.getD {}).apply event = .ok candidate)
    {outcome : Append} (hwrite : journal.write event candidate outcome = (result, next)) :
    next.Coherent ∧
      (next.disk = journal.disk ∧ result ≠ .ok () ∨ next.disk = journal.disk ++ [event]) := by
  have hstore := loadEntries_store (h.healthy hpoisoned) happly
  cases outcome with
  | stored compaction =>
      obtain ⟨rfl, rfl⟩ := Prod.mk.inj hwrite
      cases compaction with
      | none => exact ⟨⟨⟨_, hstore⟩, fun _ => hstore⟩, .inr rfl⟩
      | some reload =>
          obtain ⟨hcoherent, hdisk⟩ := Coherent.reloadAfterUnknown
            { journal.store event with
              entries := journal.entries.insert event.operationId candidate } ⟨_, hstore⟩ reload
          exact ⟨hcoherent, .inr hdisk⟩
  | failed error =>
      obtain ⟨rfl, rfl⟩ := Prod.mk.inj hwrite
      exact ⟨h, .inl ⟨rfl, by simp⟩⟩
  | unknown error isStored reload =>
      obtain ⟨rfl, rfl⟩ := Prod.mk.inj hwrite
      cases isStored with
      | false =>
          obtain ⟨hcoherent, hdisk⟩ := Coherent.reloadAfterUnknown journal h.readable reload
          exact ⟨hcoherent, .inl ⟨hdisk, by simp⟩⟩
      | true =>
          obtain ⟨hcoherent, hdisk⟩ :=
            Coherent.reloadAfterUnknown (journal.store event) ⟨_, hstore⟩ reload
          exact ⟨hcoherent, .inr hdisk⟩

/-- What a prepared event is. -/
theorem prepare_eq_ok (hprepare : journal.prepare operationId transition = .ok (event, candidate)) :
    journal.poisoned = none ∧ event.operationId = operationId ∧ event.transition = transition ∧
      ∃ snapshot, journal.entries[operationId]? = some snapshot ∧
        snapshot.apply event = .ok candidate := by
  simp only [prepare, bind_eq_ok, ensureHealthy_eq_ok, okOr_eq_ok, exists_const,
    pure_eq_ok] at hprepare
  obtain ⟨hpoisoned, snapshot, hentry, sequence, -, -, -, next, happly, heq⟩ := hprepare
  obtain ⟨rfl, rfl⟩ := Prod.mk.inj heq
  exact ⟨hpoisoned, rfl, rfl, snapshot, hentry, happly⟩

theorem prepareNew_eq_ok {operation : OperationRecord}
    (hprepare : journal.prepareNew env operation = .ok (event, candidate)) :
    journal.poisoned = none ∧ event.operationId = operation.id ∧
      event.transition = .intentInserted operation ∧
      FileOperationSnapshotV1.apply {} event = .ok candidate := by
  simp only [prepareNew, bind_eq_ok, ensureHealthy_eq_ok, exists_const, pure_eq_ok] at hprepare
  obtain ⟨hpoisoned, -, -, reduced, happly, heq⟩ := hprepare
  obtain ⟨rfl, rfl⟩ := Prod.mk.inj heq
  exact ⟨hpoisoned, rfl, rfl, happly⟩

/-- The event of a call is on disk behind the events that were there. -/
structure Stores (journal next : FileOperationJournal) (operationId : Uuid)
    (transition : FileOperationTransitionV1) : Prop where
  poisoned : journal.poisoned = none
  reduced : ∃ event snapshot candidate,
    event.operationId = operationId ∧ event.transition = transition ∧
      journal.entries[operationId]?.getD {} = snapshot ∧ snapshot.apply event = .ok candidate ∧
      next.disk = journal.disk ++ [event]

/-- A call that appends one event stores it or leaves the disk as it was, and
then it fails. -/
theorem Coherent.appendTransition (h : journal.Coherent)
    (happend : journal.appendTransition env operationId transition = (result, next)) :
    next.Coherent ∧
      (next.disk = journal.disk ∧ result ≠ .ok () ∨ journal.Stores next operationId transition) := by
  unfold FileOperationJournal.appendTransition at happend
  split at happend
  · obtain ⟨rfl, rfl⟩ := Prod.mk.inj happend
    exact ⟨h, .inl ⟨rfl, by simp⟩⟩
  · next event candidate hprepare =>
    obtain ⟨hpoisoned, rfl, rfl, snapshot, hentry, happly⟩ := prepare_eq_ok hprepare
    have hsnapshot : journal.entries[event.operationId]?.getD {} = snapshot := by
      rw [hentry, Option.getD_some]
    obtain ⟨hcoherent, hdisk⟩ := h.write hpoisoned (hsnapshot ▸ happly) happend
    exact ⟨hcoherent, hdisk.imp_right fun hdisk =>
      ⟨hpoisoned, event, snapshot, candidate, rfl, rfl, hsnapshot, happly, hdisk⟩⟩

theorem Coherent.insertIntent {operation : OperationRecord} (h : journal.Coherent)
    (hinsert : journal.insertIntent env operation = (result, next)) :
    next.Coherent ∧ (next.disk = journal.disk ∨
      journal.Stores next operation.id (.intentInserted operation)) := by
  unfold FileOperationJournal.insertIntent insertChecked at hinsert
  split at hinsert
  · obtain ⟨rfl, rfl⟩ := Prod.mk.inj hinsert
    exact ⟨h, .inl rfl⟩
  split at hinsert
  · split at hinsert
    · obtain ⟨rfl, rfl⟩ := Prod.mk.inj hinsert
      exact ⟨h, .inl rfl⟩
    · obtain ⟨hcoherent, hdisk⟩ := h.appendTransition hinsert
      exact ⟨hcoherent, hdisk.imp_left And.left⟩
  next hentry =>
  split at hinsert
  · obtain ⟨rfl, rfl⟩ := Prod.mk.inj hinsert
    exact ⟨h, .inl rfl⟩
  · next event candidate hprepare =>
    obtain ⟨hpoisoned, hid, htransition, happly⟩ := prepareNew_eq_ok hprepare
    -- the first append of an operation reduces its event on the empty state
    have hempty : journal.entries[event.operationId]?.getD {} = {} := by
      rw [hid, hentry, Option.getD_none]
    have hwrite : ∃ outcome, journal.write event candidate outcome = (result, next) := by
      split at hinsert
      · exact ⟨_, hinsert⟩
      · exact ⟨_, hinsert⟩
    obtain ⟨outcome, hwrite⟩ := hwrite
    obtain ⟨hcoherent, hdisk⟩ := h.write hpoisoned (by rw [hempty]; exact happly) hwrite
    exact ⟨hcoherent, hdisk.imp And.left fun hdisk =>
      ⟨hpoisoned, event, {}, candidate, hid, htransition, hid ▸ hempty, happly, hdisk⟩⟩

theorem Stores.disk_ne (hstores : journal.Stores next operationId transition) :
    next.disk ≠ journal.disk := by
  obtain ⟨event, _, _, _, _, _, _, hdisk⟩ := hstores.reduced
  rw [hdisk]
  simp

/-- A stored event reduces on its operation and on no other. -/
theorem Stores.reduces (h : journal.Coherent)
    (hstores : journal.Stores next operationId transition) :
    Reduces transition (diskOperation journal.disk operationId)
        (diskOperation next.disk operationId) ∧
      ∀ other, other ≠ operationId →
        diskOperation next.disk other = diskOperation journal.disk other := by
  obtain ⟨event, snapshot, candidate, rfl, rfl, hsnapshot, happly, hdisk⟩ := hstores.reduced
  have hload := h.healthy hstores.poisoned
  have hstore : loadEntries next.disk =
      .ok (journal.entries.insert event.operationId candidate) := by
    rw [hdisk]
    exact loadEntries_store hload (by rw [hsnapshot]; exact happly)
  refine ⟨?_, fun other hother => ?_⟩
  · have hbefore : diskOperation journal.disk event.operationId = snapshot.operation := by
      rw [diskOperation_eq hload, ← hsnapshot]
      cases journal.entries[event.operationId]? <;> rfl
    rw [hbefore, diskOperation_eq hstore, FinMap.getElem?_insert_eq, if_pos rfl]
    exact apply_reduces happly
  · rw [diskOperation_eq hstore, FinMap.getElem?_insert_of_ne _ _ hother.symm,
      diskOperation_eq hload]

/-- The absence record of an operation is the same on two disks. -/
def AbsenceKept (before after : List FileOperationEventV1) (operationId : Uuid) : Prop :=
  (diskOperation after operationId).map (·.absence) =
    (diskOperation before operationId).map (·.absence)

theorem Stores.absenceKept_of_neutral (h : journal.Coherent)
    (hstores : journal.Stores next operationId transition) (htransition : transition.Neutral)
    (watched : Uuid) : AbsenceKept journal.disk next.disk watched := by
  obtain ⟨hreduces, hother⟩ := hstores.reduces h
  by_cases hid : watched = operationId
  · subst hid
    revert hreduces
    generalize hbefore : diskOperation journal.disk watched = before
    generalize hafter : diskOperation next.disk watched = after
    intro hreduces
    rw [AbsenceKept, hbefore, hafter]
    cases hreduces with
    | neutral _ habsence => exact congrArg some habsence
    | inserted | launched | observed | retired => exact htransition.elim
  · rw [AbsenceKept, hother watched hid]

theorem Coherent.append_neutral (h : journal.Coherent)
    (happend : journal.appendTransition env operationId transition = (result, next))
    (htransition : transition.Neutral) :
    next.Coherent ∧ ∀ watched, AbsenceKept journal.disk next.disk watched := by
  obtain ⟨hcoherent, ⟨hdisk, -⟩ | hstores⟩ := h.appendTransition happend
  · refine ⟨hcoherent, fun watched => ?_⟩
    rw [AbsenceKept, hdisk]
  · exact ⟨hcoherent, hstores.absenceKept_of_neutral h htransition⟩

theorem Coherent.claimEach {owner : String} {leaseUntilMs : ℤ} {ids : List Uuid}
    {claimed : List OperationRecord} {answer : Except JournalError (List OperationRecord)}
    (h : journal.Coherent)
    (hclaim : claimEach env owner leaseUntilMs ids claimed journal = (answer, next)) :
    next.Coherent ∧ ∀ watched, AbsenceKept journal.disk next.disk watched := by
  induction ids generalizing claimed journal with
  | nil =>
      obtain ⟨-, rfl⟩ := Prod.mk.inj hclaim
      exact ⟨h, fun _ => rfl⟩
  | cons id rest ih =>
      rw [FileOperationJournal.claimEach] at hclaim
      split at hclaim
      · next error failed happend =>
        obtain ⟨-, rfl⟩ := Prod.mk.inj hclaim
        exact h.append_neutral happend trivial
      · next following happend =>
        obtain ⟨hfollowing, hkept⟩ := h.append_neutral happend trivial
        obtain ⟨hcoherent, hrest⟩ := ih hfollowing hclaim
        exact ⟨hcoherent, fun watched => (hrest watched).trans (hkept watched)⟩

end FileOperationJournal

end Maskura.Transaction
