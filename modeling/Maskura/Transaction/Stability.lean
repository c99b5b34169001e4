import Maskura.Transaction.Durable

/-!
What an operation's record keeps from one event to the next. Recovery decides
from this record whether an object was published, so what it once said has to
stay true: a final state is final, the expected output is fixed once it is being
published, and parts and evidence only grow.
-/

namespace Maskura.Transaction

open Maskura.Lib
open Maskura.Multipart (Uuid)
open scoped List

/-- `FileOperationReducer::from_snapshot`. -/
def FileOperationSnapshotV1.fromSnapshot (snapshot : FileOperationSnapshotV1) :
    Except JournalError FileOperationSnapshotV1 := do
  validateSnapshot snapshot
  pure snapshot

def FileOperationTransitionV1.Retires : FileOperationTransitionV1 → Prop
  | .terminalRetired _ _ => True
  | _ => False

/-- What one event may do to the record of its operation. -/
structure OperationRecord.Follows (operation next : OperationRecord) : Prop where
  state : next.state = operation.state ∧ next.committed = operation.committed ∨
    operation.state.canTransitionTo next.state = true
  expected : next.expected = operation.expected ∨ operation.state = .intent ∨
    operation.state = .open
  notBefore : ∀ bound ∈ operation.mutationNotBeforeMs,
    ∃ bound' ∈ next.mutationNotBeforeMs, bound ≤ bound'

/-- What any number of events may do to it. -/
structure OperationRecord.Stable (operation later : OperationRecord) : Prop where
  state : Relation.ReflTransGen (fun state next => state.canTransitionTo next = true)
    operation.state later.state
  committed : operation.state = .committed →
    later.state = .committed ∧ later.committed = operation.committed
  aborted : operation.state = .provenAborted → later.state = .provenAborted
  expected : operation.state ≠ .intent → operation.state ≠ .open →
    later.expected = operation.expected
  notBefore : ∀ bound ∈ operation.mutationNotBeforeMs,
    ∃ bound' ∈ later.mutationNotBeforeMs, bound ≤ bound'

/-- The snapshot keeps the operation under `R`, and the parts and the evidence. -/
structure FileOperationSnapshotV1.Keeps (R : OperationRecord → OperationRecord → Prop)
    (snapshot later : FileOperationSnapshotV1) : Prop where
  operation : ∀ operation ∈ snapshot.operation, ∃ operation' ∈ later.operation, R operation operation'
  parts : snapshot.parts <+ later.parts
  evidence : snapshot.evidence <+: later.evidence

/-! ### One event -/

section Event

variable {snapshot candidate : FileOperationSnapshotV1} {operation next : OperationRecord}
  {operationId : Uuid} {event : FileOperationEventV1}

theorem OperationRecord.Follows.refl (operation : OperationRecord) : operation.Follows operation :=
  ⟨.inl ⟨rfl, rfl⟩, .inl rfl, fun bound hbound => ⟨bound, hbound, le_rfl⟩⟩

theorem keeps_updateOperation
    {update : OperationRecord → Except JournalError OperationRecord}
    (h : snapshot.updateOperation operationId update = .ok candidate)
    (hupdate : ∀ operation next, update operation = .ok next → operation.Follows next) :
    snapshot.Keeps OperationRecord.Follows candidate := by
  obtain ⟨operation, next, hsome, hnext, rfl⟩ := updateOperation_eq_ok h
  refine ⟨fun operation' hoperation' => ⟨next, rfl, ?_⟩, List.Sublist.refl _, List.prefix_rfl⟩
  obtain rfl := Option.some.inj (hsome.symm.trans hoperation')
  exact hupdate operation next hnext

theorem insertPart_sublist (part : PartRecord) (parts : List PartRecord) :
    parts <+ insertPart part parts := by
  conv_lhs => rw [← List.takeWhile_append_dropWhile (p := fun old => old.partNumber < part.partNumber)
    (l := parts)]
  exact (List.Sublist.refl _).append (List.sublist_cons_self _ _)

theorem keeps_placePart {part : PartRecord} (h : placePart snapshot part = .ok candidate) :
    snapshot.Keeps OperationRecord.Follows candidate := by
  rcases placePart_ok h with rfl | rfl
  · exact ⟨fun operation hmem => ⟨operation, hmem, .refl _⟩, .refl _, List.prefix_rfl⟩
  · exact ⟨fun operation hmem => ⟨operation, hmem, .refl _⟩, insertPart_sublist part _,
      List.prefix_rfl⟩

theorem keeps_placeEvidence {evidence : EvidenceRecord}
    (h : placeEvidence snapshot evidence = .ok candidate) :
    snapshot.Keeps OperationRecord.Follows candidate := by
  rcases placeEvidence_ok h with rfl | rfl
  · exact ⟨fun operation hmem => ⟨operation, hmem, .refl _⟩, .refl _, List.prefix_rfl⟩
  · exact ⟨fun operation hmem => ⟨operation, hmem, .refl _⟩, .refl _, List.prefix_append _ _⟩

theorem OperationRecord.Follows.of_same (hstate : next.state = operation.state)
    (hcommitted : next.committed = operation.committed)
    (hexpected : next.expected = operation.expected)
    (hnotBefore : next.mutationNotBeforeMs = operation.mutationNotBeforeMs) :
    operation.Follows next :=
  ⟨.inl ⟨hstate, hcommitted⟩, .inl hexpected, fun bound hbound =>
    ⟨bound, hnotBefore ▸ hbound, le_rfl⟩⟩

theorem reduceTransition_keeps (hretires : ¬event.transition.Retires)
    (h : reduceTransition snapshot event = .ok candidate) :
    snapshot.Keeps OperationRecord.Follows candidate := by
  unfold reduceTransition at h
  split at h
  case h_1 inserted htransition =>
    simp only [reduceIntentInserted, bind_eq_ok, rejectIf_eq_ok, exists_const, pure_eq_ok, not_or,
      Option.not_isSome_iff_eq_none] at h
    obtain ⟨⟨hnone, -⟩, -, rfl⟩ := h
    refine ⟨fun operation hoperation => ?_, List.Sublist.refl _, List.prefix_rfl⟩
    rw [hnone] at hoperation
    cases hoperation
  case h_2 uploadId updatedAtMs htransition =>
    refine keeps_updateOperation h fun operation next hnext => ?_
    obtain ⟨hstate, rfl⟩ := reduceOpened_eq_ok hnext
    exact ⟨.inr (by rw [hstate]; rfl), .inl rfl, fun bound hbound => ⟨bound, hbound, le_rfl⟩⟩
  case h_3 expected reference updatedAtMs htransition =>
    refine keeps_updateOperation h fun operation next hnext => ?_
    rw [reduceClientMultipartReferenceChanged_eq_ok hnext]
    exact .of_same rfl rfl rfl rfl
  case h_4 expected updatedAtMs htransition =>
    refine keeps_updateOperation h fun operation next hnext => ?_
    obtain ⟨hstate, rfl⟩ := reduceExpectedChanged_eq_ok hnext
    exact ⟨.inl ⟨rfl, rfl⟩, .inr hstate, fun bound hbound => ⟨bound, hbound, le_rfl⟩⟩
  case h_5 expected state committed updatedAtMs htransition =>
    simp only [bind_eq_ok, rejectIf_eq_ok, exists_const, not_not] at h
    obtain ⟨hedge, -, h⟩ := h
    refine keeps_updateOperation h fun operation next hnext => ?_
    obtain ⟨rfl, rfl⟩ := reduceStateChanged_eq_ok hnext
    exact ⟨.inr hedge, .inl rfl, fun bound hbound => ⟨bound, hbound, le_rfl⟩⟩
  case h_6 part htransition =>
    simp only [reducePartRecorded, bind_eq_ok, rejectIf_eq_ok, exists_const] at h
    obtain ⟨-, -, -, hplace⟩ := h
    exact keeps_placePart hplace
  case h_7 evidence htransition =>
    simp only [reduceEvidenceAppended, bind_eq_ok, rejectIf_eq_ok, exists_const] at h
    obtain ⟨-, -, -, hplace⟩ := h
    exact keeps_placeEvidence hplace
  case h_8 notBeforeMs updatedAtMs htransition =>
    refine keeps_updateOperation h fun operation next hnext => ?_
    obtain ⟨-, rfl⟩ := reduceMutationLaunched_eq_ok hnext
    refine ⟨.inl ⟨rfl, rfl⟩, .inl rfl, fun bound hbound => ⟨_, rfl, ?_⟩⟩
    rw [Option.mem_def] at hbound
    simp [hbound]
  case h_9 observedAtMs updatedAtMs htransition =>
    refine keeps_updateOperation h fun operation next hnext => ?_
    rw [reduceExactAbsenceObserved_eq_ok hnext]
    exact .of_same rfl rfl rfl rfl
  case h_10 owner leaseUntilMs htransition =>
    refine keeps_updateOperation h fun operation next hnext => ?_
    rw [reduceClaimed_eq_ok hnext]
    exact .of_same rfl rfl rfl rfl
  case h_11 expectedState reference htransition =>
    exact absurd (by rw [htransition]; trivial) hretires

/-- `apply` reduces the event, numbers the result and validates it. -/
theorem apply_eq_ok (h : snapshot.apply event = .ok candidate) :
    ∃ reduced, reduceTransition snapshot event = .ok reduced ∧
      candidate = { reduced with finalEventSequence := event.sequence } ∧
      validateSnapshot candidate = .ok () := by
  simp only [FileOperationSnapshotV1.apply, bind_eq_ok, rejectIf_eq_ok, exists_const,
    pure_eq_ok] at h
  obtain ⟨-, _, -, -, reduced, hreduce, u, hvalid, rfl⟩ := h
  exact ⟨reduced, hreduce, rfl, hvalid⟩

theorem apply_keeps (hretires : ¬event.transition.Retires)
    (h : snapshot.apply event = .ok candidate) : snapshot.Keeps OperationRecord.Follows candidate := by
  obtain ⟨reduced, hreduce, rfl, -⟩ := apply_eq_ok h
  obtain ⟨hoperation, hparts, hevidence⟩ := reduceTransition_keeps hretires hreduce
  exact ⟨hoperation, hparts, hevidence⟩

/-- A retirement leaves no operation, every other event at most one edge behind. -/
theorem apply_state (h : snapshot.apply event = .ok candidate)
    (hoperation : operation ∈ snapshot.operation) (hnext : next ∈ candidate.operation) :
    next.state = operation.state ∨ operation.state.canTransitionTo next.state = true := by
  by_cases hretires : event.transition.Retires
  · obtain ⟨reduced, hreduce, rfl, -⟩ := apply_eq_ok h
    have hreduces := reduceTransition_reduces hreduce
    rw [Option.mem_def.1 hoperation, Option.mem_def.1 hnext] at hreduces
    -- A retired operation is no longer there.
    generalize event.transition = transition at hretires hreduces
    cases hreduces with
    | launched => exact hretires.elim
    | observed => exact hretires.elim
    | neutral hneutral => cases transition <;> first | exact hretires.elim | exact hneutral.elim
  · obtain ⟨next', hnext', hfollows⟩ := (apply_keeps hretires h).operation operation hoperation
    obtain rfl := Option.some.inj (hnext'.symm.trans hnext)
    exact hfollows.state.imp_left And.left

theorem apply_launched {notBeforeMs updatedAtMs : ℤ} (h : snapshot.apply event = .ok candidate)
    (htransition : event.transition = .mutationLaunched notBeforeMs updatedAtMs) :
    ∃ operation ∈ snapshot.operation, operation.state.isTerminal = false := by
  obtain ⟨reduced, hreduce, -, -⟩ := apply_eq_ok h
  simp only [reduceTransition, htransition] at hreduce
  obtain ⟨operation, next, hsome, hnext, -⟩ := updateOperation_eq_ok hreduce
  exact ⟨operation, hsome, (reduceMutationLaunched_eq_ok hnext).1⟩

end Event

/-! ### Any number of events -/

theorem OperationRecord.Stable.refl (operation : OperationRecord) : operation.Stable operation :=
  ⟨.refl, fun h => ⟨h, rfl⟩, fun h => h, fun _ _ => rfl, fun bound hbound => ⟨bound, hbound, le_rfl⟩⟩

/-- Nothing leads back to where the expected output may change. -/
theorem OperationState.not_editable_of_edge {state next : OperationState}
    (h : state.canTransitionTo next = true) (hintent : state ≠ .intent) (hopen : state ≠ .open) :
    next ≠ .intent ∧ next ≠ .open := by
  cases state <;> cases next <;> simp_all [OperationState.canTransitionTo]

theorem OperationRecord.Stable.step {operation later next : OperationRecord}
    (h : operation.Stable later) (hnext : later.Follows next) : operation.Stable next := by
  have hterminal : later.state.isTerminal = true →
      next.state = later.state ∧ next.committed = later.committed := fun hterminal =>
    hnext.state.resolve_right (by simp [OperationState.isTerminal_iff.1 hterminal next.state])
  refine ⟨?_, fun hcommitted => ?_, fun haborted => ?_, fun hintent hopen => ?_, fun bound hbound => ?_⟩
  · rcases hnext.state with ⟨hsame, -⟩ | hedge
    · rw [hsame]
      exact h.state
    · exact h.state.tail hedge
  · obtain ⟨hstate, hmeta⟩ := h.committed hcommitted
    obtain ⟨hstate', hmeta'⟩ := hterminal (by rw [hstate]; rfl)
    exact ⟨hstate'.trans hstate, hmeta'.trans hmeta⟩
  · have hstate := h.aborted haborted
    exact (hterminal (by rw [hstate]; rfl)).1.trans hstate
  · have hleft : later.state ≠ .intent ∧ later.state ≠ .open := by
      refine h.state.rec (motive := fun state _ => state ≠ .intent ∧ state ≠ .open)
        ⟨hintent, hopen⟩ ?_
      intro state next _ hedge hleft
      exact OperationState.not_editable_of_edge hedge hleft.1 hleft.2
    have hsame := hnext.expected.resolve_right fun hor => hor.elim hleft.1 hleft.2
    exact hsame.trans (h.expected hintent hopen)
  · obtain ⟨bound', hbound', hle⟩ := h.notBefore bound hbound
    obtain ⟨bound'', hbound'', hle'⟩ := hnext.notBefore bound' hbound'
    exact ⟨bound'', hbound'', hle.trans hle'⟩

theorem keeps_stable {snapshot later : FileOperationSnapshotV1} {events : List FileOperationEventV1}
    (hretires : ∀ event ∈ events, ¬event.transition.Retires)
    (h : events.foldlM FileOperationSnapshotV1.apply snapshot = .ok later) :
    snapshot.Keeps OperationRecord.Stable later := by
  induction events using List.reverseRecOn generalizing later with
  | nil =>
      obtain rfl := Except.ok.inj h
      exact ⟨fun operation hmem => ⟨operation, hmem, .refl _⟩, List.Sublist.refl _, List.prefix_rfl⟩
  | append_singleton events event ih =>
      obtain ⟨middle, hmiddle, hlast⟩ := foldlM_concat_eq_ok.1 h
      obtain ⟨hoperation, hparts, hevidence⟩ := ih
        (fun event hmem => hretires event (List.mem_append_left _ hmem)) hmiddle
      have hnext := apply_keeps (hretires event (by simp)) hlast
      refine ⟨fun operation hmem => ?_, hparts.trans hnext.parts, hevidence.trans hnext.evidence⟩
      obtain ⟨operation', hmem', hstable⟩ := hoperation operation hmem
      obtain ⟨operation'', hmem'', hfollows⟩ := hnext.operation operation' hmem'
      exact ⟨operation'', hmem'', hstable.step hfollows⟩

theorem validate_foldlM {snapshot later : FileOperationSnapshotV1}
    {events : List FileOperationEventV1} (hvalid : validateSnapshot snapshot = .ok ())
    (h : events.foldlM FileOperationSnapshotV1.apply snapshot = .ok later) :
    validateSnapshot later = .ok () :=
  foldlM_preserves (I := fun snapshot => validateSnapshot snapshot = .ok ()) h
    (fun _ _ _ _ _ happly => (apply_eq_ok happly).choose_spec.2.2) hvalid

/-- Cut the events that `apply` accepts at two places. The snapshot at the first can be
loaded and continued, and up to the second the record is stable unless it is retired;
one event moves the state along one edge at most, and launches no mutation of a
finished operation. -/
theorem operation_records_stable {before middle after : List FileOperationEventV1}
    {final : FileOperationSnapshotV1}
    (h : (before ++ middle ++ after).foldlM FileOperationSnapshotV1.apply {} = .ok final) :
    ∃ snapshot later : FileOperationSnapshotV1,
      before.foldlM FileOperationSnapshotV1.apply {} = .ok snapshot ∧
      middle.foldlM FileOperationSnapshotV1.apply snapshot = .ok later ∧
      (snapshot.fromSnapshot >>= fun loaded =>
        (middle ++ after).foldlM FileOperationSnapshotV1.apply loaded) = .ok final ∧
      ((∀ event ∈ middle, ¬event.transition.Retires) →
        snapshot.Keeps OperationRecord.Stable later) ∧
      ∀ event, middle = [event] →
        (∀ operation ∈ snapshot.operation, ∀ next ∈ later.operation,
          next.state = operation.state ∨ operation.state.canTransitionTo next.state = true) ∧
        ∀ notBeforeMs updatedAtMs, event.transition = .mutationLaunched notBeforeMs updatedAtMs →
          ∃ operation ∈ snapshot.operation, operation.state.isTerminal = false := by
  obtain ⟨later, hlater, hafter⟩ := foldlM_append_eq_ok.1 h
  obtain ⟨snapshot, hbefore, hmiddle⟩ := foldlM_append_eq_ok.1 hlater
  refine ⟨snapshot, later, hbefore, hmiddle, ?_, fun hretires => keeps_stable hretires hmiddle, ?_⟩
  · have hvalid : validateSnapshot snapshot = .ok () := validate_foldlM rfl hbefore
    simp only [FileOperationSnapshotV1.fromSnapshot, hvalid, ok_bind]
    exact foldlM_append_eq_ok.2 ⟨later, hmiddle, hafter⟩
  · rintro event rfl
    have happly : snapshot.apply event = .ok later := by simpa using hmiddle
    exact ⟨fun operation hoperation next hnext => apply_state happly hoperation hnext,
      fun _ _ htransition => apply_launched happly htransition⟩

/-- The events of a multipart publication, with a second launch before it commits. -/
def sampleEvents (operation : OperationRecord) : List FileOperationEventV1 :=
  ([.intentInserted operation, .opened (some "upload") 2, .mutationLaunched 500 3,
    .partRecorded ⟨operation.id, 1, "etag", 5, "digest", 4⟩, .stateChanged .open .completing none 5,
    .mutationLaunched 400 6, .stateChanged .completing .committed (some {}) 7] :
      List FileOperationTransitionV1).mapIdx fun index transition =>
    ⟨schemaVersion, index + 1, operation.id, transition⟩

def stableIntent : OperationRecord :=
  .newIntent 1 1 ⟨"backend", "bucket", "key", "key", none⟩ {}

/-- Between its first part and its commit the operation keeps the later of the two bounds. -/
theorem operation_records_stable_sample : ∃ snapshot later : FileOperationSnapshotV1,
    ((sampleEvents stableIntent).take 4).foldlM FileOperationSnapshotV1.apply {} = .ok snapshot ∧
      (((sampleEvents stableIntent).drop 4).take 2).foldlM FileOperationSnapshotV1.apply snapshot =
        .ok later ∧
      snapshot.operation.map OperationRecord.mutationNotBeforeMs = some (some 500) ∧
      snapshot.Keeps OperationRecord.Stable later := by
  have hrun : ((sampleEvents stableIntent).foldlM FileOperationSnapshotV1.apply {}).isOk = true := by
    decide +kernel
  obtain ⟨final, hfinal⟩ : ∃ final,
      (sampleEvents stableIntent).foldlM FileOperationSnapshotV1.apply {} = .ok final := by
    cases h : (sampleEvents stableIntent).foldlM FileOperationSnapshotV1.apply {} with
    | ok final => exact ⟨final, rfl⟩
    | error => simp [h, Except.isOk, Except.toBool] at hrun
  have hcut : sampleEvents stableIntent = (sampleEvents stableIntent).take 4 ++
      ((sampleEvents stableIntent).drop 4).take 2 ++ (sampleEvents stableIntent).drop 6 := rfl
  rw [hcut] at hfinal
  obtain ⟨snapshot, later, hsnapshot, hlater, -, hstable, -⟩ := operation_records_stable hfinal
  refine ⟨snapshot, later, hsnapshot, hlater, ?_, hstable ?_⟩
  · have hbound : (((sampleEvents stableIntent).take 4).foldlM FileOperationSnapshotV1.apply
        {}).toOption.map (fun snapshot => snapshot.operation.map OperationRecord.mutationNotBeforeMs) =
        some (some (some 500)) := by decide +kernel
    rw [hsnapshot] at hbound
    exact Option.some.inj hbound
  · intro event hmem
    simp only [sampleEvents, List.mapIdx_cons, List.mapIdx_nil, List.drop_succ_cons, List.drop_zero,
      List.take_succ_cons, List.take_zero, List.mem_cons, List.not_mem_nil, or_false] at hmem
    rcases hmem with rfl | rfl <;> exact id

end Maskura.Transaction
