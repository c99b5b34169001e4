import Maskura.Lib.Timeline
import Maskura.Transaction.Durable

/-!
Exact absence. A reconciler that finds no object of an operation at the
provider reports it with `confirm_exact_absence`. The first report is
recorded, a later one is confirmed; a mutation launched in between discards
the record. The theorem here is about whole runs of the journal, with any
calls on any operations, appends that fail or whose outcome is unknown,
reloads and restarts in between.
-/

namespace Maskura.Transaction

open Maskura.Lib
open Maskura.Multipart (Uuid)

/-! ### Launches, observations and insertions in a run -/

/-- The call left an event on disk, whatever it answered. -/
def Stored (journal : FileOperationJournal) (exchange : Exchange) : Prop :=
  (journal.serve exchange).2.disk ≠ journal.disk

/-- A launch that was accepted, or that is on disk although it was not. -/
def Launches (operationId : Uuid) (notBeforeMs : ℤ) (journal : FileOperationJournal)
    (exchange : Exchange) : Prop :=
  exchange.call = .recordMutationLaunch operationId notBeforeMs ∧
    ((journal.serve exchange).1 = .ok () ∨ Stored journal exchange)

/-- A report of absence that was recorded. -/
def Observes (operationId : Uuid) (observedAtMs : ℤ) (journal : FileOperationJournal)
    (exchange : Exchange) : Prop :=
  (∃ separation, exchange.call = .confirmExactAbsence operationId observedAtMs separation) ∧
    Stored journal exchange

/-- An insertion of the operation that was recorded. -/
def Inserts (operation : OperationRecord) (journal : FileOperationJournal)
    (exchange : Exchange) : Prop :=
  exchange.call = .insertIntent operation ∧ Stored journal exchange

/-- All that a call can do to the absence record of an operation. -/
inductive Change (watched : Uuid) (journal : FileOperationJournal) (exchange : Exchange) :
    Option OperationRecord → Option OperationRecord → Prop
  | kept {before after : Option OperationRecord}
      (habsence : after.map (·.absence) = before.map (·.absence))
      (hlaunches : ∀ notBeforeMs, ¬Launches watched notBeforeMs journal exchange)
      (hinserts : ∀ operation, operation.id = watched → ¬Inserts operation journal exchange) :
      Change watched journal exchange before after
  | inserted {operation : OperationRecord} (hid : operation.id = watched)
      (hinserts : Inserts operation journal exchange) :
      Change watched journal exchange none (some operation)
  | launched {operation next : OperationRecord} {notBeforeMs : ℤ}
      (hlaunches : Launches watched notBeforeMs journal exchange)
      (habsence : next.absence =
        (some (max (operation.mutationNotBeforeMs.getD i64Min) notBeforeMs), none)) :
      Change watched journal exchange (some operation) (some next)
  | observed {operation next : OperationRecord} {observedAtMs : ℤ}
      (hobserves : Observes watched observedAtMs journal exchange)
      (hlate : ¬FileOperationJournal.ObservedTooEarly operation observedAtMs)
      (habsence : next.absence = (operation.mutationNotBeforeMs, some observedAtMs)) :
      Change watched journal exchange (some operation) (some next)
  | retired {operation : OperationRecord}
      (hcall : ∃ state reference, exchange.call = .retireTerminal watched state reference) :
      Change watched journal exchange (some operation) none

/-- A call that neither launches nor inserts the operation. -/
def Call.Quiet (watched : Uuid) : Call → Prop
  | .recordMutationLaunch operationId _ => operationId ≠ watched
  | .insertIntent operation => operation.id ≠ watched
  | _ => True

namespace FileOperationJournal

variable {journal next : FileOperationJournal} {exchange : Exchange} {watched operationId : Uuid}
  {transition : FileOperationTransitionV1}

/-- A quiet call that keeps the absence record of the operation. -/
theorem change_kept (hquiet : exchange.call.Quiet watched)
    (hkept : AbsenceKept journal.disk next.disk watched) :
    Change watched journal exchange (diskOperation journal.disk watched)
      (diskOperation next.disk watched) := by
  refine .kept hkept (fun notBeforeMs hlaunches => ?_) fun operation hid hinserts => ?_
  · rw [hlaunches.1] at hquiet
    exact hquiet rfl
  · rw [hinserts.1] at hquiet
    exact hquiet hid

/-- A call that appends a neutral event. -/
theorem Coherent.change_append (h : journal.Coherent) (htransition : transition.Neutral)
    (hquiet : exchange.call.Quiet watched) :
    (journal.appendTransition exchange.env operationId transition).2.Coherent ∧
      Change watched journal exchange (diskOperation journal.disk watched)
        (diskOperation (journal.appendTransition exchange.env operationId transition).2.disk
          watched) := by
  obtain ⟨hcoherent, hkept⟩ := h.append_neutral (Prod.mk.eta (p := journal.appendTransition
    exchange.env operationId transition)).symm htransition
  exact ⟨hcoherent, change_kept hquiet (hkept watched)⟩

/-- Nothing changes for an operation where nothing is stored. -/
theorem absenceKept_of_disk (hdisk : next.disk = journal.disk) (watched : Uuid) :
    AbsenceKept journal.disk next.disk watched := by
  rw [AbsenceKept, hdisk]

/-- An event that is stored changes its own operation, and no other one. -/
theorem Stores.change (hstores : journal.Stores next operationId transition) (h : journal.Coherent)
    (hquiet : operationId ≠ watched → exchange.call.Quiet watched)
    (hown : ∀ {before after}, diskOperation journal.disk operationId = before →
      Reduces transition before after → Change operationId journal exchange before after) :
    Change watched journal exchange (diskOperation journal.disk watched)
      (diskOperation next.disk watched) := by
  obtain ⟨hreduces, hother⟩ := hstores.reduces h
  by_cases hid : operationId = watched
  · subst hid
    exact hown rfl hreduces
  · refine change_kept (hquiet hid) ?_
    rw [AbsenceKept, hother watched (Ne.symm hid)]

section Calls

variable {env : Environment}

theorem Coherent.change_insertIntent {operation : OperationRecord} (h : journal.Coherent) :
    (journal.insertIntent env operation).2.Coherent ∧
      Change watched journal ⟨.insertIntent operation, env⟩ (diskOperation journal.disk watched)
        (diskOperation (journal.insertIntent env operation).2.disk watched) := by
  obtain ⟨hcoherent, hdisk | hstores⟩ := h.insertIntent
    (Prod.mk.eta (p := journal.insertIntent env operation)).symm
  · refine ⟨hcoherent, .kept (absenceKept_of_disk hdisk watched) (fun _ hl => nomatch hl.1) ?_⟩
    exact fun _ _ hinserts => hinserts.2 hdisk
  · refine ⟨hcoherent, hstores.change h id fun _ hreduces => ?_⟩
    cases hreduces with
    | inserted => exact .inserted rfl ⟨rfl, hstores.disk_ne⟩
    | neutral hneutral => exact hneutral.elim

theorem Coherent.change_recordMutationLaunch {notBeforeMs : ℤ} (h : journal.Coherent) :
    (journal.recordMutationLaunch env operationId notBeforeMs).2.Coherent ∧
      Change watched journal ⟨.recordMutationLaunch operationId notBeforeMs, env⟩
        (diskOperation journal.disk watched)
        (diskOperation (journal.recordMutationLaunch env operationId notBeforeMs).2.disk
          watched) := by
  obtain ⟨hcoherent, ⟨hdisk, hresult⟩ | hstores⟩ := h.appendTransition
    (Prod.mk.eta (p := journal.recordMutationLaunch env operationId notBeforeMs)).symm
  · refine ⟨hcoherent, .kept (absenceKept_of_disk hdisk watched) ?_ fun _ _ hi => nomatch hi.1⟩
    -- a launch that stored nothing was not accepted either
    exact fun _ hlaunches => hlaunches.2.elim hresult fun hstored => hstored hdisk
  · refine ⟨hcoherent, hstores.change h id fun _ hreduces => ?_⟩
    cases hreduces with
    | launched habsence => exact .launched ⟨rfl, .inr hstores.disk_ne⟩ habsence
    | neutral hneutral => exact hneutral.elim

theorem checkAbsence_eq_ok {observedAtMs separation : ℤ} {operation : OperationRecord}
    (hcheck : journal.checkAbsence operationId observedAtMs separation = .ok operation) :
    0 ≤ separation ∧ journal.poisoned = none ∧
      journal.operation? operationId = some operation := by
  simp only [checkAbsence, checkedTimestamp, bind_eq_ok, rejectIf_eq_ok, ensureHealthy_eq_ok,
    okOr_eq_ok, exists_const, not_lt] at hcheck
  exact hcheck.2

theorem Coherent.change_confirmExactAbsence {observedAtMs separation : ℤ} (h : journal.Coherent) :
    (journal.confirmExactAbsence env operationId observedAtMs separation).2.Coherent ∧
      Change watched journal ⟨.confirmExactAbsence operationId observedAtMs separation, env⟩
        (diskOperation journal.disk watched)
        (diskOperation (journal.confirmExactAbsence env operationId observedAtMs separation).2.disk
          watched) := by
  have hsame : Change watched journal ⟨.confirmExactAbsence operationId observedAtMs separation, env⟩
      (diskOperation journal.disk watched) (diskOperation journal.disk watched) :=
    change_kept trivial rfl
  unfold confirmExactAbsence
  split
  · exact ⟨h, hsame⟩
  next operation hcheck =>
  obtain ⟨-, hpoisoned, hoperation⟩ := checkAbsence_eq_ok hcheck
  rw [h.operation? hpoisoned] at hoperation
  split
  · exact ⟨h, hsame⟩
  next hlate =>
  split
  · exact ⟨h, hsame⟩
  next hunobserved =>
  obtain ⟨hcoherent, ⟨hdisk, -⟩ | hstores⟩ := h.appendTransition
    (Prod.mk.eta (p := journal.appendTransition env operationId
      (.exactAbsenceObserved observedAtMs env.now))).symm
  · exact ⟨hcoherent, change_kept trivial (absenceKept_of_disk hdisk watched)⟩
  · refine ⟨hcoherent, hstores.change h (fun _ => trivial) fun hbefore hreduces => ?_⟩
    have hstored : Stored journal
        ⟨.confirmExactAbsence operationId observedAtMs separation, env⟩ := by
      simp only [Stored, FileOperationJournal.serve, answered, confirmExactAbsence, hcheck,
        if_neg hlate, hunobserved]
      exact hstores.disk_ne
    rw [hoperation] at hbefore
    subst hbefore
    cases hreduces with
    | observed habsence => exact .observed ⟨⟨separation, rfl⟩, hstored⟩ hlate habsence
    | neutral hneutral => exact hneutral.elim

theorem Coherent.change_retireTerminal {state : OperationState} {reference : Option String}
    (h : journal.Coherent) :
    (journal.retireTerminal env operationId state reference).2.Coherent ∧
      Change watched journal ⟨.retireTerminal operationId state reference, env⟩
        (diskOperation journal.disk watched)
        (diskOperation (journal.retireTerminal env operationId state reference).2.disk
          watched) := by
  obtain ⟨hcoherent, ⟨hdisk, -⟩ | hstores⟩ := h.appendTransition
    (Prod.mk.eta (p := journal.retireTerminal env operationId state reference)).symm
  · exact ⟨hcoherent, change_kept trivial (absenceKept_of_disk hdisk watched)⟩
  · refine ⟨hcoherent, hstores.change h (fun _ => trivial) fun _ hreduces => ?_⟩
    cases hreduces with
    | retired => exact .retired ⟨state, reference, rfl⟩
    | neutral hneutral => exact hneutral.elim

end Calls

/-- What one call can do, for every call. -/
theorem Coherent.serve (h : journal.Coherent) (exchange : Exchange) (watched : Uuid) :
    (journal.serve exchange).2.Coherent ∧
      Change watched journal exchange (diskOperation journal.disk watched)
        (diskOperation (journal.serve exchange).2.disk watched) := by
  obtain ⟨call, env⟩ := exchange
  cases call with
  | insertIntent operation => exact h.change_insertIntent
  | recordMutationLaunch operationId notBeforeMs => exact h.change_recordMutationLaunch
  | confirmExactAbsence operationId observedAtMs separation => exact h.change_confirmExactAbsence
  | retireTerminal operationId state reference => exact h.change_retireTerminal
  | setOpen | compareAndSetClientMultipartUploadReference | setExpected | transition | recordPart
  | appendEvidence =>
      exact h.change_append trivial trivial
  | get | parts | evidence =>
      exact ⟨h, change_kept trivial rfl⟩
  | claimReconcilable owner staleBeforeMs leaseUntilMs limit =>
      have hkept : (journal.claimReconcilable env owner staleBeforeMs leaseUntilMs limit).2.Coherent ∧
          AbsenceKept journal.disk
            (journal.claimReconcilable env owner staleBeforeMs leaseUntilMs limit).2.disk
            watched := by
        unfold claimReconcilable
        split
        · exact ⟨h, rfl⟩
        · obtain ⟨hcoherent, hkept⟩ := h.claimEach Prod.mk.eta.symm
          exact ⟨hcoherent, hkept watched⟩
      exact ⟨hkept.1, change_kept trivial hkept.2⟩
  | claimReconcilableOperation operationId owner staleBeforeMs leaseUntilMs =>
      have hkept : (journal.claimReconcilableOperation env operationId owner staleBeforeMs
            leaseUntilMs).2.Coherent ∧
          AbsenceKept journal.disk (journal.claimReconcilableOperation env operationId owner
            staleBeforeMs leaseUntilMs).2.disk watched := by
        unfold claimReconcilableOperation
        split
        · exact ⟨h, rfl⟩
        split
        · exact ⟨h, rfl⟩
        split
        · obtain ⟨hcoherent, hkept⟩ := h.append_neutral
            (Prod.mk.eta (p := journal.appendTransition env operationId
              (.claimed owner leaseUntilMs))).symm trivial
          exact ⟨hcoherent, hkept watched⟩
        · exact ⟨h, rfl⟩
      exact ⟨hkept.1, change_kept trivial hkept.2⟩
  | reopen reload =>
      obtain ⟨hcoherent, hdisk⟩ := Coherent.reloadAfterUnknown _ h.readable reload
      exact ⟨hcoherent, change_kept trivial (absenceKept_of_disk hdisk watched)⟩

end FileOperationJournal

/-! ### Confirmed absence -/

/-- The journal behind the calls of a run that starts on an empty directory. -/
def journalAfter (run : List Exchange) : FileOperationJournal :=
  Timeline.after (fun journal exchange => (journal.serve exchange).2) {} run

/-- Call `k` of the run has the property, on the journal that met it. -/
def AtCall (P : FileOperationJournal → Exchange → Prop) (run : List Exchange) (k : ℕ) : Prop :=
  Timeline.At (fun journal exchange => (journal.serve exchange).2) {} P run k

/-- No insertion of the operation is recorded behind call `k`. -/
def SinceInsertion (operationId : Uuid) (run : List Exchange) (k : ℕ) : Prop :=
  ∀ n operation, k < n → operation.id = operationId → ¬AtCall (Inserts operation) run n

/-- The absence at `observedAtMs` entered the record at call `k`, by a report
or with the record itself. -/
def RecordedAt (operationId : Uuid) (observedAtMs : ℤ) (run : List Exchange) (k : ℕ) : Prop :=
  AtCall (Observes operationId observedAtMs) run k ∨
    ∃ operation : OperationRecord, operation.id = operationId ∧
      operation.exactAbsenceObservedAtMs = some observedAtMs ∧ AtCall (Inserts operation) run k

/-- An absence that still counts: nothing was launched since it was recorded
and it is no earlier than any launch of the operation allows. -/
structure CountsAt (operationId : Uuid) (observedAtMs : ℤ) (run : List Exchange) (k : ℕ) :
    Prop where
  recorded : RecordedAt operationId observedAtMs run k
  current : SinceInsertion operationId run k
  unlaunched : ∀ m notBeforeMs, k < m → ¬AtCall (Launches operationId notBeforeMs) run m
  late : ∀ m notBeforeMs, AtCall (Launches operationId notBeforeMs) run m →
    SinceInsertion operationId run m → notBeforeMs ≤ observedAtMs

/-- What the record of an operation says about the run that led to it. -/
structure Watched (operationId : Uuid) (run : List Exchange) (absence : Option ℤ × Option ℤ) :
    Prop where
  launches : ∀ m notBeforeMs, AtCall (Launches operationId notBeforeMs) run m →
    SinceInsertion operationId run m → ∃ bound ∈ absence.1, notBeforeMs ≤ bound
  observed : ∀ observedAtMs ∈ absence.2, ∃ k, CountsAt operationId observedAtMs run k

section Watched

variable {operationId : Uuid} {run : List Exchange} {exchange : Exchange} {k : ℕ}
  {absence : Option ℤ × Option ℤ}

/-- What was true since an index of the longer run was true of the shorter. -/
theorem SinceInsertion.of_concat (h : SinceInsertion operationId (run ++ [exchange]) k) :
    SinceInsertion operationId run k :=
  fun n operation hn hid hat => h n operation hn hid hat.concat

theorem SinceInsertion.concat (h : SinceInsertion operationId run k)
    (hinserts : ∀ operation : OperationRecord, operation.id = operationId →
      ¬Inserts operation (journalAfter run) exchange) :
    SinceInsertion operationId (run ++ [exchange]) k :=
  fun n operation hn hid hat =>
    h n operation hn hid ((Timeline.at_concat_of_not (hinserts operation hid)).mp hat)

theorem CountsAt.concat {observedAtMs : ℤ} (h : CountsAt operationId observedAtMs run k)
    (hlaunches : ∀ notBeforeMs, ¬Launches operationId notBeforeMs (journalAfter run) exchange)
    (hinserts : ∀ operation : OperationRecord, operation.id = operationId →
      ¬Inserts operation (journalAfter run) exchange) :
    CountsAt operationId observedAtMs (run ++ [exchange]) k where
  recorded := h.recorded.imp Timeline.At.concat fun ⟨operation, hid, hsome, hat⟩ =>
    ⟨operation, hid, hsome, hat.concat⟩
  current := h.current.concat hinserts
  unlaunched m notBeforeMs hm hat :=
    h.unlaunched m notBeforeMs hm ((Timeline.at_concat_of_not (hlaunches notBeforeMs)).mp hat)
  late m notBeforeMs hat hsince :=
    h.late m notBeforeMs ((Timeline.at_concat_of_not (hlaunches notBeforeMs)).mp hat)
      hsince.of_concat

theorem Watched.kept (h : Watched operationId run absence)
    (hlaunches : ∀ notBeforeMs, ¬Launches operationId notBeforeMs (journalAfter run) exchange)
    (hinserts : ∀ operation : OperationRecord, operation.id = operationId →
      ¬Inserts operation (journalAfter run) exchange) :
    Watched operationId (run ++ [exchange]) absence where
  launches m notBeforeMs hat hsince :=
    h.launches m notBeforeMs ((Timeline.at_concat_of_not (hlaunches notBeforeMs)).mp hat)
      hsince.of_concat
  observed observedAtMs hmem := by
    obtain ⟨k, hcounts⟩ := h.observed observedAtMs hmem
    exact ⟨k, hcounts.concat hlaunches hinserts⟩

/-- Behind an insertion no launch counts yet. -/
theorem Watched.inserted {operation : OperationRecord} (hid : operation.id = operationId)
    (hinserts : Inserts operation (journalAfter run) exchange) :
    Watched operationId (run ++ [exchange]) operation.absence := by
  have hlast : AtCall (Inserts operation) (run ++ [exchange]) run.length := Timeline.At.last hinserts
  have hnone : ∀ m notBeforeMs, AtCall (Launches operationId notBeforeMs) (run ++ [exchange]) m →
      ¬SinceInsertion operationId (run ++ [exchange]) m := by
    intro m notBeforeMs hat hsince
    rcases Timeline.at_concat.mp hat with hat | ⟨-, hlaunches⟩
    · exact hsince run.length operation hat.lt hid hlast
    · exact absurd (hinserts.1.symm.trans hlaunches.1) fun hcall => nomatch hcall
  refine ⟨fun m notBeforeMs hat hsince => absurd hsince (hnone m notBeforeMs hat), ?_⟩
  intro observedAtMs hmem
  refine ⟨run.length, .inr ⟨operation, hid, hmem, hlast⟩, ?_, ?_, ?_⟩
  · intro n _ hn _ hat
    have hlt := Timeline.At.lt hat
    simp only [List.length_append, List.length_cons, List.length_nil] at hlt
    omega
  · intro m _ hm hat
    have hlt := Timeline.At.lt hat
    simp only [List.length_append, List.length_cons, List.length_nil] at hlt
    omega
  · exact fun m notBeforeMs hat hsince => absurd hsince (hnone m notBeforeMs hat)

theorem Watched.launched {bound notBeforeMs : ℤ} (h : Watched operationId run absence)
    (hlaunches : Launches operationId notBeforeMs (journalAfter run) exchange)
    (hbound : bound = max (absence.1.getD i64Min) notBeforeMs) :
    Watched operationId (run ++ [exchange]) (some bound, none) where
  launches m earlier hat hsince := by
    refine ⟨bound, rfl, ?_⟩
    rcases Timeline.at_concat.mp hat with hat | ⟨-, hlast⟩
    · obtain ⟨old, hold, hle⟩ := h.launches m earlier hat hsince.of_concat
      rw [Option.mem_def.mp hold, Option.getD_some] at hbound
      exact hle.trans (hbound ▸ le_max_left old notBeforeMs)
    · obtain ⟨-, rfl⟩ := Call.recordMutationLaunch.inj (hlaunches.1.symm.trans hlast.1)
      exact hbound ▸ le_max_right _ notBeforeMs
  observed _ hmem := nomatch hmem

theorem Watched.observes {observedAtMs : ℤ} (h : Watched operationId run absence)
    (hobserves : Observes operationId observedAtMs (journalAfter run) exchange)
    (hlate : ∀ bound ∈ absence.1, bound ≤ observedAtMs) :
    Watched operationId (run ++ [exchange]) (absence.1, some observedAtMs) := by
  obtain ⟨⟨separation, hcall⟩, -⟩ := id hobserves
  have hlaunches : ∀ notBeforeMs,
      ¬Launches operationId notBeforeMs (journalAfter run) exchange := fun _ hl =>
    absurd (hcall.symm.trans hl.1) fun h => nomatch h
  have hinserts : ∀ operation : OperationRecord, operation.id = operationId →
      ¬Inserts operation (journalAfter run) exchange := fun _ _ hi =>
    absurd (hcall.symm.trans hi.1) fun h => nomatch h
  have hkept := h.kept hlaunches hinserts
  refine ⟨hkept.launches, fun observed hmem => ⟨run.length, ?_⟩⟩
  obtain rfl : observedAtMs = observed := Option.some.inj hmem
  refine ⟨.inl (Timeline.At.last hobserves), ?_, ?_, ?_⟩
  · exact fun n _ hn _ hat => absurd (Timeline.At.lt hat) (by simp; omega)
  · exact fun m _ hm hat => absurd (Timeline.At.lt hat) (by simp; omega)
  · intro m notBeforeMs hat hsince
    obtain ⟨bound, hbound, hle⟩ := hkept.launches m notBeforeMs hat hsince
    exact hle.trans (hlate bound hbound)

end Watched

/-- In every run the journal is coherent, and the record it has on disk of an
operation accounts for the launches and reports of the run. -/
theorem journalAfter_watched (run : List Exchange) (operationId : Uuid) :
    (journalAfter run).Coherent ∧
      ∀ operation, diskOperation (journalAfter run).disk operationId = some operation →
        Watched operationId run operation.absence := by
  induction run using List.reverseRecOn with
  | nil =>
      refine ⟨⟨⟨∅, rfl⟩, fun _ => rfl⟩, fun operation hnone => ?_⟩
      have hempty : diskOperation [] operationId = none := by
        have hload : loadEntries [] = .ok ∅ := rfl
        rw [diskOperation_eq hload]
        simp
      exact absurd (hempty.symm.trans hnone) (by simp)
  | append_singleton run exchange ih =>
      obtain ⟨hcoherent, hwatched⟩ := ih
      obtain ⟨hnext, hchange⟩ := hcoherent.serve exchange operationId
      have hstep : journalAfter (run ++ [exchange]) = ((journalAfter run).serve exchange).2 :=
        Timeline.after_concat run exchange
      rw [hstep]
      refine ⟨hnext, ?_⟩
      revert hchange
      generalize diskOperation ((journalAfter run).serve exchange).2.disk operationId = after
      generalize hbefore : diskOperation (journalAfter run).disk operationId = before at hwatched ⊢
      rintro hchange operation rfl
      cases hchange with
      | kept habsence hlaunches hinserts =>
          obtain ⟨old, rfl, hold⟩ := Option.map_eq_some_iff.mp habsence.symm
          rw [show operation.absence = old.absence from hold.symm]
          exact (hwatched old rfl).kept hlaunches hinserts
      | inserted hid hinserts => exact .inserted hid hinserts
      | launched hlaunches habsence =>
          rw [habsence]
          exact (hwatched _ rfl).launched hlaunches rfl
      | observed hobserves hlate habsence =>
          rw [habsence]
          refine (hwatched _ rfl).observes hobserves fun bound hbound => ?_
          exact not_lt.mp fun hlt => hlate ⟨bound, hbound, hlt⟩

/-- A confirmed absence is sound, in every run of the journal. When
`confirm_exact_absence` answers true, an absence was recorded earlier, by a
report or with the inserted record; the two are at least the asked time
apart; no mutation of the operation was launched since; and both are no
earlier than any launch of the operation since its last insertion allows. -/
theorem confirm_exact_absence_sound (run : List Exchange) (env : Environment) (operationId : Uuid)
    (observedAtMs separation : ℤ)
    (h : ((journalAfter run).confirmExactAbsence env operationId observedAtMs separation).1 =
      .ok true) :
    ∃ k first, CountsAt operationId first run k ∧ separation ≤ observedAtMs - first ∧
      ∀ m notBeforeMs, AtCall (Launches operationId notBeforeMs) run m →
        SinceInsertion operationId run m → notBeforeMs ≤ observedAtMs := by
  obtain ⟨hcoherent, hwatched⟩ := journalAfter_watched run operationId
  unfold FileOperationJournal.confirmExactAbsence at h
  split at h
  · cases h
  next operation hcheck =>
  obtain ⟨hseparation, hpoisoned, hoperation⟩ := FileOperationJournal.checkAbsence_eq_ok hcheck
  rw [hcoherent.operation? hpoisoned] at hoperation
  have hwatch := hwatched operation hoperation
  split at h
  · cases h
  next hlate =>
  split at h
  · next first hfirst =>
    obtain ⟨k, hcounts⟩ := hwatch.observed first hfirst
    refine ⟨k, first, hcounts, ?_, fun m notBeforeMs hat hsince => ?_⟩
    · exact le_sub_of_le_saturatingSub hseparation (of_decide_eq_true (Except.ok.inj h))
    · obtain ⟨bound, hbound, hle⟩ := hwatch.launches m notBeforeMs hat hsince
      exact hle.trans (not_lt.mp fun hlt => hlate ⟨bound, hbound, hlt⟩)
  · -- a report that is recorded is never confirmed by the same call
    have hfalse : ∀ appended : Except JournalError Unit,
        (appended.map fun () => false) ≠ .ok true := by
      rintro (_ | _) hok <;> cases hok
    exact absurd h (hfalse _)

section Samples

def sampleOperationId : Uuid := 1

def sampleDestination : ObjectDestination where
  backendId := "direct"
  bucket := "bucket"
  logicalKey := "key"
  physicalKey := "key"

def sampleIntent : OperationRecord :=
  .newIntent sampleOperationId 0 sampleDestination {}

def sampleExchange (call : Call) : Exchange := ⟨call, { now := 1 }⟩

/-- A mutation is launched, and an absence is reported once it can no longer
commit. -/
def sampleRun : List Exchange :=
  [.insertIntent sampleIntent, .recordMutationLaunch sampleOperationId 10,
    .confirmExactAbsence sampleOperationId 20 5].map sampleExchange

theorem sample_confirm_exact_absence_sound :
    ((journalAfter sampleRun).confirmExactAbsence { now := 1 } sampleOperationId 30 5).1 =
        .ok true ∧
      ∃ k first, CountsAt sampleOperationId first sampleRun k ∧ 5 ≤ 30 - first ∧
        ∀ m notBeforeMs, AtCall (Launches sampleOperationId notBeforeMs) sampleRun m →
          SinceInsertion sampleOperationId sampleRun m → notBeforeMs ≤ 30 :=
  ⟨rfl, confirm_exact_absence_sound sampleRun { now := 1 } sampleOperationId 30 5 rfl⟩

/-- The record is inserted with an absence in it. -/
def presetRun : List Exchange :=
  [.insertIntent { sampleIntent with exactAbsenceObservedAtMs := some 5 }].map sampleExchange

/-- The operation is aborted and retired behind a launch, and inserted again
under its id. -/
def reinsertedRun : List Exchange :=
  [.insertIntent sampleIntent, .recordMutationLaunch sampleOperationId 100,
    .transition sampleOperationId .intent .aborting none,
    .transition sampleOperationId .aborting .provenAborted none,
    .retireTerminal sampleOperationId .provenAborted none,
    .insertIntent sampleIntent, .confirmExactAbsence sampleOperationId 10 5].map sampleExchange

/-- An absence is confirmed although none was reported before, and another
one before the time that an accepted launch of the same operation allows. -/
theorem absence_confirmed_without_report :
    (((journalAfter presetRun).confirmExactAbsence { now := 1 } sampleOperationId 10 5).1 =
        .ok true ∧
      ∀ k first, ¬AtCall (Observes sampleOperationId first) presetRun k) ∧
    ((journalAfter reinsertedRun).confirmExactAbsence { now := 1 } sampleOperationId 20 5).1 =
        .ok true ∧
      AtCall (Launches sampleOperationId 100) reinsertedRun 1 ∧ (20 : ℤ) < 100 := by
  refine ⟨⟨rfl, fun k first hat => ?_⟩, rfl, ⟨_, rfl, rfl, .inl rfl⟩, by decide⟩
  obtain ⟨exchange, hexchange, ⟨separation, hcall⟩, -⟩ := hat
  obtain rfl : exchange = sampleExchange
      (.insertIntent { sampleIntent with exactAbsenceObservedAtMs := some 5 }) :=
    List.mem_singleton.mp (List.mem_of_getElem? hexchange)
  cases hcall

end Samples

end Maskura.Transaction
