import Maskura.Transaction.Absence
import Maskura.Transaction.Stability

/-!
What the journal answers about an operation, from one call to a later one. Calls fail, the
journal is loaded again and the process restarts, but the logs only grow. So an answer
stays true until a retirement of the operation is stored.
-/

namespace Maskura.Transaction

open Maskura.Lib
open Maskura.Multipart (Uuid)

/-- The state of an operation that the events of a disk reduce to. -/
def diskSnapshot (disk : List FileOperationEventV1) (operationId : Uuid) :
    FileOperationSnapshotV1 :=
  match loadEntries disk with
  | .ok entries => entries[operationId]?.getD {}
  | .error _ => {}

/-- A retirement of the operation that is on disk. -/
def Retirement (operationId : Uuid) (journal : FileOperationJournal) (exchange : Exchange) : Prop :=
  (∃ state reference, exchange.call = .retireTerminal operationId state reference) ∧
    Stored journal exchange

namespace FileOperationJournal

variable {journal next last : FileOperationJournal} {watched operationId : Uuid}
  {transition : FileOperationTransitionV1} {env : Environment}

/-- From one journal to a later one, the operation goes by events other than retirements. -/
def Reaches (watched : Uuid) (journal next : FileOperationJournal) : Prop :=
  ∃ events : List FileOperationEventV1, (∀ event ∈ events, ¬event.transition.Retires) ∧
    events.foldlM FileOperationSnapshotV1.apply (diskSnapshot journal.disk watched) =
      .ok (diskSnapshot next.disk watched)

theorem Reaches.of_disk (h : next.disk = journal.disk) : Reaches watched journal next :=
  ⟨[], List.forall_mem_nil _, by rw [h]; rfl⟩

theorem Reaches.trans (h : Reaches watched journal next) (h' : Reaches watched next last) :
    Reaches watched journal last := by
  obtain ⟨events, hretires, hevents⟩ := h
  obtain ⟨events', hretires', hevents'⟩ := h'
  exact ⟨events ++ events', List.forall_mem_append.mpr ⟨hretires, hretires'⟩,
    foldlM_append_eq_ok.mpr ⟨_, hevents, hevents'⟩⟩

/-- An event reduces on its operation and on no other. -/
theorem Stores.reaches (h : journal.Coherent)
    (hstores : journal.Stores next operationId transition)
    (hretires : watched = operationId → ¬transition.Retires) : Reaches watched journal next := by
  obtain ⟨event, _, candidate, rfl, rfl, rfl, happly, hdisk⟩ := hstores.reduced
  have hload := h.healthy hstores.poisoned
  have hstore := loadEntries_store hload happly
  rw [store, ← hdisk] at hstore
  by_cases hid : watched = event.operationId
  · refine ⟨[event], List.forall_mem_singleton.mpr (hretires hid), ?_⟩
    simp only [diskSnapshot, hload, hstore, hid, FinMap.getElem?_insert_eq, if_true,
      Option.getD_some]
    exact foldlM_cons_eq_ok.mpr ⟨_, happly, rfl⟩
  · refine ⟨[], List.forall_mem_nil _, ?_⟩
    simp only [diskSnapshot, hload, hstore, FinMap.getElem?_insert_of_ne _ _ (Ne.symm hid)]
    rfl

theorem Coherent.append_reaches (h : journal.Coherent)
    (hretires : watched = operationId → ¬transition.Retires) :
    Reaches watched journal (journal.appendTransition env operationId transition).2 := by
  obtain ⟨-, ⟨hdisk, -⟩ | hstores⟩ := h.appendTransition Prod.mk.eta.symm
  · exact .of_disk hdisk
  · exact hstores.reaches h hretires

theorem Coherent.claimEach_reaches (h : journal.Coherent) {owner : String} {leaseUntilMs : ℤ}
    {ids : List Uuid} {claimed : List OperationRecord} :
    Reaches watched journal
      (FileOperationJournal.claimEach env owner leaseUntilMs ids claimed journal).2 := by
  induction ids generalizing claimed journal with
  | nil => exact .of_disk rfl
  | cons id rest ih =>
      have hfirst : Reaches watched journal
          (journal.appendTransition env id (.claimed owner leaseUntilMs)).2 :=
        h.append_reaches fun _ h => h
      rw [FileOperationJournal.claimEach]
      split
      · next happend => rwa [happend] at hfirst
      · next happend =>
          rw [happend] at hfirst
          exact hfirst.trans (ih (h.append_neutral happend trivial).1)

/-- Only a retirement takes an operation back. -/
theorem Coherent.serve_reaches (h : journal.Coherent) (exchange : Exchange)
    (hretires : ¬Retirement watched journal exchange) :
    Reaches watched journal (journal.serve exchange).2 := by
  obtain ⟨call, env⟩ := exchange
  cases call with
  | insertIntent operation =>
      obtain ⟨-, hdisk | hstores⟩ :=
        h.insertIntent (Prod.mk.eta (p := journal.insertIntent env operation)).symm
      · exact .of_disk hdisk
      · exact hstores.reaches h fun _ h => h
  | get | parts | evidence => exact .of_disk rfl
  | setOpen | compareAndSetClientMultipartUploadReference | setExpected | transition | recordPart
  | appendEvidence | recordMutationLaunch => exact h.append_reaches fun _ h => h
  | retireTerminal operationId state reference =>
      by_cases hdisk : (journal.retireTerminal env operationId state reference).2.disk = journal.disk
      · exact .of_disk hdisk
      · exact h.append_reaches fun hid => absurd ⟨⟨state, reference, by rw [hid]⟩, hdisk⟩ hretires
  | confirmExactAbsence =>
      simp only [FileOperationJournal.serve, answered, confirmExactAbsence]
      repeat' split
      iterate 3 exact .of_disk rfl
      exact h.append_reaches fun _ h => h
  | claimReconcilable =>
      simp only [FileOperationJournal.serve, answered, claimReconcilable]
      split
      · exact .of_disk rfl
      · exact h.claimEach_reaches
  | claimReconcilableOperation =>
      simp only [FileOperationJournal.serve, answered, claimReconcilableOperation]
      repeat' split
      iterate 2 exact .of_disk rfl
      · exact h.append_reaches fun _ h => h
      · exact .of_disk rfl
  | reopen reload => exact .of_disk (Coherent.reloadAfterUnknown _ h.readable reload).2

end FileOperationJournal

/-- What the journal holds of an operation at one moment of a run stays true at every later
moment at which it answers, whatever is called, fails or is loaded again in between, as long
as no retirement of the operation is stored. -/
theorem answers_stay_true (run more : List Exchange) (operationId : Uuid)
    (hrun : (journalAfter run).poisoned = none)
    (hmore : (journalAfter (run ++ more)).poisoned = none)
    (hretires : ∀ k, run.length ≤ k → ¬AtCall (Retirement operationId) (run ++ more) k) :
    ((journalAfter run).entries[operationId]?.getD {}).Keeps OperationRecord.Stable
      ((journalAfter (run ++ more)).entries[operationId]?.getD {}) := by
  have hcoherent (run : List Exchange) := (journalAfter_watched run operationId).1
  have hreaches : FileOperationJournal.Reaches operationId (journalAfter run)
      (journalAfter (run ++ more)) := by
    clear hmore
    induction more using List.reverseRecOn with
    | nil => exact .of_disk (by rw [List.append_nil])
    | append_singleton more exchange ih =>
        rw [← List.append_assoc] at hretires ⊢
        have hlast : ¬Retirement operationId (journalAfter (run ++ more)) exchange := fun h =>
          hretires _ (by simp) (Timeline.At.last h)
        rw [show journalAfter (run ++ more ++ [exchange]) =
          ((journalAfter (run ++ more)).serve exchange).2 from Timeline.after_concat _ _]
        exact (ih fun k hk hat => hretires k hk hat.concat).trans
          ((hcoherent _).serve_reaches exchange hlast)
  obtain ⟨events, hevents, hfold⟩ := hreaches
  have hkeeps := keeps_stable hevents hfold
  simpa only [diskSnapshot, (hcoherent _).healthy hrun, (hcoherent _).healthy hmore] using hkeeps

/-- The sample operation is not retired while it is an intent. It is aborted behind its
launch, and the journal loaded again. -/
def abortedRun : List Exchange :=
  [.retireTerminal sampleOperationId .committed none,
    .transition sampleOperationId .intent .aborting none, .reopen .loaded].map sampleExchange

theorem sample_answers_stay_true :
    (journalAfter sampleRun).poisoned = none ∧
      (journalAfter (sampleRun ++ abortedRun)).poisoned = none ∧
      ((journalAfter sampleRun).entries[sampleOperationId]?.getD {}).Keeps OperationRecord.Stable
        ((journalAfter (sampleRun ++ abortedRun)).entries[sampleOperationId]?.getD {}) := by
  refine ⟨rfl, rfl, answers_stay_true sampleRun abortedRun sampleOperationId rfl rfl ?_⟩
  rintro k hk ⟨exchange, hexchange, ⟨state, reference, hcall⟩, hstored⟩
  obtain ⟨n, rfl⟩ := Nat.exists_eq_add_of_le hk
  rw [List.getElem?_append_right hk, Nat.add_sub_cancel_left] at hexchange
  -- the refused retirement stores nothing, and the other calls are none
  rcases n with _ | _ | _ | n
  · cases hexchange
    exact hstored rfl
  iterate 2
    · cases hexchange
      cases hcall
  · cases hexchange

end Maskura.Transaction
