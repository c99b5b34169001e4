import Maskura.Multipart.Agreement
import Maskura.Multipart.Fencing

/-!
The file-backed repository over whole runs. Whatever writes of transitions fail, every
upload goes along the fenced commit protocol, and a restart finds it where it was.
-/

namespace Maskura.Multipart

open Maskura.Lib Maskura.Lib.FencedCommit

variable {ext : StoreExternals} {quotas : StagingQuotaLimits} {s t : StoreRun}
  {uploadId : String}

/-- The phase of an upload; one that is not there is fresh. -/
def StoreRun.phase (s : StoreRun) (uploadId : String) : UploadPhase :=
  (s.store.view[uploadId]?.getD {}).phase

/-- An event that is applied to one upload is a step of that upload alone. -/
theorem StoreRun.phase_insert {event : FileMultipartEventV1}
    {snapshot candidate : FileMultipartSnapshotV1}
    (hsnapshot : s.store.view[uploadId]?.getD {} = snapshot)
    (hvalid : validateSnapshot snapshot = .ok ())
    (happly : applyEvent ext.toExternals snapshot event = .ok candidate)
    (hview : ∀ other : String,
      t.store.view[other]? = (s.store.view.insert uploadId candidate)[other]?) (other : String) :
    t.phase other = s.phase other ∨ ∃ a, Step recordResult (s.phase other) a (t.phase other) := by
  simp only [phase, hview, FinMap.getElem?_insert_eq]
  split
  · next hother =>
      subst hother
      rw [hsnapshot]
      exact .inr ⟨_, applyEvent_step hvalid happly⟩
  · exact .inl rfl

/-- A call moves every upload by one step of the protocol at most. -/
theorem StoreRun.step_phase {action : StoreAction} (h : s.store.Inv ext s.issued)
    (hsafe : s.Safe action) (hstep : s.step ext action = some t) (uploadId : String) :
    t.phase uploadId = s.phase uploadId ∨
      ∃ a, Step recordResult (s.phase uploadId) a (t.phase uploadId) := by
  have hsame : (∀ other : String, t.store.view[other]? = s.store.view[other]?) →
      t.phase uploadId = s.phase uploadId := fun hview => by rw [phase, phase, hview]
  cases action with
  | create eventId upload =>
      simp only [StoreRun.step, Option.ite_none_left_eq_some, Option.some.injEq] at hstep
      obtain ⟨-, rfl⟩ := hstep
      obtain ⟨-, ⟨_, -, hview⟩ | ⟨event, candidate, hprepare, -, hview⟩⟩ :=
        h.createUpload eventId upload
      · exact .inl (hsame hview)
      · obtain ⟨-, hentry, hevent, -⟩ := prepareUpload_ok hprepare
        exact phase_insert (by rw [view_getElem?, hentry]; rfl) rfl hevent.applies hview uploadId
  | apply faults applied eventId transition =>
      simp only [StoreRun.step, Option.ite_none_left_eq_some, Option.some.injEq] at hstep
      obtain ⟨hnew, rfl⟩ := hstep
      cases hprepare : s.store.state.prepareEvent ext.toExternals applied eventId transition with
      | error error => exact .inl (hsame fun other => by
          simp only [FileMultipartStore.applyTransition, hprepare])
      | ok prepared =>
          obtain ⟨entry, event, candidate⟩ := prepared
          have hfresh : eventId ∉ s.issued := by simpa using hnew
          obtain ⟨_, _, p⟩ := h.prepared hfresh hprepare
          have houtcome := (h.applyTransition hfresh hsafe hprepare).2
          generalize (s.store.applyTransition ext faults applied eventId transition).1 = result
            at houtcome
          cases houtcome with
          | stored _ _ hview =>
              exact phase_insert (by rw [p.view, Option.getD_some])
                (h.viewQuotas.valid _ (List.mem_map_of_mem
                  (Std.TreeMap.mem_toList_iff_getElem?_eq_some.mpr p.view)))
                p.next.applies hview uploadId
          | failed _ hview => exact .inl (hsame hview)

/-- What the protocol preserves holds of an upload from then on. -/
theorem store_preserves_phase {P : UploadPhase → Prop}
    (hP : ∀ {p q : UploadPhase} {a : UploadAction}, P p → Step recordResult p a q → P q)
    (h : ((storeSystem ext quotas).restrict StoreRun.Safe).Reachable s)
    (hsteps : ((storeSystem ext quotas).restrict StoreRun.Safe).Steps s t)
    (hs : P (s.phase uploadId)) : P (t.phase uploadId) := by
  refine (hsteps.preserves (I := fun t => t.store.Inv ext t.issued ∧ P (t.phase uploadId)) ?_
    ⟨store_inv h, hs⟩).2
  rintro a action b ⟨ha, hpa⟩ ⟨hsafe, hstep⟩
  refine ⟨ha.step hsafe hstep, ?_⟩
  rcases StoreRun.step_phase ha hsafe hstep uploadId with heq | ⟨_, hphase⟩
  · rwa [heq]
  · exact hP hpa hphase

/-- A restart behind any run succeeds. It finds every upload where the protocol leads from
the phase it had at any earlier moment, and a commit that was recorded by then is still
the one of the upload. -/
theorem restart_follows_protocol
    (h : ((storeSystem ext quotas).restrict StoreRun.Safe).Reachable s)
    (hsteps : ((storeSystem ext quotas).restrict StoreRun.Safe).Steps s t) :
    ∃ entries root, loadEntries ext t.store.state.quotas t.store.root = (.ok entries, root) ∧
      ∀ (uploadId : String) (snapshot : FileMultipartSnapshotV1),
        (entries[uploadId]?.map fun entry => entry.reducer.snapshot).getD {} = snapshot →
        Relation.ReflTransGen (fun p q => ∃ a, Step recordResult p a q) (s.phase uploadId)
            snapshot.phase ∧
          ∀ record, (s.phase uploadId).Committed recordResult record →
            ∀ upload ∈ snapshot.upload,
              (upload.lifecycle = .publishing ∧ upload.destinationCommit = some record) ∨
                upload.lifecycle = .completed ∧ upload.completionResult = some record.result := by
  have hinv : t.store.Inv ext t.issued := store_inv (h.imp fun _ => And.imp_right (·.trans hsteps))
  obtain ⟨entries, root, hload, -, hview⟩ := hinv.rootHolds.loadEntries hinv.viewQuotas
  refine ⟨entries, root, hload, fun uploadId snapshot hsnapshot => ?_⟩
  rw [hview] at hsnapshot
  subst hsnapshot
  refine ⟨store_preserves_phase (fun hp h => hp.tail ⟨_, h⟩) h hsteps .refl,
    fun record hrecord upload hupload => ?_⟩
  have hcommitted := store_preserves_phase (fun hp h => hp.step h) h hsteps hrecord
  exact (committed_upload hcommitted hupload).imp_right fun h => ⟨h.1, h.2.1⟩

def publishActions (faults : WriteFaults) : List StoreAction :=
  sampleActions faults ++
    [.apply faults sampleIdentity.uploadId 5 (.destinationCommitBegun (samplePermit 1) 305),
      .apply faults sampleIdentity.uploadId 6
        (.destinationCommitRecorded (samplePermit 1) sampleRecord 400)]

def completeAction (faults : WriteFaults) : StoreAction :=
  .apply faults sampleIdentity.uploadId 7
    (.completionCompleted (samplePermit 1) sampleResult 410 86400410)

def sampleCommitted : UploadPhase :=
  .publishing (some "fingerprint") 1 (some sampleOperation) (some sampleRecord)

/-- The sample upload with its commit recorded, and completed, while appends have unknown
outcomes. -/
theorem sample_published : ∃ s t : StoreRun,
    ((storeSystem sampleStoreExternals sampleQuotas).restrict StoreRun.Safe).Reachable s ∧
      ((storeSystem sampleStoreExternals sampleQuotas).restrict StoreRun.Safe).Steps s t ∧
      s.phase sampleIdentity.uploadId = sampleCommitted ∧
      ((loadEntries sampleStoreExternals t.store.state.quotas t.store.root).1.toOption.bind
        fun entries => entries[sampleIdentity.uploadId]?.bind (·.reducer.snapshot.upload)).isSome := by
  have hrun : ((System.run (System.guarded StoreRun.Safe (StoreRun.step sampleStoreExternals))
      sampleStart (publishActions { append := some .appendSync })).bind fun s =>
        (System.run (System.guarded StoreRun.Safe (StoreRun.step sampleStoreExternals)) s
          [completeAction { append := some .appendSync }]).map fun t =>
            (s.phase sampleIdentity.uploadId,
              ((loadEntries sampleStoreExternals t.store.state.quotas t.store.root).1.toOption.bind
                fun entries => entries[sampleIdentity.uploadId]?.bind
                  (·.reducer.snapshot.upload)).isSome)) = some (sampleCommitted, true) := by
    decide +kernel
  obtain ⟨s, hs, hrest⟩ := Option.bind_eq_some_iff.mp hrun
  obtain ⟨t, ht, hfound⟩ := Option.map_eq_some_iff.mp hrest
  obtain ⟨hphase, hloaded⟩ := Prod.mk.inj hfound
  exact ⟨s, t, .run_guarded (.of_init (s := sampleStart) rfl) hs, System.Steps.run_guarded ht,
    hphase, hloaded⟩

theorem sample_restart_follows_protocol : ∃ s t : StoreRun,
    s.phase sampleIdentity.uploadId = sampleCommitted ∧ ∃ entries root entry upload,
      loadEntries sampleStoreExternals t.store.state.quotas t.store.root = (.ok entries, root) ∧
      entries[sampleIdentity.uploadId]? = some entry ∧
      entry.reducer.snapshot.upload = some upload ∧
      ((upload.lifecycle = .publishing ∧ upload.destinationCommit = some sampleRecord) ∨
        upload.lifecycle = .completed ∧ upload.completionResult = some sampleResult) := by
  obtain ⟨s, t, hreachable, hsteps, hphase, hloaded⟩ := sample_published
  obtain ⟨entries, root, hload, hfound⟩ := restart_follows_protocol hreachable hsteps
  rw [hload] at hloaded
  obtain ⟨upload, hupload⟩ := Option.isSome_iff_exists.mp hloaded
  change entries[sampleIdentity.uploadId]?.bind _ = some upload at hupload
  obtain ⟨entry, hentry, hupload⟩ := Option.bind_eq_some_iff.mp hupload
  refine ⟨s, t, hphase, entries, root, entry, upload, hload, hentry, hupload, ?_⟩
  have hrecord : (s.phase sampleIdentity.uploadId).Committed recordResult sampleRecord := by
    rw [hphase]
    rfl
  exact (hfound sampleIdentity.uploadId entry.reducer.snapshot (by rw [hentry]; rfl)).2
    sampleRecord hrecord upload hupload

/-- No call changes the limits. -/
theorem StoreRun.step_quotas {action : StoreAction} (hstep : s.step ext action = some t) :
    t.store.state.quotas = s.store.state.quotas := by
  cases action <;>
    simp only [StoreRun.step, Option.ite_none_left_eq_some, Option.some.injEq] at hstep <;>
    obtain ⟨-, rfl⟩ := hstep <;>
    simp only [FileMultipartStore.createUpload, FileMultipartStore.applyTransition,
      FileMultipartStore.compactUpload, FileMultipartStore.finish,
      FileMultipartStore.reloadAfterUnknown] <;>
    repeat' split
  all_goals rfl

/-- Whatever transitions fail, the uploads never outgrow the quotas. -/
theorem staging_within_quotas
    (h : ((storeSystem ext quotas).restrict StoreRun.Safe).Reachable s) :
    WithinQuotas quotas (snapshotsOf s.store.state.entries) := by
  have hquotas : s.store.state.quotas = quotas := by
    refine h.invariant (I := fun s : StoreRun => s.store.state.quotas = quotas) ?_ ?_
    · rintro _ rfl
      rfl
    · rintro a action b ha ⟨-, hstep⟩
      rw [StoreRun.step_quotas hstep, ha]
  exact hquotas ▸ (store_inv h).quotas

theorem sample_staging_within_quotas : ∃ s : StoreRun,
    s.phase sampleIdentity.uploadId = sampleCommitted ∧
      WithinQuotas sampleQuotas (snapshotsOf s.store.state.entries) := by
  obtain ⟨s, _, hreachable, -, hphase, -⟩ := sample_published
  exact ⟨s, hphase, staging_within_quotas hreachable⟩

end Maskura.Multipart
