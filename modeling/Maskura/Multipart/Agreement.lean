import Maskura.Multipart.Live

/-!
Runs of the live repository, and what a restart after any of them finds.
-/

namespace Maskura.Multipart

open Maskura.Lib Maskura.Persistence

/-! ### Runs -/

/-- A repository, and the event ids it was ever given. -/
structure StoreRun where
  store : FileMultipartStore
  issued : List Uuid := []

inductive StoreAction
  | create (eventId : Uuid) (upload : MultipartUpload)
  | apply (faults : WriteFaults) (uploadId : String) (eventId : Uuid)
      (transition : FileMultipartTransitionV1)

/-- One call of the repository. `Uuid::now_v7` never returns an id twice. -/
def StoreRun.step (ext : StoreExternals) (s : StoreRun) : StoreAction → Option StoreRun
  | .create eventId upload =>
      if s.issued.contains eventId then none
      else some ⟨(s.store.createUpload ext none eventId upload).2, eventId :: s.issued⟩
  | .apply faults uploadId eventId transition =>
      if s.issued.contains eventId then none
      else
        some ⟨(s.store.applyTransition ext faults uploadId eventId transition).2,
          eventId :: s.issued⟩

/-- The runs of a repository that starts with an empty directory. -/
def storeSystem (ext : StoreExternals) (quotas : StagingQuotaLimits) :
    System StoreRun StoreAction :=
  .ofStep (· = ⟨⟨{ quotas := quotas }, {}⟩, []⟩) (StoreRun.step ext)

def StoreRun.Safe (s : StoreRun) : StoreAction → Prop
  | .create _ _ => True
  | .apply faults uploadId _ _ => s.store.Safe faults uploadId

instance (store : FileMultipartStore) (faults : WriteFaults) (uploadId : String) :
    Decidable (store.Safe faults uploadId) :=
  inferInstanceAs (Decidable (∀ entry ∈ store.state.entries[uploadId]?,
    ∀ directory ∈ store.root[uploadId]?,
      entry.log.nextSequence + 1 < u64Bound ∧
        entry.log.nextSequence ≤ directory.snapshotSequence + maxReplayEvents ∧
        (splitsCompaction faults.snapshot faults.log = true →
          ∀ file ∈ directory.log, ∀ first ∈ file.frames.head?, first.sequence = 1)))

instance (s : StoreRun) : (action : StoreAction) → Decidable (s.Safe action)
  | .create _ _ => isTrue trivial
  | .apply faults uploadId _ _ => inferInstanceAs (Decidable (s.store.Safe faults uploadId))

/-- Every call keeps the repository in agreement with its directories. -/
theorem FileMultipartStore.Inv.step {ext : StoreExternals} {s t : StoreRun} {action : StoreAction}
    (h : s.store.Inv ext s.issued) (hsafe : s.Safe action) (hstep : s.step ext action = some t) :
    t.store.Inv ext t.issued := by
  cases action with
  | create eventId upload =>
      simp only [StoreRun.step] at hstep
      split at hstep
      · cases hstep
      · obtain rfl := Option.some.inj hstep
        exact (h.createUpload eventId upload).1
  | apply faults uploadId eventId transition =>
      simp only [StoreRun.step] at hstep
      split at hstep
      · cases hstep
      · next hnew =>
          obtain rfl := Option.some.inj hstep
          cases hprepare : s.store.state.prepareEvent ext.toExternals uploadId eventId
              transition with
          | error error =>
              have hsame : s.store.applyTransition ext faults uploadId eventId transition =
                  (.error (preMutation error), s.store) := by
                simp only [FileMultipartStore.applyTransition, hprepare]
              rw [hsame]
              exact h.mono (List.subset_cons_self _ _)
          | ok prepared =>
              obtain ⟨entry, event, candidate⟩ := prepared
              exact (h.applyTransition (by simpa using hnew) hsafe hprepare).1

theorem withinQuotas_nil (quotas : StagingQuotaLimits) : WithinQuotas quotas [] :=
  ⟨by simp, List.nodup_nil, by simp [usageOf, uploadsOf, FileMultipartQuotaUsage.Fits, u64Bound],
    fun _ => within_nil _, (within_nil _).1⟩

theorem store_inv {ext : StoreExternals} {quotas : StagingQuotaLimits} {s : StoreRun}
    (h : ((storeSystem ext quotas).restrict StoreRun.Safe).Reachable s) :
    s.store.Inv ext s.issued := by
  refine h.invariant (I := fun s : StoreRun => s.store.Inv ext s.issued) ?_ ?_
  · rintro _ rfl
    exact ⟨rfl, fun _ => .inl ⟨Std.TreeMap.getElem?_emptyc, Std.TreeMap.getElem?_emptyc⟩,
      withinQuotas_nil quotas⟩
  · rintro a action b ha ⟨hsafe, hstep⟩
    exact ha.step hsafe hstep

/-- In every run whose calls are all safe, loading the directories at any
time succeeds and finds exactly the snapshots that are in memory. -/
theorem reload_agrees {ext : StoreExternals} {quotas : StagingQuotaLimits} {s : StoreRun}
    (h : ((storeSystem ext quotas).restrict StoreRun.Safe).Reachable s) :
    ∃ entries root, loadEntries ext s.store.state.quotas s.store.root = (.ok entries, root) ∧
      ∀ uploadId : String, entries[uploadId]?.map (fun entry => entry.reducer.snapshot) =
        s.store.state.entries[uploadId]?.map (fun entry => entry.reducer.snapshot) := by
  have hinv := store_inv h
  obtain ⟨entries, root, hload, -, hview⟩ := hinv.rootHolds.loadEntries hinv.viewQuotas
  refine ⟨entries, root, hload, fun uploadId => ?_⟩
  rw [hview, view_getElem?]

/-! ### A sample store -/

def otherUploadId : String := "01926b5e-0000-7000-8000-000000000002"

/-- Texts for the sample upload: short ones in the place of the JSON, and two
ids of uploads as the only ones there are. -/
def sampleStoreExternals : StoreExternals where
  toExternals := sampleExternals
  eventVec event := some (beBytes 8 event.sequence)
  snapshotVec finalSequence _ := some (beBytes 8 finalSequence)
  parseUuid text :=
    if text = sampleIdentity.uploadId then some 0x01926b5e000070008000000000000001
    else if text = otherUploadId then some 0x01926b5e000070008000000000000002
    else none
  uuidText uuid :=
    if uuid = 0x01926b5e000070008000000000000001 then sampleIdentity.uploadId
    else if uuid = 0x01926b5e000070008000000000000002 then otherUploadId
    else ""

def sampleQuotas : StagingQuotaLimits := ⟨1000, 1000⟩

def sampleStart : StoreRun := ⟨⟨{ quotas := sampleQuotas }, {}⟩, []⟩

/-- The calls that create the sample upload and start its completion. -/
def sampleActions (faults : WriteFaults) : List StoreAction :=
  [.create 1 sampleUpload,
    .apply faults sampleIdentity.uploadId 2 (.partReserved samplePending 150),
    .apply faults sampleIdentity.uploadId 3 (.partCommitted samplePending samplePart 201),
    .apply faults sampleIdentity.uploadId 4
      (.completionAcquired "fingerprint" [⟨1, "etag-1", none⟩] "owner" 310 1 300)]

/-- The sample upload is found again after it was created, filled and
claimed, and after an append of unknown outcome on the way. -/
theorem sample_reload_agrees :
    ∃ s : StoreRun, (∃ entry, s.store.state.entries[sampleIdentity.uploadId]? = some entry ∧
        entry.reducer.snapshot.finalEventSequence = 4) ∧
      ∃ entries root,
        loadEntries sampleStoreExternals s.store.state.quotas s.store.root = (.ok entries, root) ∧
        ∀ uploadId : String, entries[uploadId]?.map (fun entry => entry.reducer.snapshot) =
          s.store.state.entries[uploadId]?.map (fun entry => entry.reducer.snapshot) := by
  have hrun : ((System.run (System.guarded StoreRun.Safe (StoreRun.step sampleStoreExternals))
      sampleStart (sampleActions { append := some .appendSync })).bind fun s =>
        s.store.state.entries[sampleIdentity.uploadId]?.map fun entry =>
          entry.reducer.snapshot.finalEventSequence) = some 4 := by
    decide
  obtain ⟨s, hs, hentry⟩ := Option.bind_eq_some_iff.mp hrun
  obtain ⟨entry, hentry, hfinal⟩ := Option.map_eq_some_iff.mp hentry
  exact ⟨s, ⟨entry, hentry, hfinal⟩,
    reload_agrees (System.Reachable.run_guarded (.of_init (s := sampleStart) rfl) hs)⟩

/-! ### Too many events

With a file system that cannot write snapshots, the owner of the sample
completion renews its lease until a reducer cannot replay the log. -/

/-- The claimed sample upload after `n` events. Renewing its lease to the same
time changes nothing but the sequence number. -/
def renewedSnapshot (n : ℕ) : FileMultipartSnapshotV1 :=
  { (sampleReducer 4).snapshot with finalEventSequence := n }

def renewal : FileMultipartTransitionV1 := .completionRenewed 1 310 300

theorem applyEvent_renewal (m n : ℕ) :
    applyEvent sampleExternals (renewedSnapshot m) (sampleEvent n renewal) =
      .ok (renewedSnapshot n) := by
  rfl

theorem renewedSnapshot_valid (n : ℕ) : validateSnapshot (renewedSnapshot n) = .ok () := by
  rfl

theorem renewedSnapshot_quotas (n : ℕ) :
    ∃ result, reconstructFileMultipartQuotas [renewedSnapshot n] sampleQuotas = .ok result :=
  ⟨_, rfl⟩

/-- The store has the sample upload and nothing else, after `n` events of
which no snapshot was ever written. -/
structure Renewed (n : ℕ) (s : StoreRun) : Prop where
  healthy : s.store.state.poisoned = none
  quotas : s.store.state.quotas = sampleQuotas
  alone : (s.store.state.entries.toList.filter fun entry =>
    entry.1 ≠ sampleIdentity.uploadId).length = 0
  issued : ∀ eventId ∈ s.issued, eventId.toNat ≤ n
  upload : ∃ entry directory history,
    s.store.state.entries[sampleIdentity.uploadId]? = some entry ∧
    s.store.root[sampleIdentity.uploadId]? = some directory ∧
    entry.reducer.snapshot = renewedSnapshot n ∧ directory.snapshot = none ∧
    directory.Holds sampleStoreExternals sampleIdentity.uploadId history (renewedSnapshot n) ∧
    entry.log.Tracks sampleStoreExternals.eventVec directory.toLogDisk history ∧
    ∀ logged ∈ history, logged.payload.eventId ∈ s.issued

theorem framesLen_sample (frames : List (LoggedEvent FileMultipartEventV1)) :
    framesLen sampleStoreExternals.eventVec frames = 57 * frames.length := by
  induction frames with
  | nil => rfl
  | cons frame frames ih =>
      rw [← List.singleton_append, framesLen_append, ih, List.length_append]
      have hone : framesLen sampleStoreExternals.eventVec [frame] = 57 := by
        simp [framesLen, frameLen, payloadLen, sampleStoreExternals, length_beBytes,
          frameHeaderBytes, checksumBytes]
      rw [hone, List.length_singleton]
      omega

/-- One more renewal. -/
theorem Renewed.step {n : ℕ} {s : StoreRun} (h : Renewed n s) (hn : n < 500) :
    ∃ t, s.step sampleStoreExternals (.apply { snapshot := some .preWrite } sampleIdentity.uploadId
      (BitVec.ofNat 128 (n + 1)) renewal) = some t ∧ Renewed (n + 1) t := by
  obtain ⟨entry, directory, history, hentry, hdirectory, hsnapshot, hstored, hholds, htracks,
    hissued⟩ := h.upload
  obtain ⟨file, hfile, hclean⟩ := htracks.clean
  have hlength : history.length = n := by
    rw [← hholds.finalSequence]
    rfl
  have hframes : directory.frames = history := by
    obtain ⟨k, hframes, hk⟩ := hholds.keeps.frames
    have hzero : directory.snapshotSequence = 0 := by simp [LogDisk.snapshotSequence, hstored]
    rw [hframes]
    rcases hk with rfl | rfl
    · rfl
    · rw [hzero]
      rfl
  have htoNat : (BitVec.ofNat 128 (n + 1)).toNat = n + 1 := by
    rw [BitVec.toNat_ofNat]
    omega
  have hnew : BitVec.ofNat 128 (n + 1) ∉ s.issued := by
    intro hmem
    have := h.issued _ hmem
    omega
  -- The event passes the reducer and the quotas.
  have hevent : NextEvent sampleExternals (renewedSnapshot n) (sampleEvent (n + 1) renewal)
      (renewedSnapshot (n + 1)) :=
    ⟨rfl, rfl, ⟨_, rfl⟩, applyEvent_renewal n (n + 1)⟩
  obtain ⟨candidate, happlied, hcandidate⟩ : ∃ candidate,
      (FileMultipartReducer.ofSnapshot (renewedSnapshot n)).applied sampleExternals
        (sampleEvent (n + 1) renewal) = .ok candidate ∧
      candidate.snapshot = renewedSnapshot (n + 1) := by
    have hself : (FileMultipartReducer.ofSnapshot (renewedSnapshot n)).Inv :=
      ⟨renewedSnapshot_valid n, Nat.le_refl _, fun _ hmem => absurd hmem Std.TreeMap.not_mem_emptyc⟩
    have hlogged : Loggable sampleExternals ⟨n + 1, sampleEvent (n + 1) renewal⟩ :=
      ⟨rfl, rfl, ⟨_, rfl⟩⟩
    obtain ⟨-, happly⟩ := hself.apply_next hlogged rfl (by simp only [u64Bound]; omega)
      Std.TreeMap.not_mem_emptyc
    obtain ⟨canonical, happly⟩ :=
      happly (Nat.zero_lt_succ 255) _ (applyEvent_renewal n (n + 1))
    exact ⟨_, by rw [FileMultipartReducer.applied, happly], rfl⟩
  have hvalidate : s.store.state.validateCandidate sampleIdentity.uploadId
      (renewedSnapshot (n + 1)) = .ok () := by
    obtain ⟨result, hresult⟩ := renewedSnapshot_quotas (n + 1)
    simp only [FileMultipartState.validateCandidate, List.length_eq_zero_iff.mp h.alone,
      List.map_nil, List.nil_append, h.quotas, hresult]
    rfl
  have hprepare : s.store.state.prepareEvent sampleStoreExternals.toExternals
      sampleIdentity.uploadId (BitVec.ofNat 128 (n + 1)) renewal =
        .ok (entry, sampleEvent (n + 1) renewal, candidate) := by
    have hsequence : rejectIf ((renewedSnapshot n).finalEventSequence + 1 ≥ u64Bound)
        (corruptState "multipart event sequence exhausted") = .ok () := by
      rw [rejectIf_eq_ok]
      simp only [renewedSnapshot, u64Bound]
      omega
    simp only [FileMultipartState.prepareEvent, FileMultipartState.ensureHealthy, h.healthy, hentry,
      okOr_some, ok_bind, hsnapshot, fromSnapshot_ok (renewedSnapshot_valid n), mapError_ok,
      hsequence]
    show (FileMultipartReducer.applied sampleExternals (.ofSnapshot (renewedSnapshot n))
      (sampleEvent (n + 1) renewal) >>= _) = _
    rw [happlied, ok_bind, hcandidate, hvalidate]
    rfl
  have hadmits : entry.log.Admits sampleStoreExternals.eventVec
      (sampleEvent (n + 1) renewal) := by
    have hpayload : payloadLen sampleStoreExternals.eventVec (sampleEvent (n + 1) renewal) = 8 := by
      simp [payloadLen, sampleStoreExternals, length_beBytes]
    refine ⟨htracks.usable, ⟨_, rfl⟩, ?_, ?_⟩
    · rw [hpayload]
      decide
    · rw [hpayload, htracks.byteLen, hframes, framesLen_sample, hlength]
      simp only [frameLen, frameHeaderBytes, checksumBytes, maxLogBytes]
      omega
  -- The append succeeds, and a compaction that may follow changes nothing.
  have hgetD : s.store.root.getD sampleIdentity.uploadId {} = directory := by
    rw [Std.TreeMap.getD_eq_getD_getElem?, hdirectory]
    rfl
  have hresult : (s.store.applyTransition sampleStoreExternals { snapshot := some .preWrite }
      sampleIdentity.uploadId (BitVec.ofNat 128 (n + 1)) renewal).2 =
        s.store.setUpload sampleIdentity.uploadId
          ⟨candidate, entry.log.advanced sampleStoreExternals.eventVec (sampleEvent (n + 1) renewal)⟩
          { directory with
            log := some (file.appendFrame sampleStoreExternals.eventVec
              ⟨entry.log.nextSequence, sampleEvent (n + 1) renewal⟩) } := by
    have hfinish : ∀ store : FileMultipartStore, store.state.poisoned = none →
        store.finish.2 = store := by
      intro store hstore
      simp [FileMultipartStore.finish, FileMultipartState.ensureHealthy, hstore]
    simp only [FileMultipartStore.applyTransition, hprepare, hgetD, hfile, hadmits.append,
      FileMultipartStore.compactUpload]
    split
    · obtain ⟨error, hknown, hcompact⟩ := EventLog.compact_preWrite
        sampleStoreExternals.snapshotVec none
        (entry.log.advanced sampleStoreExternals.eventVec (sampleEvent (n + 1) renewal))
        ({ directory with
            log := some (file.appendFrame sampleStoreExternals.eventVec
              ⟨entry.log.nextSequence, sampleEvent (n + 1) renewal⟩) } :
          UploadDirectory).toLogDisk candidate.snapshot
      simp only [hcompact, hknown, Bool.false_eq_true, if_false]
      exact hfinish _ h.healthy
    · exact hfinish _ h.healthy
  refine ⟨⟨_, _⟩, if_neg (by simpa using hnew), ?_⟩
  rw [hresult]
  refine ⟨h.healthy, h.quotas, ?_, ?_, ?_⟩
  · have hperm := (FinMap.toList_insert_perm s.store.state.entries sampleIdentity.uploadId
      ⟨candidate, entry.log.advanced sampleStoreExternals.eventVec
        (sampleEvent (n + 1) renewal)⟩).filter fun entry => entry.1 ≠ sampleIdentity.uploadId
    rw [List.length_eq_zero_iff.mp h.alone] at hperm
    refine hperm.length_eq.trans ?_
    simp
  · intro eventId hmem
    rcases List.mem_cons.mp hmem with rfl | hold
    · exact htoNat.le
    · have := h.issued eventId hold
      omega
  · have hbound : history.length + 2 < u64Bound := by
      simp only [u64Bound]
      omega
    have hid : (sampleEvent (n + 1) renewal).eventId ∉
        history.map fun logged => logged.payload.eventId := by
      intro hmem
      obtain ⟨logged, hlogged, heq⟩ := List.mem_map.mp hmem
      have hsame : logged.payload.eventId = BitVec.ofNat 128 (n + 1) := heq
      exact hnew (hsame ▸ hissued logged hlogged)
    refine ⟨_, _, _, Std.TreeMap.getElem?_insert_self, Std.TreeMap.getElem?_insert_self, hcandidate,
      hstored, hholds.append htracks hadmits hfile hbound hevent hid, htracks.append _ hfile hbound,
      ?_⟩
    intro logged hmem
    rcases List.mem_append.mp hmem with hold | hlast
    · exact List.mem_cons_of_mem _ (hissued logged hold)
    · rw [List.mem_singleton.mp hlast]
      exact List.mem_cons_self

/-- What a run of the first four calls leads to. -/
theorem renewed_four : ∃ s : StoreRun,
    ((storeSystem sampleStoreExternals sampleQuotas).restrict StoreRun.Safe).Reachable s ∧
      Renewed 4 s := by
  have hsnapshot : ((System.run (System.guarded StoreRun.Safe (StoreRun.step sampleStoreExternals))
      sampleStart (sampleActions { snapshot := some .preWrite })).bind fun s =>
        s.store.state.entries[sampleIdentity.uploadId]?.map fun entry =>
          entry.reducer.snapshot) = some (renewedSnapshot 4) := by
    rfl
  obtain ⟨s, hs, hentry⟩ := Option.bind_eq_some_iff.mp hsnapshot
  obtain ⟨entry, hentry, hfinal⟩ := Option.map_eq_some_iff.mp hentry
  have hreachable : ((storeSystem sampleStoreExternals sampleQuotas).restrict
      StoreRun.Safe).Reachable s :=
    System.Reachable.run_guarded (.of_init (s := sampleStart) rfl) hs
  have hinv := store_inv hreachable
  have hfacts : ((System.run (System.guarded StoreRun.Safe (StoreRun.step sampleStoreExternals))
      sampleStart (sampleActions { snapshot := some .preWrite })).map fun s =>
        (s.store.state.quotas, (s.store.state.entries.toList.filter fun entry =>
          entry.1 ≠ sampleIdentity.uploadId).length, s.issued,
          s.store.root[sampleIdentity.uploadId]?.map fun directory =>
            directory.snapshot.isSome)) = some (sampleQuotas, 0, [4, 3, 2, 1], some false) := by
    decide
  rw [hs, Option.map_some, Option.some.injEq, Prod.mk.injEq, Prod.mk.injEq, Prod.mk.injEq] at hfacts
  obtain ⟨hquotas, halone, hissued, hstored⟩ := hfacts
  refine ⟨s, hreachable, hinv.healthy, hquotas, halone, ?_, ?_⟩
  · rw [hissued]
    simp
  · rcases hinv.uploads sampleIdentity.uploadId with ⟨hnone, -⟩ |
      ⟨entry', directory, history, hentry', hdirectory, hkept, htracks⟩
    · rw [hentry] at hnone
      cases hnone
    · obtain rfl := Option.some.inj (hentry.symm.trans hentry')
      rw [hdirectory, Option.map_some, Option.some.injEq] at hstored
      exact ⟨entry, directory, history, hentry, hdirectory, hfinal, by simpa using hstored,
        hfinal ▸ hkept.holds, htracks, hkept.issued⟩

/-- What loads lists only directories that load. -/
theorem loadListed_isOk {ext : StoreExternals} {entries : Std.TreeMap String FileMultipartEntry}
    {root : UploadsRoot} {listed : List (String × UploadDirectory)}
    {loaded : Std.TreeMap String FileMultipartEntry}
    (h : (loadListed ext entries root listed).1 = .ok loaded) :
    ∀ p ∈ listed, ∃ entry, (loadUpload ext p.1 p.2).1 = .ok entry := by
  induction listed generalizing entries root with
  | nil => simp
  | cons p rest ih =>
      obtain ⟨uploadId, directory⟩ := p
      rw [loadListed] at h
      rw [List.forall_mem_cons]
      split at h
      · cases h
      · next entry directory' hload =>
          split at h
          · cases h
          · exact ⟨⟨entry, by rw [hload]⟩, ih h⟩

/-- A run in which every transition is accepted and every compaction fails
with an error of known outcome: after 257 events the repository is healthy,
and its directory does not load any more. -/
theorem reload_fails_after_many_events :
    ∃ s : StoreRun, (storeSystem sampleStoreExternals sampleQuotas).Reachable s ∧
      s.store.state.poisoned = none ∧
      (∃ entry, s.store.state.entries[sampleIdentity.uploadId]? = some entry ∧
        entry.reducer.snapshot.finalEventSequence = 257) ∧
      ∃ error,
        (loadEntries sampleStoreExternals s.store.state.quotas s.store.root).1 = .error error := by
  have hrenewed : ∀ n, 4 ≤ n → n < 500 → ∃ s : StoreRun,
      (storeSystem sampleStoreExternals sampleQuotas).Reachable s ∧ Renewed n s := by
    intro n hn
    induction n, hn using Nat.le_induction with
    | base =>
        intro _
        obtain ⟨s, hs, hrenewed⟩ := renewed_four
        exact ⟨s, hs.of_restrict, hrenewed⟩
    | succ n _ ih =>
        intro hlt
        obtain ⟨s, hs, hrenewed⟩ := ih (by omega)
        obtain ⟨t, hstep, ht⟩ := hrenewed.step (by omega)
        exact ⟨t, hs.step hstep, ht⟩
  obtain ⟨s, hs, hrenewed⟩ := hrenewed 257 (by omega) (by omega)
  obtain ⟨entry, directory, history, hentry, hdirectory, hsnapshot, hstored, hholds, -⟩ :=
    hrenewed.upload
  refine ⟨s, hs, hrenewed.healthy, ⟨entry, hentry, by rw [hsnapshot]; rfl⟩, ?_⟩
  have hfails : (loadUpload sampleStoreExternals sampleIdentity.uploadId directory).1 =
      .error (reducerPersistenceError .boundExceeded) := by
    have hload := hholds.loadUpload
    have hlength : history.length = 257 := hholds.finalSequence.symm
    have hmany : ¬history.length ≤ directory.snapshotSequence + maxReplayEvents := by
      simp [LogDisk.snapshotSequence, hstored, hlength, maxReplayEvents]
    rw [if_neg hmany] at hload
    obtain ⟨directory', hload⟩ := hload
    rw [hload]
  cases hlisted : loadListed sampleStoreExternals {} s.store.root s.store.root.toList with
  | mk result root =>
      cases result with
      | error error => exact ⟨error, by simp [loadEntries, hlisted]⟩
      | ok entries =>
          exfalso
          have hmem : (sampleIdentity.uploadId, directory) ∈ s.store.root.toList :=
            FinMap.mem_toList.mpr hdirectory
          obtain ⟨_, hok⟩ := loadListed_isOk (by rw [hlisted]) _ hmem
          rw [hfails] at hok
          cases hok

end Maskura.Multipart
