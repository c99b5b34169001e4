import Maskura.Multipart.Replay

/-!
A restart finds what the live repository had.

For every upload the files keep a tail of its history, all events it ever
logged. Loading replays the events behind the snapshot, so it arrives at the
snapshot in memory; it fails when there are more of them than a reducer
replays, or when the log starts where opening it does not accept it.
-/

namespace Maskura.Multipart

open Maskura.Lib Maskura.Persistence

variable {ext : StoreExternals} {uploadId : String} {directory : UploadDirectory}
  {history : List (LoggedEvent FileMultipartEventV1)} {snapshot : FileMultipartSnapshotV1}

/-! ### One upload -/

/-- The files of an upload hold its history, which leads to `snapshot`. -/
structure UploadDirectory.Holds (ext : StoreExternals) (uploadId : String)
    (directory : UploadDirectory) (history : List (LoggedEvent FileMultipartEventV1))
    (snapshot : FileMultipartSnapshotV1) : Prop where
  name : validateUploadDirectoryName ext uploadId = .ok ()
  log : directory.log.isSome = true
  temporaries : directory.temporaries = []
  keeps : directory.toLogDisk.Keeps ext.eventVec history
  loggable : ∀ logged ∈ history, Loggable ext.toExternals logged
  ids : (history.map fun logged => logged.payload.eventId).Nodup
  replay : replaySnapshot ext.toExternals {} history = .ok snapshot
  /-- The stored snapshot is that of the events it covers. -/
  covered : ∀ stored ∈ directory.snapshot,
    replaySnapshot ext.toExternals {} (history.take stored.finalSequence) = .ok stored.payload
  identity : ∃ identity, snapshot.identity = some identity ∧ identity.uploadId = uploadId

theorem validateSnapshot_default : validateSnapshot {} = .ok () := by rfl

theorem UploadDirectory.Holds.finalSequence (h : directory.Holds ext uploadId history snapshot) :
    snapshot.finalEventSequence = history.length := by
  have := replaySnapshot_finalSequence h.loggable h.keeps.consecutive h.replay
  rw [this]
  exact Nat.zero_add _

theorem UploadDirectory.Holds.validateFiles (h : directory.Holds ext uploadId history snapshot) :
    validateUploadFiles false directory.fileNames = .ok () := by
  obtain ⟨log, hlog⟩ := Option.isSome_iff_exists.mp h.log
  cases hsnapshot : directory.snapshot <;>
    simp [UploadDirectory.fileNames, hlog, hsnapshot, h.temporaries, validateUploadFiles,
      rejectIf, snapshotFile, eventLogFile]

/-- Where the replay of a directory starts: at the snapshot of the events up
to the sequence the files cover. -/
theorem UploadDirectory.Holds.loadSnapshot (h : directory.Holds ext uploadId history snapshot) :
    ∃ start, directory.loadSnapshot = .ok (directory.snapshotSequence, start) ∧
      replaySnapshot ext.toExternals {} (history.take directory.snapshotSequence) = .ok start := by
  cases hsnapshot : directory.snapshot with
  | none =>
      refine ⟨{}, by simp [UploadDirectory.loadSnapshot, hsnapshot, LogDisk.snapshotSequence], ?_⟩
      simp [LogDisk.snapshotSequence, hsnapshot]
  | some stored =>
      have hsequence : directory.snapshotSequence = stored.finalSequence := by
        simp [LogDisk.snapshotSequence, hsnapshot]
      have hcovered := h.covered stored hsnapshot
      have hle : stored.finalSequence ≤ history.length := hsequence ▸ h.keeps.covered
      have hfinal : stored.payload.finalEventSequence = stored.finalSequence := by
        have hconsecutive : Consecutive 1 (history.take stored.finalSequence) := by
          have := h.keeps.consecutive
          rw [← List.take_append_drop stored.finalSequence history] at this
          exact (consecutive_append.mp this).1
        have := replaySnapshot_finalSequence
          (fun logged hlogged => h.loggable logged (List.mem_of_mem_take hlogged))
          hconsecutive hcovered
        rw [this, List.length_take, Nat.min_eq_left hle]
        exact Nat.zero_add _
      refine ⟨stored.payload, ?_, hsequence ▸ hcovered⟩
      simp [UploadDirectory.loadSnapshot, hsnapshot, hfinal, hsequence]

/-- The reducer of a snapshot that was just loaded. -/
def FileMultipartReducer.ofSnapshot (snapshot : FileMultipartSnapshotV1) : FileMultipartReducer :=
  { snapshot := snapshot, replayFloor := snapshot.finalEventSequence }

theorem fromSnapshot_ok (h : validateSnapshot snapshot = .ok ()) :
    FileMultipartReducer.fromSnapshot snapshot = .ok (.ofSnapshot snapshot) := by
  rw [FileMultipartReducer.fromSnapshot, h]
  rfl

theorem eq_ofSnapshot {f : FileMultipartReducerError → StagingError}
    {reducer : FileMultipartReducer}
    (h : (FileMultipartReducer.fromSnapshot snapshot).mapError f = .ok reducer) :
    reducer = .ofSnapshot snapshot := by
  simp only [mapError_eq_ok, FileMultipartReducer.fromSnapshot, bind_eq_ok, pure_eq_ok] at h
  obtain ⟨-, -, rfl⟩ := h
  rfl

/-- The replay of the events behind the stored snapshot. -/
theorem UploadDirectory.Holds.replayEvents (h : directory.Holds ext uploadId history snapshot)
    {start : FileMultipartSnapshotV1}
    (hstart : replaySnapshot ext.toExternals {} (history.take directory.snapshotSequence) =
      .ok start) :
    if history.length ≤ directory.snapshotSequence + maxReplayEvents then
      ∃ reducer, Multipart.replayEvents ext.toExternals (.ofSnapshot start)
          (history.drop directory.snapshotSequence) = .ok reducer ∧ reducer.snapshot = snapshot
    else
      Multipart.replayEvents ext.toExternals (.ofSnapshot start)
          (history.drop directory.snapshotSequence) =
        .error (reducerPersistenceError .boundExceeded) := by
  have hcovered := h.keeps.covered
  have hbound := h.keeps.bound
  have hsplit := List.take_append_drop directory.snapshotSequence history
  have hconsecutive := h.keeps.consecutive
  rw [← hsplit, consecutive_append, List.length_take, Nat.min_eq_left hcovered] at hconsecutive
  have hloggable : ∀ part : List (LoggedEvent FileMultipartEventV1), part.Sublist history →
      ∀ logged ∈ part, Loggable ext.toExternals logged :=
    fun part hpart logged hlogged => h.loggable logged (hpart.subset hlogged)
  have hfinal : start.finalEventSequence = directory.snapshotSequence := by
    have := replaySnapshot_finalSequence (hloggable _ (List.take_sublist _ _)) hconsecutive.1 hstart
    rw [this, List.length_take, Nat.min_eq_left hcovered]
    exact Nat.zero_add _
  have hreplay : replaySnapshot ext.toExternals start (history.drop directory.snapshotSequence) =
      .ok snapshot := by
    have := h.replay
    rw [← hsplit, replaySnapshot_append, hstart] at this
    exact this
  have hvalid := replaySnapshot_valid validateSnapshot_default hstart
  have hself : (FileMultipartReducer.ofSnapshot start).Inv :=
    ⟨hvalid, Nat.le_refl _, fun _ hmem => absurd hmem Std.TreeMap.not_mem_emptyc⟩
  have hempty : (FileMultipartReducer.ofSnapshot start).replayed.size = 0 := rfl
  have hlength : (history.drop directory.snapshotSequence).length =
      history.length - directory.snapshotSequence := List.length_drop
  have hiff : (FileMultipartReducer.ofSnapshot start).replayed.size +
      (history.drop directory.snapshotSequence).length ≤ maxReplayEvents ↔
        history.length ≤ directory.snapshotSequence + maxReplayEvents := by omega
  have := replayEvents_eq hself (hloggable _ (List.drop_sublist _ _))
    (by rw [FileMultipartReducer.ofSnapshot, hfinal, Nat.add_comm]; exact hconsecutive.2)
    (by rw [FileMultipartReducer.ofSnapshot, hfinal, hlength]; omega)
    (h.ids.sublist ((List.drop_sublist _ _).map _))
    (fun _ _ => Std.TreeMap.not_mem_emptyc) (by rw [hempty]; exact Nat.zero_le _) hreplay
  simpa only [hiff] using this

/-- Loading an upload whose files hold its history: it arrives at the
history's snapshot, with a log handle that tracks the files, unless there are
too many events to replay. -/
theorem UploadDirectory.Holds.loadUpload (h : directory.Holds ext uploadId history snapshot) :
    if history.length ≤ directory.snapshotSequence + maxReplayEvents then
      ∃ entry directory', loadUpload ext uploadId directory = (.ok entry, directory') ∧
        entry.reducer.snapshot = snapshot ∧
        directory'.Holds ext uploadId history snapshot ∧
        directory'.snapshot = directory.snapshot ∧
        entry.log.Tracks ext.eventVec directory'.toLogDisk history
    else
      ∃ directory', loadUpload ext uploadId directory =
        (.error (reducerPersistenceError .boundExceeded), directory') := by
  obtain ⟨start, hload, hstart⟩ := h.loadSnapshot
  have hvalid := replaySnapshot_valid validateSnapshot_default hstart
  obtain ⟨log, disk, hreopen, hkeeps, htracks, hsnapshot⟩ := h.keeps.reopen
  have hevents : (history.filter fun event => decide (directory.snapshotSequence < event.sequence)) =
      history.drop directory.snapshotSequence := by
    rw [h.keeps.consecutive.filter_eq_drop, Nat.add_sub_cancel]
  rw [hevents] at hreopen
  obtain ⟨file, hopen, hdisk⟩ : ∃ file, openEventLog ext.eventVec directory.log
        directory.snapshotSequence =
        (.ok (log, history.drop directory.snapshotSequence), file) ∧
      disk = { directory.toLogDisk with log := some file } := by
    rw [LogDisk.reopen, Prod.mk.injEq] at hreopen
    exact ⟨_, Prod.ext hreopen.1 rfl, hreopen.2.symm⟩
  obtain ⟨identity, hidentity, huploadId⟩ := h.identity
  have hreplay := h.replayEvents hstart
  split at hreplay
  · next hle =>
      rw [if_pos hle]
      obtain ⟨reducer, hreducer, hresult⟩ := hreplay
      have hcheck : checkIdentity uploadId reducer.snapshot = .ok () := by
        simp [checkIdentity, hresult, hidentity, huploadId, rejectIf]
      refine ⟨⟨reducer, log⟩, { directory with log := some file }, ?_, hresult, ?_, rfl, ?_⟩
      · simp only [Multipart.loadUpload, h.name, h.validateFiles, hload, fromSnapshot_ok hvalid,
          mapError_ok, ok_bind, pure_ok, hopen, hreducer, hcheck]
      · exact
          { h with
            log := rfl
            keeps := hdisk ▸ hkeeps }
      · exact hdisk ▸ htracks
  · next hgt =>
      rw [if_neg hgt]
      refine ⟨{ directory with log := some file }, ?_⟩
      simp only [Multipart.loadUpload, h.name, h.validateFiles, hload, fromSnapshot_ok hvalid,
        mapError_ok, ok_bind, pure_ok, hopen, hreplay, error_bind]

/-! ### The whole store -/

/-- What loading has to find in a directory. The event ids of its history are
among those that were ever issued. -/
structure UploadDirectory.Kept (ext : StoreExternals) (issued : List Uuid) (uploadId : String)
    (directory : UploadDirectory) (history : List (LoggedEvent FileMultipartEventV1))
    (snapshot : FileMultipartSnapshotV1) : Prop where
  holds : directory.Holds ext uploadId history snapshot
  /-- The events behind the stored snapshot fit into one reducer. -/
  replayable : history.length ≤ directory.snapshotSequence + maxReplayEvents
  issued : ∀ logged ∈ history, logged.payload.eventId ∈ issued

/-- The directories of a store keep the snapshots of a view. -/
def RootHolds (ext : StoreExternals) (issued : List Uuid) (root : UploadsRoot)
    (view : Std.TreeMap String FileMultipartSnapshotV1) : Prop :=
  ∀ uploadId : String, (root[uploadId]? = none ∧ view[uploadId]? = none) ∨
    ∃ directory history snapshot, root[uploadId]? = some directory ∧
      view[uploadId]? = some snapshot ∧ directory.Kept ext issued uploadId history snapshot

/-- A live repository agrees with its directories. -/
structure FileMultipartStore.Inv (ext : StoreExternals) (issued : List Uuid)
    (store : FileMultipartStore) : Prop where
  healthy : store.state.poisoned = none
  uploads : ∀ uploadId : String,
    (store.state.entries[uploadId]? = none ∧ store.root[uploadId]? = none) ∨
      ∃ entry directory history, store.state.entries[uploadId]? = some entry ∧
        store.root[uploadId]? = some directory ∧
        directory.Kept ext issued uploadId history entry.reducer.snapshot ∧
        entry.log.Tracks ext.eventVec directory.toLogDisk history
  quotas : WithinQuotas store.state.quotas (snapshotsOf store.state.entries)

/-- The snapshots a repository holds in memory. -/
def FileMultipartStore.view (store : FileMultipartStore) :
    Std.TreeMap String FileMultipartSnapshotV1 :=
  store.state.entries.map fun _ entry => entry.reducer.snapshot

theorem view_getElem? (store : FileMultipartStore) (uploadId : String) :
    store.view[uploadId]? =
      store.state.entries[uploadId]?.map fun entry => entry.reducer.snapshot :=
  Std.TreeMap.getElem?_map

theorem snapshotsOf_perm {entries : Std.TreeMap String FileMultipartEntry}
    {view : Std.TreeMap String FileMultipartSnapshotV1}
    (h : ∀ uploadId : String,
      entries[uploadId]?.map (fun entry => entry.reducer.snapshot) = view[uploadId]?) :
    (snapshotsOf entries).Perm (view.toList.map Prod.snd) := by
  refine FinMap.values_perm (f := fun entry : FileMultipartEntry => entry.reducer.snapshot)
    (g := fun snapshot => snapshot) fun uploadId => ?_
  rw [h uploadId, Option.map_id']

theorem FileMultipartStore.Inv.rootHolds {issued : List Uuid} {store : FileMultipartStore}
    (h : store.Inv ext issued) : RootHolds ext issued store.root store.view := by
  intro uploadId
  rcases h.uploads uploadId with ⟨hentry, hdirectory⟩ |
    ⟨entry, directory, history, hentry, hdirectory, hkept, -⟩
  · exact .inl ⟨hdirectory, by rw [view_getElem?, hentry]; rfl⟩
  · exact .inr ⟨directory, history, _, hdirectory, by rw [view_getElem?, hentry]; rfl, hkept⟩

theorem FileMultipartStore.Inv.viewQuotas {issued : List Uuid} {store : FileMultipartStore}
    (h : store.Inv ext issued) :
    WithinQuotas store.state.quotas (store.view.toList.map Prod.snd) :=
  h.quotas.perm (snapshotsOf_perm fun uploadId => (view_getElem? store uploadId).symm)

/-- The loop over directories that all load. -/
theorem loadListed_ok (entries : Std.TreeMap String FileMultipartEntry) (root : UploadsRoot)
    {listed : List (String × UploadDirectory)} (hkeys : (listed.map Prod.fst).Nodup)
    (hnew : ∀ p ∈ listed, entries[p.1]? = none)
    (hloads : ∀ p ∈ listed, ∃ entry directory,
      Multipart.loadUpload ext p.1 p.2 = (.ok entry, directory)) :
    ∃ entries' root', loadListed ext entries root listed = (.ok entries', root') ∧
      (∀ uploadId : String, uploadId ∉ listed.map Prod.fst →
        entries'[uploadId]? = entries[uploadId]? ∧ root'[uploadId]? = root[uploadId]?) ∧
      ∀ p ∈ listed, ∃ entry directory,
        Multipart.loadUpload ext p.1 p.2 = (.ok entry, directory) ∧
        entries'[p.1]? = some entry ∧ root'[p.1]? = some directory := by
  induction listed generalizing entries root with
  | nil => exact ⟨entries, root, rfl, fun _ _ => ⟨rfl, rfl⟩, by simp⟩
  | cons p rest ih =>
      obtain ⟨uploadId, directory⟩ := p
      rw [List.map_cons, List.nodup_cons] at hkeys
      obtain ⟨hnewHead, hnewRest⟩ := List.forall_mem_cons.mp hnew
      obtain ⟨⟨entry, directory', hload⟩, hloadsRest⟩ := List.forall_mem_cons.mp hloads
      have hne : ∀ q ∈ rest, uploadId ≠ q.1 := by
        rintro q hq rfl
        exact hkeys.1 (List.mem_map.mpr ⟨q, hq, rfl⟩)
      have habsent : entries.contains uploadId = false := by
        rw [Std.TreeMap.contains_eq_isSome_getElem?, hnewHead]
        rfl
      obtain ⟨entries', root', hrest, hother, hlisted⟩ :=
        ih (entries.insert uploadId entry) (root.insert uploadId directory')
          hkeys.2
          (fun q hq => by
            rw [FinMap.getElem?_insert_of_ne _ _ (hne q hq)]
            exact hnewRest q hq)
          hloadsRest
      refine ⟨entries', root', ?_, ?_, ?_⟩
      · simp [loadListed, hload, habsent, hrest]
      · intro other hmem
        rw [List.map_cons, List.mem_cons, not_or] at hmem
        obtain ⟨he, hr⟩ := hother other hmem.2
        rw [he, hr, FinMap.getElem?_insert_of_ne _ _ (Ne.symm hmem.1),
          FinMap.getElem?_insert_of_ne _ _ (Ne.symm hmem.1)]
        exact ⟨rfl, rfl⟩
      · rw [List.forall_mem_cons]
        refine ⟨⟨entry, directory', hload, ?_⟩, hlisted⟩
        obtain ⟨he, hr⟩ := hother uploadId hkeys.1
        rw [he, hr, Std.TreeMap.getElem?_insert_self, Std.TreeMap.getElem?_insert_self]
        exact ⟨rfl, rfl⟩

/-- Directories that keep a view within the quotas load as that view, and the
repository that has loaded them agrees with them. -/
theorem RootHolds.loadEntries {issued : List Uuid} {root : UploadsRoot}
    {view : Std.TreeMap String FileMultipartSnapshotV1} (h : RootHolds ext issued root view)
    {quotas : StagingQuotaLimits} (hquotas : WithinQuotas quotas (view.toList.map Prod.snd)) :
    ∃ entries root', loadEntries ext quotas root = (.ok entries, root') ∧
      FileMultipartStore.Inv ext issued ⟨⟨quotas, entries, none⟩, root'⟩ ∧
      ∀ uploadId : String,
        entries[uploadId]?.map (fun entry => entry.reducer.snapshot) = view[uploadId]? := by
  have hloads : ∀ p ∈ root.toList, ∃ entry directory,
      Multipart.loadUpload ext p.1 p.2 = (.ok entry, directory) := by
    rintro ⟨uploadId, directory⟩ hp
    rcases h uploadId with ⟨hnone, -⟩ | ⟨directory', history, snapshot, hdirectory, -, hkept⟩
    · rw [FinMap.mem_toList, hnone] at hp
      cases hp
    · rw [FinMap.mem_toList, hdirectory] at hp
      obtain rfl := Option.some.inj hp
      have hload := hkept.holds.loadUpload
      rw [if_pos hkept.replayable] at hload
      obtain ⟨entry, directory', hload, -⟩ := hload
      exact ⟨entry, directory', hload⟩
  obtain ⟨entries, root', hlisted, hother, hall⟩ :=
    loadListed_ok {} root (FinMap.nodup_toList_keys root)
      (fun _ _ => Std.TreeMap.getElem?_emptyc) hloads
  have huploads : ∀ uploadId : String,
      (entries[uploadId]? = none ∧ root'[uploadId]? = none ∧ view[uploadId]? = none) ∨
        ∃ entry directory history, entries[uploadId]? = some entry ∧
          root'[uploadId]? = some directory ∧
          view[uploadId]? = some entry.reducer.snapshot ∧
          directory.Kept ext issued uploadId history entry.reducer.snapshot ∧
          entry.log.Tracks ext.eventVec directory.toLogDisk history := by
    intro uploadId
    rcases h uploadId with ⟨hnone, hview⟩ |
      ⟨directory, history, snapshot, hdirectory, hview, hkept⟩
    · have hmem : uploadId ∉ root.toList.map Prod.fst := by
        intro hmem
        obtain ⟨⟨_, directory⟩, hp, rfl⟩ := List.mem_map.mp hmem
        rw [FinMap.mem_toList, hnone] at hp
        cases hp
      obtain ⟨he, hr⟩ := hother uploadId hmem
      exact .inl ⟨he.trans Std.TreeMap.getElem?_emptyc, hr.trans hnone, hview⟩
    · obtain ⟨entry, directory', hload, hentry, hroot⟩ :=
        hall (uploadId, directory) (FinMap.mem_toList.mpr hdirectory)
      have hloaded := hkept.holds.loadUpload
      rw [if_pos hkept.replayable] at hloaded
      obtain ⟨_, _, hload', hsnapshot, hholds, hstored, htracks⟩ := hloaded
      rw [hload] at hload'
      cases hload'
      have hsequence : directory'.snapshotSequence = directory.snapshotSequence := by
        rw [LogDisk.snapshotSequence, hstored]
        rfl
      refine .inr ⟨entry, directory', history, hentry, hroot, by rw [hview, hsnapshot], ?_, htracks⟩
      rw [hsnapshot]
      exact ⟨hholds, hsequence.symm ▸ hkept.replayable, hkept.issued⟩
  have hview : ∀ uploadId : String,
      entries[uploadId]?.map (fun entry => entry.reducer.snapshot) = view[uploadId]? := by
    intro uploadId
    rcases huploads uploadId with ⟨he, -, hv⟩ | ⟨entry, directory, history, he, -, hv, -⟩
    · rw [he, hv]
      rfl
    · rw [he, hv]
      rfl
  have hwithin : WithinQuotas quotas (snapshotsOf entries) :=
    hquotas.perm (snapshotsOf_perm hview).symm
  refine ⟨entries, root', ?_, ⟨rfl, ?_, hwithin⟩, hview⟩
  · obtain ⟨result, hresult⟩ := reconstructFileMultipartQuotas_isOk.mpr hwithin
    simp [Multipart.loadEntries, hlisted, hresult]
  · intro uploadId
    rcases huploads uploadId with ⟨he, hr, -⟩ | ⟨entry, directory, history, he, hr, -, hkept⟩
    · exact .inl ⟨he, hr⟩
    · exact .inr ⟨entry, directory, history, he, hr, hkept⟩

end Maskura.Multipart
