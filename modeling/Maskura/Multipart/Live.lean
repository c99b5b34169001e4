import Maskura.Multipart.Reload

/-!
The live repository keeps its directories loadable.

Every way a transition can end is one of a few: nothing happened, the event
was logged, or part of it was. With it come the four ways a compaction can
end. The invariant of `Reload` survives all of them, except a compaction that
publishes its snapshot and leaves a log that does not start at the first
event, and an event too many behind the last snapshot.
-/

namespace Maskura.Multipart

open Maskura.Lib Maskura.Persistence

/-! ### Identities -/

/-- No event changes the identity of an upload. -/
theorem reduceTransition_identity {ext : Externals}
    {snapshot snapshot' : FileMultipartSnapshotV1} {event : FileMultipartEventV1}
    {identity : MultipartIdentity}
    (h : reduceTransition ext snapshot event = .ok snapshot')
    (hidentity : snapshot.identity = some identity) : snapshot'.identity = some identity := by
  have hreduced := reduceTransition_reduced h
  generalize event.transition = transition at hreduced
  cases hreduced with
  | uploadCreated hnone =>
      rw [hnone] at hidentity
      cases hidentity
  | _ => exact hidentity

theorem applyEvent_identity {ext : Externals} {snapshot snapshot' : FileMultipartSnapshotV1}
    {event : FileMultipartEventV1} {identity : MultipartIdentity}
    (h : applyEvent ext snapshot event = .ok snapshot')
    (hidentity : snapshot.identity = some identity) : snapshot'.identity = some identity := by
  obtain ⟨candidate, hreduce, rfl, -⟩ := applyEvent_ok h
  have := reduceTransition_identity hreduce hidentity
  exact this

variable {ext : StoreExternals} {uploadId : String} {directory : UploadDirectory}
  {history : List (LoggedEvent FileMultipartEventV1)}
  {snapshot snapshot' : FileMultipartSnapshotV1} {log : EventLog}

/-! ### What happens to the files of one upload -/

section Files

/-- The event the live path writes next. -/
structure NextEvent (ext : Externals) (snapshot : FileMultipartSnapshotV1)
    (event : FileMultipartEventV1) (snapshot' : FileMultipartSnapshotV1) : Prop where
  version : event.schemaVersion = fileMultipartSchemaVersion
  sequence : event.sequence = snapshot.finalEventSequence + 1
  bytes : ∃ canonical, ext.eventBytes event = some canonical
  applies : applyEvent ext snapshot event = .ok snapshot'

variable {event : FileMultipartEventV1} {file : LogFile FileMultipartEventV1}

theorem UploadDirectory.Holds.append (h : directory.Holds ext uploadId history snapshot)
    (htracks : log.Tracks ext.eventVec directory.toLogDisk history)
    (hadmits : log.Admits ext.eventVec event) (hfile : directory.log = some file)
    (hbound : history.length + 2 < u64Bound)
    (hevent : NextEvent ext.toExternals snapshot event snapshot')
    (hid : event.eventId ∉ history.map fun logged => logged.payload.eventId) :
    UploadDirectory.Holds ext uploadId
      { directory with log := some (file.appendFrame ext.eventVec ⟨log.nextSequence, event⟩) }
      (history ++ [⟨log.nextSequence, event⟩]) snapshot' := by
  have hnext : event.sequence = log.nextSequence := by
    rw [hevent.sequence, h.finalSequence, htracks.nextSequence]
  refine
    { name := h.name
      log := rfl
      temporaries := h.temporaries
      keeps := h.keeps.append htracks hadmits hfile hbound
      loggable := ?_
      ids := ?_
      replay := ?_
      covered := ?_
      identity := ?_ }
  · intro logged hlogged
    rcases List.mem_append.mp hlogged with hold | hnew
    · exact h.loggable logged hold
    · obtain rfl := List.mem_singleton.mp hnew
      exact ⟨hevent.version, hnext, hevent.bytes⟩
  · rw [List.map_append, List.map_singleton, List.nodup_append]
    refine ⟨h.ids, List.nodup_singleton _, ?_⟩
    rintro a ha _ hb rfl
    rw [List.mem_singleton] at hb
    exact hid (hb ▸ ha)
  · rw [replaySnapshot_append, h.replay, ok_bind, replaySnapshot_cons, hevent.applies, ok_bind]
    rfl
  · intro stored hstored
    have hle : stored.finalSequence ≤ history.length := by
      have hcovered := h.keeps.covered
      have hstored' : directory.snapshot = some stored := hstored
      rwa [LogDisk.snapshotSequence, hstored'] at hcovered
    rw [List.take_append_of_le_length hle]
    exact h.covered stored hstored
  · obtain ⟨identity, hidentity, hsame⟩ := h.identity
    exact ⟨identity, applyEvent_identity hevent.applies hidentity, hsame⟩

theorem UploadDirectory.Holds.appendPart (h : directory.Holds ext uploadId history snapshot)
    (htracks : log.Tracks ext.eventVec directory.toLogDisk history)
    (hadmits : log.Admits ext.eventVec event) (hfile : directory.log = some file) {written : ℕ}
    (hwritten : written < frameLen (payloadLen ext.eventVec event)) :
    UploadDirectory.Holds ext uploadId
      { directory with
        log := some (file.appendPart ext.eventVec ⟨log.nextSequence, event⟩ written) }
      history snapshot :=
  { h with
    log := rfl
    keeps := h.keeps.appendPart htracks hadmits hfile hwritten }

/-- What a compaction covers is everything. -/
theorem UploadDirectory.Holds.covered_snapshotOf
    (h : directory.Holds ext uploadId history snapshot)
    (htracks : log.Tracks ext.eventVec directory.toLogDisk history)
    {stored : Snapshot FileMultipartSnapshotV1} (hstored : stored = log.snapshotOf snapshot) :
    replaySnapshot ext.toExternals {} (history.take stored.finalSequence) = .ok stored.payload := by
  have hfinal : (log.snapshotOf snapshot).finalSequence = history.length := by
    rw [EventLog.snapshotOf, htracks.nextSequence, Nat.add_sub_cancel]
  rw [hstored, hfinal, List.take_length]
  exact h.replay

theorem UploadDirectory.Holds.compact (h : directory.Holds ext uploadId history snapshot)
    (htracks : log.Tracks ext.eventVec directory.toLogDisk history) :
    UploadDirectory.Holds ext uploadId
        { directory with toLogDisk := ⟨some (log.snapshotOf snapshot), some {}⟩ } history snapshot ∧
      EventLog.Tracks ext.eventVec { log with eventCount := 0, byteLen := 0 }
        (⟨some (log.snapshotOf snapshot), some {}⟩ :
          LogDisk FileMultipartSnapshotV1 FileMultipartEventV1) history := by
  obtain ⟨hkeeps, htracks'⟩ := h.keeps.compact htracks snapshot
  refine ⟨?_, htracks'⟩
  exact
    { h with
      log := rfl
      keeps := hkeeps
      covered := fun stored hstored =>
        h.covered_snapshotOf htracks (Option.some.inj hstored).symm }

theorem UploadDirectory.Holds.publish (h : directory.Holds ext uploadId history snapshot)
    (htracks : log.Tracks ext.eventVec directory.toLogDisk history)
    (hstart : ∀ first ∈ directory.frames.head?, first.sequence = 1) :
    UploadDirectory.Holds ext uploadId
      { directory with snapshot := some (log.snapshotOf snapshot) } history snapshot :=
  { h with
    keeps := h.keeps.publish htracks snapshot hstart
    covered := fun _ hstored => h.covered_snapshotOf htracks (Option.some.inj hstored).symm }

end Files

/-! ### What happens to the store -/

section Store

variable {issued issued' : List Uuid} {store : FileMultipartStore} {entry : FileMultipartEntry}

theorem UploadDirectory.Kept.mono (hsub : issued ⊆ issued')
    (h : directory.Kept ext issued uploadId history snapshot) :
    directory.Kept ext issued' uploadId history snapshot :=
  ⟨h.holds, h.replayable, fun logged hlogged => hsub (h.issued logged hlogged)⟩

theorem FileMultipartStore.Inv.mono (hsub : issued ⊆ issued') (h : store.Inv ext issued) :
    store.Inv ext issued' := by
  refine ⟨h.healthy, fun other => ?_, h.quotas⟩
  rcases h.uploads other with hnone | ⟨entry, directory, history, he, hr, hkept, htracks⟩
  · exact .inl hnone
  · exact .inr ⟨entry, directory, history, he, hr, hkept.mono hsub, htracks⟩

theorem setUpload_view (store : FileMultipartStore) (uploadId : String)
    (entry : FileMultipartEntry) (directory : UploadDirectory) (other : String) :
    (store.setUpload uploadId entry directory).view[other]? =
      (store.view.insert uploadId entry.reducer.snapshot)[other]? := by
  rw [view_getElem?, FinMap.getElem?_insert_eq, view_getElem?]
  simp only [FileMultipartStore.setUpload, FinMap.getElem?_insert_eq]
  split <;> rfl

/-- One upload of the store is replaced by another state of it. -/
theorem FileMultipartStore.Inv.setUpload (h : store.Inv ext issued) (entry : FileMultipartEntry)
    (hkept : directory.Kept ext issued uploadId history entry.reducer.snapshot)
    (htracks : entry.log.Tracks ext.eventVec directory.toLogDisk history)
    (hquotas : WithinQuotas store.state.quotas
      ((store.view.insert uploadId entry.reducer.snapshot).toList.map Prod.snd)) :
    (store.setUpload uploadId entry directory).Inv ext issued := by
  refine ⟨h.healthy, fun other => ?_, ?_⟩
  · simp only [FileMultipartStore.setUpload, FinMap.getElem?_insert_eq]
    by_cases hother : uploadId = other
    · subst hother
      exact .inr ⟨entry, directory, history, if_pos rfl, if_pos rfl, hkept, htracks⟩
    · simp only [hother, if_false]
      exact h.uploads other
  · refine hquotas.perm (snapshotsOf_perm fun other => ?_).symm
    rw [← setUpload_view store uploadId entry directory other, view_getElem?]

/-- The files of one upload are in another state that keeps some snapshot of
it. -/
theorem FileMultipartStore.Inv.rootHolds_set (h : store.Inv ext issued)
    (hkept : directory.Kept ext issued uploadId history snapshot) {root : UploadsRoot}
    (hroot : ∀ other : String,
      root[other]? = if uploadId = other then some directory else store.root[other]?) :
    RootHolds ext issued root (store.view.insert uploadId snapshot) := by
  intro other
  rw [hroot, FinMap.getElem?_insert_eq]
  by_cases hother : uploadId = other
  · subst hother
    exact .inr ⟨directory, history, snapshot, if_pos rfl, if_pos rfl, hkept⟩
  · simp only [hother, if_false]
    exact h.rootHolds other

/-- The store reads everything again, with the files of one upload in another
state that keeps some snapshot of it. -/
theorem FileMultipartStore.Inv.reload (h : store.Inv ext issued) (entry : FileMultipartEntry)
    (hkept : directory.Kept ext issued uploadId history snapshot)
    (hquotas : WithinQuotas store.state.quotas
      ((store.view.insert uploadId snapshot).toList.map Prod.snd)) :
    ((store.setUpload uploadId entry directory).reloadAfterUnknown ext).Inv ext issued ∧
      ∀ other : String,
        ((store.setUpload uploadId entry directory).reloadAfterUnknown ext).view[other]? =
          (store.view.insert uploadId snapshot)[other]? := by
  have hroot := h.rootHolds_set hkept fun other =>
    FinMap.getElem?_insert_eq store.root uploadId other directory
  obtain ⟨entries, root, hload, hinv, hview⟩ := hroot.loadEntries hquotas
  have hreload : (store.setUpload uploadId entry directory).reloadAfterUnknown ext =
      ⟨⟨store.state.quotas, entries, none⟩, root⟩ := by
    simp [FileMultipartStore.reloadAfterUnknown, FileMultipartStore.setUpload, hload]
  rw [hreload]
  refine ⟨hinv, fun other => ?_⟩
  rw [view_getElem?]
  exact hview other

/-- Putting back a snapshot that is there already changes no quota. -/
theorem FileMultipartStore.Inv.quotas_same (h : store.Inv ext issued)
    (hview : store.view[uploadId]? = some snapshot) :
    WithinQuotas store.state.quotas
      ((store.view.insert uploadId snapshot).toList.map Prod.snd) := by
  refine h.viewQuotas.perm (FinMap.values_perm (f := fun s => s) (g := fun s => s) fun other => ?_)
  rw [FinMap.getElem?_insert_eq]
  by_cases hother : uploadId = other
  · rw [if_pos hother, ← hother, hview]
  · rw [if_neg hother]

theorem validateCandidate_ok {state : FileMultipartState} {u : Unit}
    (h : state.validateCandidate uploadId snapshot = .ok u) :
    WithinQuotas state.quotas
      ((((state.entries.toList.filter fun entry => entry.1 ≠ uploadId).map
        fun entry => entry.2.reducer.snapshot)) ++ [snapshot]) := by
  apply reconstructFileMultipartQuotas_isOk.mp
  simp only [FileMultipartState.validateCandidate, bind_eq_ok] at h
  obtain ⟨result, hresult, -⟩ := h
  refine ⟨result, ?_⟩
  cases hquotas : reconstructFileMultipartQuotas
      (((state.entries.toList.filter fun entry => entry.1 ≠ uploadId).map
        fun entry => entry.2.reducer.snapshot) ++ [snapshot]) state.quotas with
  | ok value =>
      rw [hquotas] at hresult
      exact congrArg Except.ok (Except.ok.inj hresult)
  | error error =>
      rw [hquotas] at hresult
      cases hresult

/-- The quotas that a candidate was checked against are those of the view
with the candidate in it. -/
theorem validateCandidate_quotas {u : Unit}
    (h : store.state.validateCandidate uploadId snapshot = .ok u) :
    WithinQuotas store.state.quotas
      ((store.view.insert uploadId snapshot).toList.map Prod.snd) := by
  refine (validateCandidate_ok h).perm ?_
  have hinsert := (FinMap.toList_insert_perm store.view uploadId snapshot).map Prod.snd
  refine (List.Perm.trans ?_ hinsert.symm)
  rw [List.map_append, List.map_singleton]
  refine List.Perm.append_right _ ?_
  -- Both sides list the snapshots of the other uploads.
  have hkeyed : (store.state.entries.toList.map fun entry =>
        (entry.1, entry.2.reducer.snapshot)).Perm store.view.toList := by
    have hnodup : ∀ l : List (String × FileMultipartSnapshotV1), (l.map Prod.fst).Nodup → l.Nodup :=
      fun l hl => .of_map Prod.fst hl
    refine (List.perm_ext_iff_of_nodup (hnodup _ ?_) (hnodup _ ?_)).mpr ?_
    · rw [List.map_map]
      exact FinMap.nodup_toList_keys _
    · exact FinMap.nodup_toList_keys _
    · rintro ⟨other, value⟩
      simp only [List.mem_map, Prod.mk.injEq, Prod.exists, FinMap.mem_toList, view_getElem?,
        Option.map_eq_some_iff]
      constructor
      · rintro ⟨_, entry, hentry, rfl, rfl⟩
        exact ⟨entry, hentry, rfl⟩
      · rintro ⟨entry, hentry, rfl⟩
        exact ⟨other, entry, hentry, rfl, rfl⟩
  have hfilter := (hkeyed.filter fun p => p.1 ≠ uploadId).map Prod.snd
  rw [List.filter_map, List.map_map] at hfilter
  exact hfilter

end Store

/-! ### Transitions -/

section Transition

variable {issued : List Uuid} {store : FileMultipartStore} {entry : FileMultipartEntry}
  {event : FileMultipartEventV1} {candidate : FileMultipartReducer} {faults : WriteFaults}
  {eventId : Uuid} {transition : FileMultipartTransitionV1}

/-- A fresh reducer takes the next event as such. -/
theorem applied_ofSnapshot {ext : Externals}
    (hsequence : event.sequence = snapshot.finalEventSequence + 1)
    (h : (FileMultipartReducer.ofSnapshot snapshot).applied ext event = .ok candidate) :
    NextEvent ext snapshot event candidate.snapshot := by
  rw [FileMultipartReducer.applied] at h
  rcases (FileMultipartReducer.ofSnapshot snapshot).apply_cases ext event with
    ⟨error, happly⟩ | ⟨hfloor, -⟩ | ⟨hmem, -⟩ |
    ⟨canonical, next, hversion, hbytes, -, -, -, -, happlied, happly⟩
  · rw [happly] at h
    cases h
  · exfalso
    have : event.sequence ≤ snapshot.finalEventSequence := hfloor
    omega
  · exact absurd hmem Std.TreeMap.not_mem_emptyc
  · rw [happly] at h
    obtain rfl := Except.ok.inj h
    exact ⟨hversion, hsequence, ⟨canonical, hbytes⟩, happlied⟩

theorem prepareEvent_ok {ext : Externals} {state : FileMultipartState}
    (h : state.prepareEvent ext uploadId eventId transition = .ok (entry, event, candidate)) :
    state.entries[uploadId]? = some entry ∧
      NextEvent ext entry.reducer.snapshot event candidate.snapshot ∧
      event.eventId = eventId ∧ event.transition = transition ∧
      entry.reducer.snapshot.identity = some event.identity ∧
      state.validateCandidate uploadId candidate.snapshot = .ok () := by
  simp only [FileMultipartState.prepareEvent, bind_eq_ok, okOr_eq_ok, rejectIf_eq_ok, exists_const,
    pure_eq_ok, Prod.mk.injEq] at h
  obtain ⟨_, -, entry', hentry, identity, hidentity, -, reducer, hreducer, candidate', happlied, _,
    hquotas, rfl, rfl, rfl⟩ := h
  rw [eq_ofSnapshot hreducer] at happlied
  exact ⟨hentry, applied_ofSnapshot rfl happlied, rfl, rfl, hidentity, hquotas⟩

/-- A transition that starts here keeps the store loadable: fewer events than
a reducer replays stand behind the stored snapshot, the log starts at the
first event if the compaction will publish a snapshot without replacing the
log, and there is another sequence number. -/
def FileMultipartStore.Safe (store : FileMultipartStore) (faults : WriteFaults)
    (uploadId : String) : Prop :=
  ∀ entry ∈ store.state.entries[uploadId]?, ∀ directory ∈ store.root[uploadId]?,
    entry.log.nextSequence + 1 < u64Bound ∧
      entry.log.nextSequence ≤ directory.snapshotSequence + maxReplayEvents ∧
      (splitsCompaction faults.snapshot faults.log = true →
        ∀ file ∈ directory.log, ∀ first ∈ file.frames.head?, first.sequence = 1)

/-- A log with a single event is not compacted. -/
theorem not_shouldCompact (hcount : log.eventCount = 1)
    (hbytes : log.byteLen ≤ frameLen maxEventPayloadBytes) : log.shouldCompact = false := by
  simp only [EventLog.shouldCompact, hcount, decide_eq_false_iff_not, not_or, not_le]
  refine ⟨by decide, lt_of_le_of_lt hbytes (by decide)⟩

/-- A log that is compacted after an append starts where it started before. -/
theorem tracks_head_append {file : LogFile FileMultipartEventV1}
    (htracks : log.Tracks ext.eventVec directory.toLogDisk history)
    (hadmits : log.Admits ext.eventVec event) (hfile : directory.log = some file)
    (hcompact : (log.advanced ext.eventVec event).shouldCompact = true)
    (hstart : ∀ first ∈ file.frames.head?, first.sequence = 1) :
    ∀ first ∈ (file.appendFrame ext.eventVec ⟨log.nextSequence, event⟩).frames.head?,
      first.sequence = 1 := by
  obtain ⟨file', hfile', hclean⟩ := htracks.clean
  obtain rfl := Option.some.inj (hfile.symm.trans hfile')
  have hframes : directory.frames = file.frames := by simp [LogDisk.frames, hfile]
  intro first hfirst
  rw [LogFile.appendFrame_clean hclean] at hfirst
  cases hcases : file.frames with
  | nil =>
      have hcount : (log.advanced ext.eventVec event).eventCount = 1 := by
        simp [EventLog.advanced, htracks.eventCount, hframes, hcases]
      have hbytes : (log.advanced ext.eventVec event).byteLen ≤ frameLen maxEventPayloadBytes := by
        have := hadmits.payload_le
        simp only [EventLog.advanced, htracks.byteLen, hframes, hcases, framesLen_nil, frameLen]
        omega
      rw [not_shouldCompact hcount hbytes] at hcompact
      cases hcompact
  | cons head rest =>
      simp only [hcases, List.cons_append, List.head?_cons, Option.mem_def,
        Option.some.injEq] at hfirst
      exact hfirst ▸ hstart head (by rw [hcases]; rfl)

/-- The compaction after an append: the store keeps agreeing with its
directories, and with the snapshot of the event in memory. -/
theorem FileMultipartStore.Inv.compactUpload (h : store.Inv ext issued) (faults : WriteFaults)
    (hkept : directory.Kept ext issued uploadId history candidate.snapshot)
    (htracks : log.Tracks ext.eventVec directory.toLogDisk history)
    (hstart : log.shouldCompact = true → splitsCompaction faults.snapshot faults.log = true →
      ∀ first ∈ directory.frames.head?, first.sequence = 1)
    (hquotas : WithinQuotas store.state.quotas
      ((store.view.insert uploadId candidate.snapshot).toList.map Prod.snd)) :
    (store.compactUpload ext faults uploadId ⟨candidate, log⟩ directory).Inv ext issued ∧
      ∀ other : String,
        (store.compactUpload ext faults uploadId ⟨candidate, log⟩ directory).view[other]? =
          (store.view.insert uploadId candidate.snapshot)[other]? := by
  cases hcompact : log.shouldCompact with
  | false =>
      simp only [FileMultipartStore.compactUpload, hcompact, Bool.false_eq_true, if_false]
      exact ⟨h.setUpload _ hkept htracks hquotas, setUpload_view _ _ _ _⟩
  | true =>
      have hfinal : (log.snapshotOf candidate.snapshot).finalSequence = history.length := by
        rw [EventLog.snapshotOf, htracks.nextSequence, Nat.add_sub_cancel]
      have hempty : ∀ disk : UploadDirectory,
          disk.snapshot = some (log.snapshotOf candidate.snapshot) →
          history.length ≤ disk.snapshotSequence + maxReplayEvents := by
        intro disk hdisk
        rw [LogDisk.snapshotSequence, hdisk, Option.map_some, Option.getD_some, hfinal]
        exact Nat.le_add_right _ _
      obtain ⟨hcompacted, htracks'⟩ := hkept.holds.compact htracks
      rcases EventLog.compact_cases ext.snapshotVec faults.snapshot faults.log log
        directory.toLogDisk candidate.snapshot with
        ⟨error, hknown, hresult⟩ | ⟨husable, hsplit, error, reload, hreload, hresult⟩ |
        ⟨husable, hresult⟩ | ⟨husable, hresult⟩
      · simp only [FileMultipartStore.compactUpload, hcompact, if_true, hresult, hknown,
          Bool.false_eq_true, if_false]
        exact ⟨h.setUpload _ hkept htracks hquotas, setUpload_view _ _ _ _⟩
      · have hpublished := hkept.holds.publish htracks (hstart hcompact hsplit)
        have hkept' : UploadDirectory.Kept ext issued uploadId
            { directory with snapshot := some (log.snapshotOf candidate.snapshot) } history
            candidate.snapshot := ⟨hpublished, hempty _ rfl, hkept.issued⟩
        simp only [FileMultipartStore.compactUpload, hcompact, if_true, hresult, hreload]
        cases reload with
        | true =>
            simp only [if_true]
            exact h.reload _ hkept' hquotas
        | false =>
            have hlog : { log with reloadRequired := false } = log := by rw [← husable]
            simp only [Bool.false_eq_true, if_false, hlog]
            refine ⟨h.setUpload _ hkept' ?_ hquotas, setUpload_view _ _ _ _⟩
            exact ⟨htracks.usable, htracks.nextSequence, htracks.eventCount, htracks.byteLen,
              htracks.clean⟩
      · simp only [FileMultipartStore.compactUpload, hcompact, if_true, hresult,
          PersistenceError.isMutationUnknown]
        exact h.reload _ ⟨hcompacted, hempty _ rfl, hkept.issued⟩ hquotas
      · simp only [FileMultipartStore.compactUpload, hcompact, if_true, hresult]
        refine ⟨?_, setUpload_view _ _ _ _⟩
        exact h.setUpload ⟨.ofSnapshot candidate.snapshot, _⟩
          ⟨hcompacted, hempty _ rfl, hkept.issued⟩ htracks' hquotas

/-- What a transition does to the snapshots in memory. -/
inductive TransitionOutcome (faults : WriteFaults) (store store' : FileMultipartStore)
    (uploadId : String) (candidate : FileMultipartSnapshotV1) :
    Except MutationFailure Unit → Prop
  /-- The event is logged, although a failed write may hide that. -/
  | stored (result : Except MutationFailure Unit)
      (hresult : result = .ok () ∨
        (faults.append ≠ none ∧ ∃ error, result = .error ⟨error, true⟩))
      (hview : ∀ other : String,
        store'.view[other]? = (store.view.insert uploadId candidate)[other]?) :
      TransitionOutcome faults store store' uploadId candidate result
  /-- The event is not logged. -/
  | failed (failure : MutationFailure)
      (hview : ∀ other : String, store'.view[other]? = store.view[other]?) :
      TransitionOutcome faults store store' uploadId candidate (.error failure)

theorem FileMultipartStore.Inv.finish (h : store.Inv ext issued) : store.finish = (.ok (), store) := by
  simp [FileMultipartStore.finish, FileMultipartState.ensureHealthy, h.healthy]

/-- A transition is about to be logged. -/
structure Prepared (ext : StoreExternals) (issued : List Uuid) (store : FileMultipartStore)
    (uploadId : String) (entry : FileMultipartEntry) (event : FileMultipartEventV1)
    (candidate : FileMultipartSnapshotV1) (directory : UploadDirectory)
    (history : List (LoggedEvent FileMultipartEventV1)) : Prop where
  entry_eq : store.state.entries[uploadId]? = some entry
  directory_eq : store.root[uploadId]? = some directory
  kept : directory.Kept ext issued uploadId history entry.reducer.snapshot
  tracks : entry.log.Tracks ext.eventVec directory.toLogDisk history
  next : NextEvent ext.toExternals entry.reducer.snapshot event candidate
  fresh : event.eventId ∉ issued
  quotas : WithinQuotas store.state.quotas
    ((store.view.insert uploadId candidate).toList.map Prod.snd)

theorem FileMultipartStore.Inv.prepared (h : store.Inv ext issued) (hid : eventId ∉ issued)
    (hprepare : store.state.prepareEvent ext.toExternals uploadId eventId transition =
      .ok (entry, event, candidate)) :
    ∃ directory history,
      Prepared ext issued store uploadId entry event candidate.snapshot directory history := by
  obtain ⟨hentry, hevent, rfl, -, -, hvalidate⟩ := prepareEvent_ok hprepare
  rcases h.uploads uploadId with ⟨hnone, -⟩ | ⟨entry', directory, history, he, hr, hk, ht⟩
  · rw [hentry] at hnone
    cases hnone
  · obtain rfl := Option.some.inj (hentry.symm.trans he)
    exact ⟨directory, history, hentry, hr, hk, ht, hevent, hid, validateCandidate_quotas hvalidate⟩

section Prepared

variable {candidate : FileMultipartSnapshotV1} {file : LogFile FileMultipartEventV1}
  (p : Prepared ext issued store uploadId entry event candidate directory history)

include p

theorem Prepared.view : store.view[uploadId]? = some entry.reducer.snapshot := by
  rw [view_getElem?, p.entry_eq]
  rfl

theorem Prepared.getD : store.root.getD uploadId {} = directory := by
  rw [Std.TreeMap.getD_eq_getD_getElem?, p.directory_eq]
  rfl

/-- Putting back the snapshot in memory changes nothing. -/
theorem Prepared.view_same (other : String) :
    (store.view.insert uploadId entry.reducer.snapshot)[other]? = store.view[other]? := by
  rw [FinMap.getElem?_insert_eq]
  by_cases hother : uploadId = other
  · rw [if_pos hother, ← hother, p.view]
  · rw [if_neg hother]

/-- With the whole frame in the log, the event is one more of the history. -/
theorem Prepared.logged (hsafe : store.Safe faults uploadId)
    (hadmits : entry.log.Admits ext.eventVec event) (hfile : directory.log = some file) :
    UploadDirectory.Kept ext (event.eventId :: issued) uploadId
        { directory with
          log := some (file.appendFrame ext.eventVec ⟨entry.log.nextSequence, event⟩) }
        (history ++ [⟨entry.log.nextSequence, event⟩]) candidate ∧
      (entry.log.advanced ext.eventVec event).Tracks ext.eventVec
        { directory.toLogDisk with
          log := some (file.appendFrame ext.eventVec ⟨entry.log.nextSequence, event⟩) }
        (history ++ [⟨entry.log.nextSequence, event⟩]) := by
  obtain ⟨hbound, hroom, -⟩ := hsafe entry p.entry_eq directory p.directory_eq
  rw [p.tracks.nextSequence] at hbound hroom
  have hnew : event.eventId ∉ history.map fun logged => logged.payload.eventId := by
    intro hmem
    obtain ⟨logged, hlogged, heq⟩ := List.mem_map.mp hmem
    exact p.fresh (heq ▸ p.kept.issued logged hlogged)
  refine ⟨⟨p.kept.holds.append p.tracks hadmits hfile hbound p.next hnew, ?_, ?_⟩,
    p.tracks.append event hfile hbound⟩
  · rw [List.length_append, List.length_singleton]
    exact hroom
  · intro logged hmem
    rcases List.mem_append.mp hmem with hold | hlast
    · exact List.mem_cons_of_mem _ (p.kept.issued logged hold)
    · rw [List.mem_singleton.mp hlast]
      exact List.mem_cons_self

/-- A torn frame leaves the history as it was. -/
theorem Prepared.torn (hadmits : entry.log.Admits ext.eventVec event)
    (hfile : directory.log = some file) {written : ℕ}
    (hwritten : written < frameLen (payloadLen ext.eventVec event)) :
    UploadDirectory.Kept ext (event.eventId :: issued) uploadId
      { directory with
        log := some (file.appendPart ext.eventVec ⟨entry.log.nextSequence, event⟩ written) }
      history entry.reducer.snapshot :=
  ⟨p.kept.holds.appendPart p.tracks hadmits hfile hwritten, p.kept.replayable,
    fun logged hlogged => List.mem_cons_of_mem _ (p.kept.issued logged hlogged)⟩

end Prepared

theorem FileMultipartStore.Inv.applyTransition (h : store.Inv ext issued) (hid : eventId ∉ issued)
    (hsafe : store.Safe faults uploadId)
    (hprepare : store.state.prepareEvent ext.toExternals uploadId eventId transition =
      .ok (entry, event, candidate)) :
    (store.applyTransition ext faults uploadId eventId transition).2.Inv ext (eventId :: issued) ∧
      TransitionOutcome faults store (store.applyTransition ext faults uploadId eventId transition).2
        uploadId candidate.snapshot
        (store.applyTransition ext faults uploadId eventId transition).1 := by
  obtain ⟨directory, history, p⟩ := h.prepared hid hprepare
  obtain ⟨-, -, rfl, -⟩ := prepareEvent_ok hprepare
  have hinv := h.mono (List.subset_cons_self event.eventId issued)
  obtain ⟨-, -, hsplit⟩ := hsafe entry p.entry_eq directory p.directory_eq
  rcases EventLog.append_cases ext.eventVec faults.append entry.log directory.log event with
    ⟨error, hknown, happend⟩ | ⟨file, hfile, hadmits, happend⟩
  · -- Nothing was written.
    have hresult : store.applyTransition ext faults uploadId event.eventId transition =
        (.error ⟨persistenceError error, false⟩, store.setUpload uploadId entry directory) := by
      simp only [FileMultipartStore.applyTransition, hprepare, p.getD, happend, hknown,
        Bool.false_eq_true, if_false]
    rw [hresult]
    refine ⟨hinv.setUpload _ (p.kept.mono (List.subset_cons_self _ _)) p.tracks
      (h.quotas_same p.view), .failed _ fun other => ?_⟩
    rw [setUpload_view, p.view_same]
  obtain ⟨hlogged, htracks⟩ := p.logged hsafe hadmits hfile
  rcases happend with happend | ⟨hfault, operation, happend⟩ |
    ⟨operation, written, hfault, happend⟩
  · -- The append succeeded, and a compaction may follow.
    have hstart := fun hcompact hsplits =>
      tracks_head_append p.tracks hadmits hfile hcompact (hsplit hsplits file hfile)
    obtain ⟨hinv', hview'⟩ := hinv.compactUpload faults hlogged htracks hstart p.quotas
    have hresult : store.applyTransition ext faults uploadId event.eventId transition =
        (.ok (), store.compactUpload ext faults uploadId
          ⟨candidate, entry.log.advanced ext.eventVec event⟩
          { directory with
            log := some (file.appendFrame ext.eventVec ⟨entry.log.nextSequence, event⟩) }) := by
      simp only [FileMultipartStore.applyTransition, hprepare, p.getD, happend]
      exact hinv'.finish
    rw [hresult]
    exact ⟨hinv', .stored _ (.inl rfl) hview'⟩
  · -- The frame is there, but the caller is told that it may not be.
    obtain ⟨hinv', hview'⟩ := hinv.reload
      ⟨entry.reducer, { entry.log with reloadRequired := true }⟩ hlogged p.quotas
    have hresult : store.applyTransition ext faults uploadId event.eventId transition =
        (.error ⟨persistenceError (.mutationUnknown operation), true⟩,
          (store.setUpload uploadId ⟨entry.reducer, { entry.log with reloadRequired := true }⟩
            { directory with log := some (file.appendFrame ext.eventVec
              ⟨entry.log.nextSequence, event⟩) }).reloadAfterUnknown ext) := by
      simp only [FileMultipartStore.applyTransition, hprepare, p.getD, happend,
        PersistenceError.isMutationUnknown, if_true]
    rw [hresult]
    exact ⟨hinv', .stored _ (.inr ⟨by simp [hfault], _, rfl⟩) hview'⟩
  · have hresult : store.applyTransition ext faults uploadId event.eventId transition =
        (.error ⟨persistenceError (.mutationUnknown operation), true⟩,
          (store.setUpload uploadId ⟨entry.reducer, { entry.log with reloadRequired := true }⟩
            { directory with log := some (file.appendPart ext.eventVec
              ⟨entry.log.nextSequence, event⟩ written) }).reloadAfterUnknown ext) := by
      simp only [FileMultipartStore.applyTransition, hprepare, p.getD, happend,
        PersistenceError.isMutationUnknown, if_true]
    rw [hresult]
    by_cases hwritten : written < frameLen (payloadLen ext.eventVec event)
    · -- A torn frame is cut off again by the reload.
      obtain ⟨hinv', hview'⟩ := hinv.reload
        ⟨entry.reducer, { entry.log with reloadRequired := true }⟩
        (p.torn hadmits hfile hwritten) (h.quotas_same p.view)
      exact ⟨hinv', .failed _ fun other => by rw [hview', p.view_same]⟩
    · have hwhole : file.appendPart ext.eventVec ⟨entry.log.nextSequence, event⟩ written =
          file.appendFrame ext.eventVec ⟨entry.log.nextSequence, event⟩ := by
        rw [LogFile.appendPart, if_neg hwritten]
      rw [hwhole]
      obtain ⟨hinv', hview'⟩ := hinv.reload
        ⟨entry.reducer, { entry.log with reloadRequired := true }⟩ hlogged p.quotas
      exact ⟨hinv', .stored _ (.inr ⟨by simp [hfault], _, rfl⟩) hview'⟩

end Transition

/-! ### Creation -/

section Creation

variable {issued : List Uuid} {store : FileMultipartStore} {event : FileMultipartEventV1}
  {candidate : FileMultipartReducer} {eventId : Uuid} {upload : MultipartUpload}

/-- The log of a new directory. -/
def freshLog : EventLog := ⟨1, 0, 0, false⟩

theorem openEventLog_missing (toVec : FileMultipartEventV1 → Option Bytes) :
    openEventLog toVec none 0 = (.ok (freshLog, []), {}) := by
  simp [openEventLog, scanFrames, scanFramesFrom, LogFile.byteLen, framesLen, freshLog,
    u64Bound]

theorem prepareUpload_ok {state : FileMultipartState}
    (h : state.prepareUpload ext eventId upload = .ok (event, candidate)) :
    validateUploadDirectoryName ext upload.identity.uploadId = .ok () ∧
      state.entries[upload.identity.uploadId]? = none ∧
      NextEvent ext.toExternals {} event candidate.snapshot ∧ event.eventId = eventId ∧
      (∃ identity, candidate.snapshot.identity = some identity ∧
        identity.uploadId = upload.identity.uploadId) ∧
      state.validateCandidate upload.identity.uploadId candidate.snapshot = .ok () := by
  simp only [FileMultipartState.prepareUpload, bind_eq_ok, rejectIf_eq_ok, exists_const, pure_eq_ok,
    Prod.mk.injEq] at h
  obtain ⟨_, -, _, hname, hnew, candidate', happlied, _, hquotas, rfl, rfl⟩ := h
  have hevent : NextEvent ext.toExternals {} _ candidate'.snapshot :=
    applied_ofSnapshot rfl happlied
  refine ⟨hname, ?_, hevent, rfl, ⟨upload.identity, ?_, rfl⟩, hquotas⟩
  · rw [Std.TreeMap.contains_eq_isSome_getElem?] at hnew
    simpa using hnew
  · obtain ⟨next, hreduce, hnext, -⟩ := applyEvent_ok hevent.applies
    cases reduceTransition_reduced hreduce
    rw [hnext]

/-- A directory with the first event of an upload. -/
theorem UploadDirectory.kept_created {uploadId : String}
    (hname : validateUploadDirectoryName ext uploadId = .ok ())
    (hevent : NextEvent ext.toExternals {} event snapshot)
    (hadmits : freshLog.Admits ext.eventVec event)
    (hidentity : ∃ identity, snapshot.identity = some identity ∧ identity.uploadId = uploadId) :
    UploadDirectory.Kept ext (event.eventId :: issued) uploadId
        { log := some ⟨[⟨1, event⟩], 0⟩ } [⟨1, event⟩] snapshot ∧
      (freshLog.advanced ext.eventVec event).Tracks ext.eventVec
        (⟨none, some ⟨[⟨1, event⟩], 0⟩⟩ :
          LogDisk FileMultipartSnapshotV1 FileMultipartEventV1) [⟨1, event⟩] := by
  have hkeeps : LogDisk.Keeps ext.eventVec
      (⟨none, some {}⟩ : LogDisk FileMultipartSnapshotV1 FileMultipartEventV1) [] := by
    refine ⟨trivial, by simp [u64Bound], Nat.le_refl 0, ⟨0, rfl, .inl rfl⟩, ?_⟩
    rintro _ ⟨⟩
    simp [LogFile.byteLen]
  have htracks : freshLog.Tracks ext.eventVec
      (⟨none, some {}⟩ : LogDisk FileMultipartSnapshotV1 FileMultipartEventV1) [] :=
    ⟨rfl, rfl, rfl, rfl, {}, rfl, rfl⟩
  have hbound : ([] : List (LoggedEvent FileMultipartEventV1)).length + 2 < u64Bound := by
    simp [u64Bound]
  refine ⟨⟨?_, by simp [maxReplayEvents], by simp⟩, htracks.append event rfl hbound⟩
  refine
    { name := hname
      log := rfl
      temporaries := rfl
      keeps := hkeeps.append htracks hadmits rfl hbound
      loggable := ?_
      ids := List.nodup_singleton _
      replay := ?_
      covered := ?_
      identity := hidentity }
  · intro logged hlogged
    obtain rfl := List.mem_singleton.mp hlogged
    exact ⟨hevent.version, hevent.sequence, hevent.bytes⟩
  · rw [replaySnapshot_cons, hevent.applies, ok_bind]
    rfl
  · rintro _ ⟨⟩

/-- An upload that is not in memory has no directory. -/
theorem FileMultipartStore.Inv.root_none (h : store.Inv ext issued) {uploadId : String}
    (hentry : store.state.entries[uploadId]? = none) : store.root[uploadId]? = none := by
  rcases h.uploads uploadId with ⟨-, hnone⟩ | ⟨entry, _, _, he, -⟩
  · exact hnone
  · rw [hentry] at he
    cases he

theorem FileMultipartStore.Inv.createUpload (h : store.Inv ext issued)
    (eventId : Uuid) (upload : MultipartUpload) :
    (store.createUpload ext none eventId upload).2.Inv ext (eventId :: issued) ∧
      ((∃ failure, (store.createUpload ext none eventId upload).1 = .error failure ∧
          ∀ other : String, (store.createUpload ext none eventId upload).2.view[other]? =
            store.view[other]?) ∨
        ∃ event candidate, store.state.prepareUpload ext eventId upload = .ok (event, candidate) ∧
          (store.createUpload ext none eventId upload).1 = .ok () ∧
          ∀ other : String, (store.createUpload ext none eventId upload).2.view[other]? =
            (store.view.insert upload.identity.uploadId candidate.snapshot)[other]?) := by
  have hsub : issued ⊆ eventId :: issued := List.subset_cons_self _ _
  have hinv := h.mono hsub
  cases hprepare : store.state.prepareUpload ext eventId upload with
  | error error =>
      have hresult : store.createUpload ext none eventId upload =
          (.error (preMutation error), store) := by
        simp only [FileMultipartStore.createUpload, hprepare]
      rw [hresult]
      exact ⟨hinv, .inl ⟨_, rfl, fun _ => rfl⟩⟩
  | ok prepared =>
      obtain ⟨event, candidate⟩ := prepared
      obtain ⟨hname, hentry, hevent, rfl, hidentity, hvalidate⟩ := prepareUpload_ok hprepare
      have hroot := h.root_none hentry
      have hgetD : store.root.getD upload.identity.uploadId {} = {} := by
        rw [Std.TreeMap.getD_eq_getD_getElem?, hroot]
        rfl
      rcases EventLog.append_cases ext.eventVec none freshLog (some {}) event with
        ⟨error, hknown, happend⟩ |
          ⟨file, hfile, hadmits, happend | ⟨hfault, -⟩ | ⟨_, _, hfault, -⟩⟩
      · -- The log and the directory are removed again.
        have hresult : store.createUpload ext none event.eventId upload =
            (.error ⟨persistenceError error, false⟩,
              { store with root := store.root.erase upload.identity.uploadId }) := by
          simp [FileMultipartStore.createUpload, hprepare, hgetD, openEventLog_missing, happend,
            hknown, UploadDirectory.fileNames]
        rw [hresult]
        refine ⟨⟨hinv.healthy, fun other => ?_, hinv.quotas⟩, .inl ⟨_, rfl, fun _ => rfl⟩⟩
        have hsame : (store.root.erase upload.identity.uploadId)[other]? = store.root[other]? := by
          rw [FinMap.getElem?_erase_eq]
          by_cases hother : upload.identity.uploadId = other
          · rw [if_pos hother, ← hother, hroot]
          · rw [if_neg hother]
        rw [hsame]
        exact hinv.uploads other
      · obtain rfl := Option.some.inj hfile
        obtain ⟨hkept, htracks⟩ :=
          UploadDirectory.kept_created hname hevent hadmits hidentity
        have hresult : store.createUpload ext none event.eventId upload =
            (.ok (), store.setUpload upload.identity.uploadId
              ⟨candidate, freshLog.advanced ext.eventVec event⟩
              { log := some ⟨[⟨1, event⟩], 0⟩ }) := by
          simp only [FileMultipartStore.createUpload, hprepare, hgetD, openEventLog_missing,
            happend, ne_eq, not_true_eq_false, if_false]
          rfl
        rw [hresult]
        refine ⟨?_, .inr ⟨event, candidate, rfl, rfl, setUpload_view _ _ _ _⟩⟩
        exact hinv.setUpload _ hkept htracks (validateCandidate_quotas hvalidate)
      · cases hfault
      · cases hfault

end Creation

end Maskura.Multipart
