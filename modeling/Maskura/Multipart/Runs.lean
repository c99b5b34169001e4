import Maskura.Lib.Transition
import Maskura.Multipart.Protocol

/-!
Runs of the reducer: any sequence of events that `apply` accepts, from the
empty reducer or from one rebuilt from a valid snapshot.
-/

namespace Maskura.Multipart

open Maskura.Lib Maskura.Lib.FencedCommit Maskura.Persistence

variable {ext : Externals} {event : FileMultipartEventV1}

/-! ### One event -/

theorem applyEvent_ok {snapshot snapshot' : FileMultipartSnapshotV1}
    (h : applyEvent ext snapshot event = .ok snapshot') :
    ∃ candidate, reduceTransition ext snapshot event = .ok candidate ∧
      snapshot' = { candidate with finalEventSequence := event.sequence } ∧
      validateSnapshot snapshot' = .ok () := by
  simp only [applyEvent, bind_eq_ok, pure_eq_ok] at h
  obtain ⟨candidate, hreduce, _, hvalid, rfl⟩ := h
  exact ⟨candidate, hreduce, rfl, hvalid⟩

theorem applyEvent_step {snapshot snapshot' : FileMultipartSnapshotV1}
    (hvalid : validateSnapshot snapshot = .ok ())
    (h : applyEvent ext snapshot event = .ok snapshot') :
    Step recordResult snapshot.phase event.transition.action snapshot'.phase := by
  obtain ⟨candidate, hreduce, rfl, -⟩ := applyEvent_ok h
  have hstep := reduceTransition_step hvalid hreduce
  exact hstep

/-- Every way `apply` can end: refused, recognised as a duplicate, or applied
as the successor of the last event. Only the last one changes the reducer. -/
theorem FileMultipartReducer.apply_cases (ext : Externals) (self : FileMultipartReducer)
    (event : FileMultipartEventV1) :
    (∃ error, self.apply ext event = (.error error, self)) ∨
      (event.sequence ≤ self.replayFloor ∧
        self.apply ext event = (.ok .compactedDuplicate, self)) ∨
      (event.sequence ∈ self.replayed ∧ self.apply ext event = (.ok .exactDuplicate, self)) ∨
      ∃ canonical candidate, event.schemaVersion = fileMultipartSchemaVersion ∧
        ext.eventBytes event = some canonical ∧ event.eventId ∉ self.eventIds ∧
        self.replayed.size < maxReplayEvents ∧
        event.sequence = self.snapshot.finalEventSequence + 1 ∧ event.sequence < u64Bound ∧
        applyEvent ext self.snapshot event = .ok candidate ∧
        self.apply ext event = (.ok .applied,
          { self with
            snapshot := candidate
            replayed := self.replayed.insert event.sequence canonical
            eventIds := self.eventIds.insert event.eventId event.sequence }) := by
  by_cases hversion : event.schemaVersion = fileMultipartSchemaVersion
  swap
  · exact .inl ⟨.unsupportedVersion event.schemaVersion, by
      simp [FileMultipartReducer.apply, hversion]⟩
  by_cases hfloor : event.sequence ≤ self.replayFloor
  · exact .inr (.inl ⟨hfloor, by simp [FileMultipartReducer.apply, hversion, hfloor]⟩)
  cases hcanonical : ext.eventBytes event with
  | none =>
      exact .inl ⟨.corruptSnapshot, by
        simp [FileMultipartReducer.apply, hversion, hfloor, hcanonical]⟩
  | some canonical =>
      cases hprevious : self.replayed[event.sequence]? with
      | some previous =>
          by_cases hsame : previous = canonical
          · refine .inr (.inr (.inl ⟨?_, ?_⟩))
            · exact Std.TreeMap.mem_iff_isSome_getElem?.mpr (by rw [hprevious]; rfl)
            · simp [FileMultipartReducer.apply, hversion, hfloor, hcanonical, hprevious, hsame]
          · exact .inl ⟨.conflictingDuplicate, by
              simp [FileMultipartReducer.apply, hversion, hfloor, hcanonical, hprevious, hsame]⟩
      | none =>
          by_cases hid : self.eventIds.contains event.eventId
          · exact .inl ⟨.conflictingDuplicate, by
              simp [FileMultipartReducer.apply, hversion, hfloor, hcanonical, hprevious, hid]⟩
          by_cases hsize : self.replayed.size ≥ maxReplayEvents
          · exact .inl ⟨.boundExceeded, by
              simp [FileMultipartReducer.apply, hversion, hfloor, hcanonical, hprevious, hid,
                hsize]⟩
          by_cases hbound : self.snapshot.finalEventSequence + 1 ≥ u64Bound
          · exact .inl ⟨.invalidSequence, by
              simp [FileMultipartReducer.apply, hversion, hfloor, hcanonical, hprevious, hid,
                hsize, hbound]⟩
          by_cases hsequence : event.sequence = self.snapshot.finalEventSequence + 1
          swap
          · exact .inl ⟨.invalidSequence, by
              simp [FileMultipartReducer.apply, hversion, hfloor, hcanonical, hprevious, hid,
                hsize, hbound, hsequence]⟩
          have hlt : ¬u64Bound ≤ event.sequence := by omega
          cases hcandidate : applyEvent ext self.snapshot event with
          | error error =>
              exact .inl ⟨error, by
                simp [FileMultipartReducer.apply, hversion, hfloor, hcanonical, hprevious, hid,
                  hsize, hlt, ← hsequence, hcandidate]⟩
          | ok candidate =>
              refine .inr (.inr (.inr ⟨canonical, candidate, hversion, rfl, ?_, by omega, hsequence,
                by omega, rfl, ?_⟩))
              · rwa [Std.TreeMap.mem_iff_contains]
              · simp [FileMultipartReducer.apply, hversion, hfloor, hcanonical, hprevious, hid,
                  hsize, hlt, ← hsequence, hcandidate]

/-! ### Runs -/

/-- The runs of a reducer that starts empty or from a snapshot; a step is an
event that `apply` accepts. -/
def reducerSystem (ext : Externals) : System FileMultipartReducer FileMultipartEventV1 where
  init self := self = .empty ∨
    ∃ snapshot, FileMultipartReducer.fromSnapshot snapshot = .ok self
  step self event self' := ∃ outcome, self.apply ext event = (.ok outcome, self')

/-- What a reducer remembers belongs to its past. -/
structure FileMultipartReducer.Inv (reducer : FileMultipartReducer) : Prop where
  valid : validateSnapshot reducer.snapshot = .ok ()
  floor_le : reducer.replayFloor ≤ reducer.snapshot.finalEventSequence
  replayed_le : ∀ sequence ∈ reducer.replayed, sequence ≤ reducer.snapshot.finalEventSequence

theorem FileMultipartReducer.inv_init {self : FileMultipartReducer}
    (h : (reducerSystem ext).init self) : self.Inv := by
  rcases h with rfl | ⟨snapshot, h⟩
  · refine ⟨by rfl, Nat.le_refl 0, ?_⟩
    intro sequence hsequence
    exact absurd hsequence Std.TreeMap.not_mem_emptyc
  · simp only [FileMultipartReducer.fromSnapshot, bind_eq_ok, pure_eq_ok] at h
    obtain ⟨_, hvalid, rfl⟩ := h
    refine ⟨hvalid, Nat.le_refl _, ?_⟩
    intro sequence hsequence
    exact absurd hsequence Std.TreeMap.not_mem_emptyc

/-- An event that is not applied leaves the reducer alone, and one that is
applied takes a step of the protocol. -/
theorem FileMultipartReducer.Inv.step_cases {self self' : FileMultipartReducer} (hself : self.Inv)
    (h : (reducerSystem ext).step self event self') :
    self' = self ∨ (applyEvent ext self.snapshot event = .ok self'.snapshot ∧ self'.Inv) := by
  obtain ⟨outcome, h⟩ := h
  rcases self.apply_cases ext event with ⟨error, happly⟩ | ⟨-, happly⟩ | ⟨-, happly⟩ |
    ⟨canonical, candidate, -, -, -, -, hsequence, -, hcandidate, happly⟩
  · rw [happly] at h
    cases h
  · rw [happly] at h
    exact .inl (congrArg Prod.snd h).symm
  · rw [happly] at h
    exact .inl (congrArg Prod.snd h).symm
  · rw [happly] at h
    obtain rfl := congrArg Prod.snd h
    obtain ⟨_, -, hfinal, hvalid⟩ := applyEvent_ok hcandidate
    have hfinal' : candidate.finalEventSequence = self.snapshot.finalEventSequence + 1 := by
      rw [hfinal]
      exact hsequence
    refine .inr ⟨hcandidate, hvalid, ?_, ?_⟩
    · have := hself.floor_le
      show self.replayFloor ≤ candidate.finalEventSequence
      omega
    · intro sequence hmem
      show sequence ≤ candidate.finalEventSequence
      rcases Std.TreeMap.mem_insert.mp hmem with heq | hold
      · have : event.sequence = sequence := Std.LawfulEqCmp.eq_of_compare heq
        omega
      · have := hself.replayed_le sequence hold
        omega

theorem FileMultipartReducer.Inv.step {self self' : FileMultipartReducer} (hself : self.Inv)
    (h : (reducerSystem ext).step self event self') : self'.Inv := by
  rcases hself.step_cases h with rfl | ⟨-, hinv⟩
  · exact hself
  · exact hinv

theorem FileMultipartReducer.Inv.applied {self self' : FileMultipartReducer} (hself : self.Inv)
    (h : self.apply ext event = (.ok .applied, self')) :
    self'.Inv ∧ Step recordResult self.snapshot.phase event.transition.action
      self'.snapshot.phase := by
  refine ⟨hself.step ⟨_, h⟩, ?_⟩
  rcases self.apply_cases ext event with ⟨_, happly⟩ | ⟨-, happly⟩ | ⟨-, happly⟩ |
    ⟨_, candidate, -, -, -, -, -, -, hcandidate, happly⟩
  · rw [happly] at h
    cases h
  · rw [happly] at h
    cases h
  · rw [happly] at h
    cases h
  · rw [happly] at h
    obtain rfl := congrArg Prod.snd h
    exact applyEvent_step hself.valid hcandidate

theorem reducer_inv {self : FileMultipartReducer} (h : (reducerSystem ext).Reachable self) :
    self.Inv :=
  h.invariant (fun _ hinit => FileMultipartReducer.inv_init hinit)
    (fun _ _ _ hinv hstep => hinv.step hstep)

/-- A property of phases that the protocol preserves holds along every run
that starts with it. -/
theorem steps_preserve_phase {P : UploadPhase → Prop}
    (hP : ∀ {p q : UploadPhase} {a : UploadAction}, P p → Step recordResult p a q → P q)
    {self self' : FileMultipartReducer} (hself : self.Inv)
    (hsteps : (reducerSystem ext).Steps self self') (hp : P self.snapshot.phase) :
    self'.Inv ∧ P self'.snapshot.phase := by
  refine hsteps.preserves (I := fun s => s.Inv ∧ P s.snapshot.phase) ?_ ⟨hself, hp⟩
  rintro a event b ⟨ha, hpa⟩ hstep
  rcases ha.step_cases hstep with rfl | ⟨hcandidate, hb⟩
  · exact ⟨ha, hpa⟩
  · exact ⟨hb, hP hpa (applyEvent_step ha.valid hcandidate)⟩

/-- An event that is no step of the protocol is not applied: it changes
nothing, and unless it repeats an old sequence number it is an error. -/
theorem FileMultipartReducer.Inv.not_applied {self : FileMultipartReducer} (hself : self.Inv)
    (hno : ∀ q, ¬Step recordResult self.snapshot.phase event.transition.action q) :
    (self.apply ext event).1 ≠ .ok .applied ∧ (self.apply ext event).2 = self ∧
      (self.snapshot.finalEventSequence < event.sequence →
        ∃ error, (self.apply ext event).1 = .error error) := by
  have hfloor := hself.floor_le
  rcases self.apply_cases ext event with ⟨error, happly⟩ | ⟨hold, happly⟩ | ⟨hold, happly⟩ |
    ⟨canonical, candidate, -, -, -, -, -, -, hcandidate, -⟩
  · rw [happly]
    exact ⟨by simp, rfl, fun _ => ⟨error, rfl⟩⟩
  · rw [happly]
    exact ⟨by simp, rfl, fun hnew => by omega⟩
  · have := hself.replayed_le _ hold
    rw [happly]
    exact ⟨by simp, rfl, fun hnew => by omega⟩
  · exact absurd (applyEvent_step hself.valid hcandidate) (hno _)

/-! ### A sample upload

The upload of the reducer's own tests, completed with one part. -/

def sampleIdentity : MultipartIdentity :=
  ⟨"tenant", "policy", "bucket", "key", "01926b5e-0000-7000-8000-000000000001"⟩

def sampleUpload : MultipartUpload where
  identity := sampleIdentity
  namespaceEpoch := some 7
  snapshot :=
    { metadata := []
      tags := []
      checksumMode := some "SHA256"
      destination := .object [("mode", .string "local")]
      pluginSnapshot := .object [("revision", .string "one")]
      maxStagedBytes := 1000 }
  lifecycle := .opened
  stagedBytes := 0
  reservedBytes := 0
  createdAtMs := 100
  expiresAtMs := 10000
  updatedAtMs := 100
  tombstoneUntilMs := none
  completeRequestFingerprint := none
  completionLeaseOwner := none
  completionLeaseExpiresAtMs := none
  completionFencingToken := 0
  destinationOperationId := none
  publishingStartedAtMs := none
  destinationCommit := none
  completionResult := none

def samplePending : PendingPart :=
  ⟨sampleIdentity.uploadId, 1, 1, "multipart/01926b5e-0000-7000-8000-000000000001/1/1", 200⟩

def samplePart : MultipartPart :=
  ⟨sampleIdentity.uploadId, 1, 1, samplePending.artifactKey, "etag-1", "sha-1", 200, 201⟩

/-- The operation id of `sampleIdentity` and the fingerprint `fingerprint`. -/
def sampleOperation : Uuid := 0xc8091e8685be59d190e501146a2cae25

def samplePermit (fencingToken : ℕ) : DestinationCommitPermit :=
  ⟨sampleIdentity.uploadId, "fingerprint", fencingToken, sampleOperation⟩

def sampleResult : MultipartCompletionResult :=
  ⟨some "final-etag", "final-sha", some "version", 200, 180, none⟩

def sampleRecord : DestinationCommitRecord := ⟨sampleOperation, sampleResult, 400⟩

/-- Texts as `serde_json` writes them where nothing needs an escape; an event
is told from others by its sequence number. -/
def sampleExternals : Externals where
  permitBytes identity fingerprint :=
    ("[\x7b\"tenant_id\":\"" ++ identity.tenantId ++ "\",\"credential_policy_id\":\"" ++
      identity.credentialPolicyId ++ "\",\"bucket\":\"" ++ identity.bucket ++
      "\",\"key\":\"" ++ identity.key ++ "\",\"upload_id\":\"" ++ identity.uploadId ++
      "\"\x7d,\"" ++ fingerprint ++ "\"]").toUTF8.toList
  newV5 _ _ := sampleOperation
  eventBytes event := some (beBytes 8 event.sequence)

def sampleEvent (sequence : ℕ) (transition : FileMultipartTransitionV1) : FileMultipartEventV1 :=
  ⟨fileMultipartSchemaVersion, sequence, BitVec.ofNat 128 sequence, sampleIdentity, transition⟩

def sampleEvents : List FileMultipartEventV1 :=
  [sampleEvent 1 (.uploadCreated sampleUpload),
    sampleEvent 2 (.partReserved samplePending 150),
    sampleEvent 3 (.partCommitted samplePending samplePart 201),
    sampleEvent 4 (.completionAcquired "fingerprint" [⟨1, "etag-1", none⟩] "owner" 310 1 300),
    sampleEvent 5 (.completionAcquired "fingerprint" [⟨1, "etag-1", none⟩] "owner" 350 2 320),
    sampleEvent 6 (.destinationCommitBegun (samplePermit 2) 330),
    sampleEvent 7 (.destinationCommitRecorded (samplePermit 2) sampleRecord 400),
    sampleEvent 8 (.completionCompleted (samplePermit 2) sampleResult 410 86400410)]

/-- The reducer after the first `n` sample events. -/
def sampleReducer (n : ℕ) : FileMultipartReducer :=
  (sampleEvents.take n).foldl (fun reducer event => (reducer.apply sampleExternals event).2) .empty

theorem sampleReducer_applied (n : Fin 8) :
    (sampleReducer n).apply sampleExternals (sampleEvents.get n) =
      (.ok .applied, sampleReducer (n + 1)) := by
  have hall : ∀ n : Fin 8,
      ((sampleReducer n).apply sampleExternals (sampleEvents.get n)).1.toOption = some .applied := by
    decide
  have hnext : sampleReducer (n + 1) =
      ((sampleReducer n).apply sampleExternals (sampleEvents.get n)).2 := by
    rw [sampleReducer, List.take_succ_eq_append_getElem n.isLt, List.foldl_append]
    rfl
  rw [hnext]
  refine Prod.ext ?_ rfl
  have := hall n
  cases happly : ((sampleReducer n).apply sampleExternals (sampleEvents.get n)).1 with
  | ok outcome =>
      rw [happly] at this
      exact congrArg Except.ok (Option.some.inj this)
  | error error =>
      rw [happly] at this
      cases this

theorem sampleReducer_steps {m n : ℕ} (hmn : m ≤ n) (hn : n ≤ 8) :
    (reducerSystem sampleExternals).Steps (sampleReducer m) (sampleReducer n) := by
  induction n, hmn using Nat.le_induction with
  | base => exact .refl
  | succ n _ ih =>
      exact (ih (by omega)).tail ⟨_, _, sampleReducer_applied ⟨n, by omega⟩⟩

theorem sampleReducer_reachable {n : ℕ} (hn : n ≤ 8) :
    (reducerSystem sampleExternals).Reachable (sampleReducer n) :=
  ⟨sampleReducer 0, .inl rfl, sampleReducer_steps n.zero_le hn⟩

end Maskura.Multipart
