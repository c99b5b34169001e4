import Maskura.Multipart.Runs

/-!
What the reducer guarantees about completions: a recorded destination commit
is final, tokens fence off old claimants, and a claimed completion works on
frozen parts.
-/

namespace Maskura.Multipart

open Maskura.Lib Maskura.Lib.FencedCommit Maskura.Persistence

variable {ext : Externals} {snapshot : FileMultipartSnapshotV1} {upload : MultipartUpload}

/-! ### Reading phases back -/

theorem committed_upload {record : DestinationCommitRecord}
    (h : snapshot.phase.Committed recordResult record) (hupload : snapshot.upload = some upload) :
    (upload.lifecycle = .publishing ∧ upload.destinationCommit = some record) ∨
      (upload.lifecycle = .completed ∧ upload.completionResult = some record.result ∧
        (upload.destinationCommit = some record ∨ upload.destinationCommit = none)) := by
  rw [phase_of_upload hupload] at h
  cases hlifecycle : upload.lifecycle with
  | publishing =>
      rw [phase_publishing hlifecycle] at h
      exact .inl ⟨rfl, h⟩
  | completed =>
      rw [phase_completed hlifecycle] at h
      exact .inr ⟨rfl, h⟩
  | opened => rw [phase_opened hlifecycle] at h; exact h.elim
  | completing => rw [phase_completing hlifecycle] at h; exact h.elim
  | aborted => rw [phase_cancelled (.inl hlifecycle)] at h; exact h.elim
  | expired => rw [phase_cancelled (.inr hlifecycle)] at h; exact h.elim

theorem phase_token (hvalid : validateSnapshot snapshot = .ok ())
    (hupload : snapshot.upload = some upload) :
    snapshot.phase.token = some upload.completionFencingToken := by
  have hupload' := (validateSnapshot_upload hvalid hupload).2
  have hfields := validateUpload_fields hupload'
  rw [phase_of_upload hupload]
  cases hlifecycle : upload.lifecycle with
  | opened => simp [MultipartUpload.phase, hlifecycle, Phase.token, token_of_opened hupload' hlifecycle]
  | completing => simp [MultipartUpload.phase, hlifecycle, Phase.token]
  | publishing => simp [MultipartUpload.phase, hlifecycle, Phase.token]
  | completed => simp [MultipartUpload.phase, hlifecycle, Phase.token]
  | aborted =>
      simp only [lifecycleFields, hlifecycle, rejectIf_eq_ok, not_or, not_not] at hfields
      simp [MultipartUpload.phase, hlifecycle, Phase.token, hfields]
  | expired =>
      simp only [lifecycleFields, hlifecycle, rejectIf_eq_ok, not_or, not_not] at hfields
      simp [MultipartUpload.phase, hlifecycle, Phase.token, hfields]

theorem upload_of_token {token : ℕ} (h : snapshot.phase.token = some token) :
    ∃ upload, snapshot.upload = some upload := by
  cases hupload : snapshot.upload with
  | some upload => exact ⟨upload, rfl⟩
  | none =>
      cases hidentity : snapshot.identity <;>
        simp [FileMultipartSnapshotV1.phase, hupload, hidentity, Phase.token] at h

theorem completed_not_claimed (h : snapshot.phase.Claimed)
    (hupload : snapshot.upload = some upload) :
    upload.lifecycle ≠ .completed := by
  intro hcompleted
  rw [phase_of_upload hupload, phase_completed hcompleted] at h
  exact h

/-! ### A recorded commit is final -/

/-- The result of an upload that is still publishing is open. -/
theorem result_of_publishing (h : validateUpload upload = .ok ())
    (hpublishing : upload.lifecycle = .publishing) : upload.completionResult = none := by
  have hfields := validateUpload_fields h
  simp only [lifecycleFields, hpublishing, rejectIf_eq_ok, not_or,
    Option.not_isSome_iff_eq_none] at hfields
  exact hfields.2.2.2.2.2.2.1

/-- Once a destination commit is recorded, the upload is publishing with
exactly this commit until it is completed with exactly its result, no commit
is recorded or released again, and no other result ever appears. -/
theorem destination_commit_immutable {reducer₀ reducer₁ reducer : FileMultipartReducer}
    {event : FileMultipartEventV1} {permit : DestinationCommitPermit}
    {record : DestinationCommitRecord} {updatedAtMs : ℤ}
    (hreachable : (reducerSystem ext).Reachable reducer₀)
    (hevent : event.transition = .destinationCommitRecorded permit record updatedAtMs)
    (happly : reducer₀.apply ext event = (.ok .applied, reducer₁))
    (hsteps : (reducerSystem ext).Steps reducer₁ reducer) :
    (∀ upload, reducer.snapshot.upload = some upload →
        (upload.lifecycle = .publishing ∧ upload.destinationCommit = some record ∧
            upload.completionResult = none) ∨
          (upload.lifecycle = .completed ∧ upload.completionResult = some record.result ∧
            (upload.destinationCommit = some record ∨ upload.destinationCommit = none))) ∧
      ∀ later : FileMultipartEventV1,
        (∃ permit' record' at', later.transition =
            .destinationCommitRecorded permit' record' at') ∨
          (∃ permit' at', later.transition = .destinationCommitReleased permit' at') →
        (reducer.apply ext later).1 ≠ .ok .applied ∧ (reducer.apply ext later).2 = reducer ∧
          (reducer.snapshot.finalEventSequence < later.sequence →
            ∃ error, (reducer.apply ext later).1 = .error error) := by
  have hinv₀ := reducer_inv hreachable
  obtain ⟨hinv₁, hrecord⟩ := hinv₀.applied happly
  rw [hevent] at hrecord
  obtain ⟨hinv, hphase⟩ :=
    steps_preserve_phase (fun hp h => hp.step h) hinv₁ hsteps hrecord.committed_of_record
  refine ⟨fun upload hupload => ?_, fun later hlater => hinv.not_applied fun q => ?_⟩
  · rcases committed_upload hphase hupload with ⟨hpublishing, hcommit⟩ | hcompleted
    · have hvalid := (validateSnapshot_upload hinv.valid hupload).2
      exact .inl ⟨hpublishing, hcommit, result_of_publishing hvalid hpublishing⟩
    · exact .inr hcompleted
  · rcases hlater with ⟨permit', record', at', h⟩ | ⟨permit', at', h⟩
    · rw [h]
      exact hphase.not_step.1 record' q
    · rw [h]
      exact hphase.not_step.2 q

/-- After the commit of the sample upload is recorded and the upload completed,
a release of its permit is an error that changes nothing. -/
theorem sample_commit_immutable :
    ((sampleReducer 8).apply sampleExternals
        (sampleEvent 9 (.destinationCommitReleased (samplePermit 2) 420))).2 = sampleReducer 8 ∧
      ∃ error, ((sampleReducer 8).apply sampleExternals
        (sampleEvent 9 (.destinationCommitReleased (samplePermit 2) 420))).1 = .error error := by
  have himmutable := destination_commit_immutable (sampleReducer_reachable (n := 6) (by decide)) rfl
    (sampleReducer_applied 6) (sampleReducer_steps (m := 7) (n := 8) (by decide) (by decide))
  have hreleased := himmutable.2 (sampleEvent 9 (.destinationCommitReleased (samplePermit 2) 420))
    (.inr ⟨_, _, rfl⟩)
  exact ⟨hreleased.2.1, hreleased.2.2 (by decide)⟩

/-! ### Current parts -/

/-- The parts a completion works on. -/
def FileMultipartSnapshotV1.currentParts (snapshot : FileMultipartSnapshotV1) :
    List MultipartPart :=
  (snapshot.attempts.filter fun attempt => attempt.lifecycle = .current).map (·.part)

theorem filter_eraseIdx {α : Type} {p : α → Bool} {l : List α} {index : ℕ} {a : α}
    (hget : l[index]? = some a) (ha : p a = false) : (l.eraseIdx index).filter p = l.filter p := by
  induction l generalizing index with
  | nil => rfl
  | cons b l ih =>
      cases index with
      | zero =>
          obtain rfl : b = a := by simpa using hget
          simp [ha]
      | succ index =>
          have hrest : l[index]? = some a := by simpa using hget
          by_cases hb : p b <;> simp [hb, ih hrest]

/-- While a worker holds the upload, no event touches the current parts. -/
theorem reduceTransition_currentParts {snapshot snapshot' : FileMultipartSnapshotV1}
    {event : FileMultipartEventV1} (h : reduceTransition ext snapshot event = .ok snapshot')
    (hbefore : snapshot.phase.Claimed) (hafter : snapshot'.phase.Claimed) :
    snapshot'.currentParts = snapshot.currentParts := by
  have hreduced := reduceTransition_reduced h
  generalize event.transition = transition at hreduced
  cases hreduced with
  | uploadCreated hnone hupload =>
      simp [FileMultipartSnapshotV1.phase, hupload, hnone, Phase.Claimed] at hbefore
  | partReplaced hupload hopen | partReserved hupload hopen | partCommitted hupload hopen =>
      rw [phase_of_upload hupload, phase_opened hopen] at hbefore
      exact hbefore.elim
  | @artifactDeleted upload _ _ _ _ _ hupload hget hkey hcurrent =>
      have hactive : isActive upload.lifecycle := by
        rw [phase_of_upload hupload] at hbefore
        cases hlifecycle : upload.lifecycle <;>
          simp_all [MultipartUpload.phase, Phase.Claimed, isActive]
      have hfilter := filter_eraseIdx
        (p := fun attempt : FilePartAttemptV1 => decide (attempt.lifecycle = .current)) hget
        (decide_eq_false (hcurrent hactive))
      simp only [FileMultipartSnapshotV1.currentParts, hfilter]
  | completionCompleted | uploadAborted | uploadExpired => exact hafter.elim
  | _ => rfl

/-- Along every run the current parts of a claimed upload stay the same until
it is completed. -/
theorem steps_currentParts {reducer reducer' : FileMultipartReducer} {request : Option String}
    (hinv : reducer.Inv) (hkept : reducer.snapshot.phase.RequestKept request)
    (hsteps : (reducerSystem ext).Steps reducer reducer')
    (hclaimed : reducer'.snapshot.phase.Claimed) :
    reducer'.snapshot.currentParts = reducer.snapshot.currentParts := by
  have hrun := hsteps.preserves
    (I := fun r => r.Inv ∧ r.snapshot.phase.RequestKept request ∧
      (r.snapshot.phase.Claimed → r.snapshot.currentParts = reducer.snapshot.currentParts))
    ?_ ⟨hinv, hkept, fun _ => rfl⟩
  · exact hrun.2.2 hclaimed
  rintro a event b ⟨ha, hkepta, hparts⟩ hstep
  rcases ha.step_cases hstep with rfl | ⟨hcandidate, hb⟩
  · exact ⟨ha, hkepta, hparts⟩
  · have hphase := applyEvent_step ha.valid hcandidate
    refine ⟨hb, hkepta.step hphase, fun hclaimedb => ?_⟩
    have hclaimeda := hkepta.claimed hphase hclaimedb
    obtain ⟨candidate, hreduce, hcandidate, -⟩ := applyEvent_ok hcandidate
    rw [← hparts hclaimeda, hcandidate]
    rw [hcandidate] at hclaimedb
    have hsame := reduceTransition_currentParts hreduce hclaimeda hclaimedb
    exact hsame

/-! ### Fencing -/

/-- The fencing token an event carries for the completion it belongs to. -/
def FileMultipartTransitionV1.fencingToken : FileMultipartTransitionV1 → Option ℕ
  | .completionRenewed fencingToken _ _ => some fencingToken
  | .destinationCommitBegun permit _ => some permit.fencingToken
  | .destinationCommitRecorded permit _ _ => some permit.fencingToken
  | .destinationCommitReleased permit _ => some permit.fencingToken
  | .completionCompleted permit _ _ _ => some permit.fencingToken
  | _ => none

@[simp] theorem action_token (transition : FileMultipartTransitionV1) :
    transition.action.token = transition.fencingToken := by
  cases transition <;> rfl

theorem claimed_upload {request : Option String} (h : snapshot.phase.RequestKept request)
    (hupload : snapshot.upload = some upload) (hcompleted : upload.lifecycle ≠ .completed) :
    snapshot.phase.Claimed ∧ upload.completeRequestFingerprint = request := by
  rw [phase_of_upload hupload] at h ⊢
  cases hlifecycle : upload.lifecycle with
  | completing => rw [phase_completing hlifecycle] at h ⊢; exact ⟨trivial, h⟩
  | publishing => rw [phase_publishing hlifecycle] at h ⊢; exact ⟨trivial, h⟩
  | completed => exact absurd hlifecycle hcompleted
  | opened => rw [phase_opened hlifecycle] at h; exact h.elim
  | aborted => rw [phase_cancelled (.inl hlifecycle)] at h; exact h.elim
  | expired => rw [phase_cancelled (.inr hlifecycle)] at h; exact h.elim

/-- Along every run the token never decreases. -/
theorem steps_token_le {reducer reducer' : FileMultipartReducer} (hinv : reducer.Inv)
    (hsteps : (reducerSystem ext).Steps reducer reducer') {upload upload' : MultipartUpload}
    (hupload : reducer.snapshot.upload = some upload)
    (hupload' : reducer'.snapshot.upload = some upload') :
    upload.completionFencingToken ≤ upload'.completionFencingToken := by
  have hfrom : reducer.snapshot.phase.TokenFrom upload.completionFencingToken := by
    refine ⟨?_, fun u hu => ?_⟩
    · rw [phase_of_upload hupload]
      exact phase_ne_fresh upload
    · rw [phase_token hinv.valid hupload] at hu
      exact Nat.le_of_eq (Option.some.inj hu)
  obtain ⟨hinv', hfrom'⟩ := steps_preserve_phase (fun hp h => hp.step h) hinv hsteps hfrom
  exact hfrom'.2 _ (phase_token hinv'.valid hupload')

/-- An applied claim raises the token by one. -/
theorem applied_claim_token {reducer reducer' : FileMultipartReducer} (hinv : reducer.Inv)
    {event : FileMultipartEventV1} {fingerprint : String} {selectedParts : List CompletePart}
    {owner : String} {leaseExpiresAtMs : ℤ} {fencingToken : ℕ} {updatedAtMs : ℤ}
    (hevent : event.transition = .completionAcquired fingerprint selectedParts owner
      leaseExpiresAtMs fencingToken updatedAtMs)
    (happly : reducer.apply ext event = (.ok .applied, reducer')) :
    ∃ upload upload', reducer.snapshot.upload = some upload ∧
      reducer'.snapshot.upload = some upload' ∧
      upload'.completionFencingToken = upload.completionFencingToken + 1 := by
  obtain ⟨hinv', hstep⟩ := hinv.applied happly
  rw [hevent] at hstep
  obtain ⟨token, hbefore, -, hafter⟩ := hstep.token_claim
  obtain ⟨upload, hupload⟩ := upload_of_token hbefore
  obtain ⟨upload', hupload'⟩ := upload_of_token hafter
  rw [phase_token hinv.valid hupload] at hbefore
  rw [phase_token hinv'.valid hupload'] at hafter
  refine ⟨upload, upload', hupload, hupload', ?_⟩
  rw [Option.some.inj hbefore, Option.some.inj hafter]

/-- Fencing of completions. (a) Tokens never decrease, and every applied claim
raises the token by one; (b) from an applied claim on, the fingerprint and the
current parts stay the same until the upload is completed; (c) an event with a
token of an earlier claim is not applied and changes nothing, and it is an
error unless its sequence number was consumed before. -/
theorem completion_fencing {reducer : FileMultipartReducer}
    (hreachable : (reducerSystem ext).Reachable reducer) :
    (∀ reducer' upload upload', (reducerSystem ext).Steps reducer reducer' →
        reducer.snapshot.upload = some upload → reducer'.snapshot.upload = some upload' →
        upload.completionFencingToken ≤ upload'.completionFencingToken) ∧
      (∀ (event : FileMultipartEventV1) fingerprint selectedParts owner leaseExpiresAtMs
          fencingToken updatedAtMs reducer₁,
        event.transition = .completionAcquired fingerprint selectedParts owner leaseExpiresAtMs
          fencingToken updatedAtMs →
        reducer.apply ext event = (.ok .applied, reducer₁) →
        ∃ upload upload₁, reducer.snapshot.upload = some upload ∧
          reducer₁.snapshot.upload = some upload₁ ∧
          upload₁.completionFencingToken = upload.completionFencingToken + 1 ∧
          ∀ reducer' upload', (reducerSystem ext).Steps reducer₁ reducer' →
            reducer'.snapshot.upload = some upload' → upload'.lifecycle ≠ .completed →
            upload'.completeRequestFingerprint = upload₁.completeRequestFingerprint ∧
              reducer'.snapshot.currentParts = reducer₁.snapshot.currentParts) ∧
      ∀ (event : FileMultipartEventV1) token upload,
        event.transition.fencingToken = some token → reducer.snapshot.upload = some upload →
        token < upload.completionFencingToken →
        (reducer.apply ext event).1 ≠ .ok .applied ∧ (reducer.apply ext event).2 = reducer ∧
          (reducer.snapshot.finalEventSequence < event.sequence →
            ∃ error, (reducer.apply ext event).1 = .error error) := by
  have hinv := reducer_inv hreachable
  refine ⟨?_, ?_, ?_⟩
  · intro reducer' upload upload' hsteps hupload hupload'
    exact steps_token_le hinv hsteps hupload hupload'
  · intro event fingerprint selectedParts owner leaseExpiresAtMs fencingToken updatedAtMs reducer₁
      hevent happly
    obtain ⟨upload, upload₁, hupload, hupload₁, htoken⟩ := applied_claim_token hinv hevent happly
    refine ⟨upload, upload₁, hupload, hupload₁, htoken, ?_⟩
    intro reducer' upload' hsteps hupload' hcompleted
    obtain ⟨hinv₁, hclaim⟩ := hinv.applied happly
    rw [hevent] at hclaim
    have hkept₁ := hclaim.requestKept_claim
    have hclaimed₁ := hclaim.claimed_claim
    obtain ⟨-, hkept⟩ := steps_preserve_phase (fun hp h => hp.step h) hinv₁ hsteps hkept₁
    obtain ⟨hclaimed, hfingerprint⟩ := claimed_upload hkept hupload' hcompleted
    have hcompleted₁ := completed_not_claimed hclaimed₁ hupload₁
    obtain ⟨-, hfingerprint₁⟩ := claimed_upload hkept₁ hupload₁ hcompleted₁
    exact ⟨hfingerprint.trans hfingerprint₁.symm,
      steps_currentParts hinv₁ hkept₁ hsteps hclaimed⟩
  · intro event token upload htoken hupload hlt
    refine hinv.not_applied fun q hstep => ?_
    have hsame := hstep.token_eq (by rw [action_token]; exact htoken)
    rw [phase_token hinv.valid hupload] at hsame
    have := Option.some.inj hsame
    omega

/-- The first owner of the sample completion is fenced off by the second. -/
theorem sample_completion_fencing :
    ((sampleReducer 5).apply sampleExternals
        (sampleEvent 6 (.destinationCommitBegun (samplePermit 1) 330))).2 = sampleReducer 5 ∧
      ∃ error, ((sampleReducer 5).apply sampleExternals
        (sampleEvent 6 (.destinationCommitBegun (samplePermit 1) 330))).1 = .error error := by
  obtain ⟨upload, hupload, htoken⟩ : ∃ upload, (sampleReducer 5).snapshot.upload = some upload ∧
      upload.completionFencingToken = 2 := ⟨_, rfl, rfl⟩
  have hfencing := completion_fencing (sampleReducer_reachable (n := 5) (by decide))
  have hstale := hfencing.2.2 (sampleEvent 6 (.destinationCommitBegun (samplePermit 1) 330)) 1
    upload rfl hupload (by omega)
  exact ⟨hstale.2.1, hstale.2.2 (by decide)⟩

end Maskura.Multipart
