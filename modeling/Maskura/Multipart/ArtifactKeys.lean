import Maskura.Lib.Framing
import Maskura.Lib.Numeral
import Maskura.Multipart.Repository

/-!
The keys that `begin_part` hands out. The key of a reservation ends with a number
one above the highest attempt that the upload still has for the part, so keys
come back once the highest attempt is deleted.
-/

namespace Maskura.Multipart

open Maskura.Lib Maskura.Persistence

/-! ### Carrying a decision out -/

section Perform

variable {ext : Externals} {ε α : Type} {uploads : Uploads} {write : Write} {eventId : Uuid}
  {uploadId : String} {transition : FileMultipartTransitionV1}

theorem prepare_ok {candidate : FileMultipartSnapshotV1}
    (h : uploads.prepare ext uploadId eventId transition = .ok candidate) :
    ∃ snapshot event, uploads[uploadId]? = some snapshot ∧ event.transition = transition ∧
      NextEvent ext snapshot event candidate := by
  simp only [Uploads.prepare, bind_eq_ok, okOr_eq_ok, rejectIf_eq_ok, exists_const, pure_eq_ok] at h
  obtain ⟨snapshot, hsnapshot, identity, -, -, reducer, hreducer, reducer', happlied, rfl⟩ := h
  rw [eq_ofSnapshot hreducer] at happlied
  exact ⟨snapshot, _, hsnapshot, rfl, applied_ofSnapshot rfl happlied⟩

/-- Either nothing is stored, or the one snapshot that the decision was about. -/
theorem perform_cases (ext : Externals) (write : Write) (eventId : Uuid) (uploads : Uploads)
    (decision : Except ε (Decision ε α)) :
    (uploads.perform ext write eventId decision).2 = uploads ∨
      ∃ uploadId transition mapFailure value candidate,
        decision = .ok (.apply uploadId transition mapFailure value) ∧
        uploads.prepare ext uploadId eventId transition = .ok candidate ∧
        (uploads.perform ext write eventId decision).2 = uploads.insert uploadId candidate := by
  match decision with
  | .error _ => exact .inl rfl
  | .ok (.answer _) => exact .inl rfl
  | .ok (.apply uploadId transition mapFailure value) =>
      cases hprepare : uploads.prepare ext uploadId eventId transition with
      | error => exact .inl (by simp [Uploads.perform, hprepare])
      | ok candidate =>
          cases write with
          | refused => exact .inl (by simp [Uploads.perform, hprepare])
          | stored => exact .inr ⟨_, _, _, _, _, rfl, hprepare, by simp [Uploads.perform, hprepare]⟩
          | unknown error stored =>
              cases stored with
              | false => exact .inl (by simp [Uploads.perform, hprepare])
              | true =>
                  exact .inr ⟨_, _, _, _, _, rfl, hprepare, by simp [Uploads.perform, hprepare]⟩

/-- The caller is told of a success only when the snapshot is stored. -/
theorem perform_eq_ok {mapFailure : MutationFailure → ε} {value result : α} {uploads' : Uploads}
    (h : uploads.perform ext write eventId (.ok (.apply uploadId transition mapFailure value)) =
      (.ok result, uploads')) :
    result = value ∧ ∃ candidate, uploads.prepare ext uploadId eventId transition = .ok candidate ∧
      uploads' = uploads.insert uploadId candidate := by
  cases hprepare : uploads.prepare ext uploadId eventId transition with
  | error => simp [Uploads.perform, hprepare] at h
  | ok candidate =>
      cases write with
      | refused => simp [Uploads.perform, hprepare] at h
      | unknown => simp [Uploads.perform, hprepare] at h
      | stored =>
          simp only [Uploads.perform, hprepare, Prod.mk.injEq, Except.ok.injEq] at h
          exact ⟨h.1.symm, candidate, rfl, h.2.symm⟩

end Perform

/-! ### Keys -/

/-- The key tells the part and the attempt. -/
theorem stagedArtifactKey_inj {identity : MultipartIdentity} {partNumber attempt partNumber'
    attempt' : ℕ} (h : stagedArtifactKey identity partNumber attempt =
      stagedArtifactKey identity partNumber' attempt') :
    partNumber = partNumber' ∧ attempt = attempt' := by
  have hfree : ∀ n : ℕ, '/' ∉ Nat.toDigits 10 n := fun n hmem =>
    absurd (Numeral.allDigits_toDigits _ hmem) (by decide)
  have hkey : ∀ n m : ℕ, (stagedArtifactKey identity n m).toList =
      ("multipart/" ++ identity.tenantId ++ "/" ++ identity.uploadId ++ "/").toList ++
        (Nat.toDigits 10 n ++ '/' :: Nat.toDigits 10 m) := fun n m => by
    unfold stagedArtifactKey
    rw [String.toList_append, String.toList_append, String.toList_append,
      Numeral.toString_toList, Numeral.toString_toList, List.append_assoc, List.append_assoc]
    rfl
  have hlist := congrArg String.toList h
  rw [hkey, hkey] at hlist
  obtain ⟨hnumber, hattempt⟩ :=
    Framing.append_cons_inj (hfree _) (hfree _) (List.append_cancel_left hlist)
  exact ⟨Numeral.toDigits_injective hnumber, Numeral.toDigits_injective hattempt⟩

/-! ### The highest attempt -/

section MaxAttempt

variable {attempts attempts' : List FilePartAttemptV1} {partNumber : ℕ}

theorem maxAttempt_le_iff {bound : ℕ} : maxAttempt attempts partNumber ≤ bound ↔
    ∀ attempt ∈ attempts, attempt.part.partNumber = partNumber → attempt.part.attempt ≤ bound := by
  induction attempts with
  | nil => simp [maxAttempt]
  | cons attempt attempts ih =>
      rw [List.forall_mem_cons, ← ih]
      by_cases h : attempt.part.partNumber = partNumber <;> simp [maxAttempt, h]

theorem le_maxAttempt {attempt : FilePartAttemptV1} (h : attempt ∈ attempts) :
    attempt.part.attempt ≤ maxAttempt attempts attempt.part.partNumber :=
  maxAttempt_le_iff.1 le_rfl attempt h rfl

/-- Some attempt that stays is as high as any that goes. -/
theorem maxAttempt_mono (h : ∀ attempt ∈ attempts, ∃ attempt' ∈ attempts',
      attempt'.part.partNumber = attempt.part.partNumber ∧
        attempt.part.attempt ≤ attempt'.part.attempt) (partNumber : ℕ) :
    maxAttempt attempts partNumber ≤ maxAttempt attempts' partNumber := by
  refine maxAttempt_le_iff.2 ?_
  rintro attempt hattempt rfl
  obtain ⟨attempt', hattempt', hnumber, hle⟩ := h attempt hattempt
  exact hle.trans (hnumber ▸ le_maxAttempt hattempt')

/-- An attempt that is not the highest leaves a higher one behind. -/
theorem exists_higher {attempt : FilePartAttemptV1}
    (h : attempt.part.attempt < maxAttempt attempts attempt.part.partNumber) :
    ∃ attempt' ∈ attempts, attempt'.part.partNumber = attempt.part.partNumber ∧
      attempt.part.attempt < attempt'.part.attempt := by
  by_contra hnone
  refine absurd (maxAttempt_le_iff.2 fun attempt' hattempt' hnumber => ?_) (not_le.2 h)
  exact not_lt.1 fun hlt => hnone ⟨attempt', hattempt', hnumber, hlt⟩

end MaxAttempt

/-! ### What a transition does to the attempts -/

/-- Parts can still be reserved. -/
def FileMultipartSnapshotV1.IsOpen (snapshot : FileMultipartSnapshotV1) : Prop :=
  ∃ upload ∈ snapshot.upload, upload.lifecycle = .opened

/-- No attempt that `artifactKey` names and that may be deleted from the open upload is
the highest of its part. -/
def FileMultipartSnapshotV1.KeepsHighest (snapshot : FileMultipartSnapshotV1)
    (artifactKey : String) : Prop :=
  snapshot.IsOpen → ∀ attempt ∈ snapshot.attempts, attempt.part.artifactKey = artifactKey →
    attempt.lifecycle ≠ .current →
    attempt.part.attempt < maxAttempt snapshot.attempts attempt.part.partNumber

instance (snapshot : FileMultipartSnapshotV1) : Decidable snapshot.IsOpen :=
  inferInstanceAs (Decidable (∃ upload ∈ snapshot.upload, upload.lifecycle = .opened))

instance (snapshot : FileMultipartSnapshotV1) (artifactKey : String) :
    Decidable (snapshot.KeepsHighest artifactKey) :=
  inferInstanceAs (Decidable (snapshot.IsOpen → ∀ attempt ∈ snapshot.attempts,
    attempt.part.artifactKey = artifactKey → attempt.lifecycle ≠ .current →
    attempt.part.attempt < maxAttempt snapshot.attempts attempt.part.partNumber))

/-- The highest attempts of an open upload do not go down. -/
def FileMultipartSnapshotV1.Advances (snapshot snapshot' : FileMultipartSnapshotV1) : Prop :=
  snapshot'.IsOpen → snapshot.IsOpen ∧ ∀ partNumber,
    maxAttempt snapshot.attempts partNumber ≤ maxAttempt snapshot'.attempts partNumber

section Advances

variable {snapshot snapshot' : FileMultipartSnapshotV1} {identity : MultipartIdentity}

theorem Reduced.reserved {pending : PendingPart} {createdAtMs : ℤ}
    (h : Reduced snapshot identity (.partReserved pending createdAtMs) snapshot') :
    snapshot.IsOpen ∧ snapshot.Advances snapshot' ∧
      pending.attempt ≤ maxAttempt snapshot'.attempts pending.partNumber := by
  cases h with | partReserved hupload hopen
  refine ⟨⟨_, hupload, hopen⟩, fun _ => ⟨⟨_, hupload, hopen⟩, maxAttempt_mono fun attempt hmem =>
    ⟨attempt, List.mem_append_left _ hmem, rfl, le_rfl⟩⟩, ?_⟩
  have hmem : pendingAttempt pending createdAtMs ∈
      snapshot.attempts ++ [pendingAttempt pending createdAtMs] := by simp
  exact le_maxAttempt hmem

theorem retireCurrent_part (attempt : FilePartAttemptV1) :
    (retireCurrent attempt).part = attempt.part := by
  rw [retireCurrent, apply_ite FilePartAttemptV1.part, ite_self]

theorem Reduced.committed {pending : PendingPart} {part : MultipartPart} {updatedAtMs : ℤ}
    (h : Reduced snapshot identity (.partCommitted pending part updatedAtMs) snapshot') :
    snapshot.Advances snapshot' := by
  cases h with | @partCommitted _ _ _ _ _ index _ hupload hopen hget hnumber hattempt
  refine fun _ => ⟨⟨_, hupload, hopen⟩, maxAttempt_mono fun old hold => ?_⟩
  obtain ⟨j, hj⟩ := List.mem_iff_getElem?.1 hold
  by_cases hindex : index = j
  · -- The committed attempt keeps its number.
    subst hindex
    obtain rfl := Option.some.inj (hget.symm.trans hj)
    refine ⟨⟨.current, part, 0⟩, ?_, hnumber.symm, hattempt.le⟩
    refine List.mem_iff_getElem?.2 ⟨index, ?_⟩
    rw [commitAttempt, List.getElem?_set_self]
    simpa using (List.getElem?_eq_some_iff.1 hget).1
  · refine ⟨if old.part.partNumber = part.partNumber then retireCurrent old else old, ?_, ?_, ?_⟩
    · refine List.mem_iff_getElem?.2 ⟨j, ?_⟩
      rw [commitAttempt, List.getElem?_set_ne hindex, List.getElem?_map, hj]
      rfl
    · rw [apply_ite FilePartAttemptV1.part, retireCurrent_part, ite_self]
    · rw [apply_ite FilePartAttemptV1.part, retireCurrent_part, ite_self]

/-- Deleting an attempt that is not the highest. -/
theorem Reduced.deleted {artifactKey : String} {updatedAtMs : ℤ}
    (hkeeps : snapshot.KeepsHighest artifactKey)
    (h : Reduced snapshot identity (.artifactDeleted artifactKey updatedAtMs) snapshot') :
    snapshot.Advances snapshot' := by
  cases h with | @artifactDeleted upload _ attempt index _ _ hupload hget hkey hcurrent
  rintro ⟨upload', hupload', hopen⟩
  obtain rfl := Option.some.inj hupload'
  have hopen : upload.lifecycle = .opened := hopen
  have hopen' : snapshot.IsOpen := ⟨upload, hupload, hopen⟩
  have hlt := hkeeps hopen' attempt (List.mem_of_getElem? hget) hkey
    (hcurrent (by simp [hopen, isActive]))
  refine ⟨hopen', maxAttempt_mono fun old hold => ?_⟩
  have hother : ∀ other ∈ snapshot.attempts, other ≠ attempt →
      other ∈ snapshot.attempts.eraseIdx index := fun other hmem hne => by
    obtain ⟨j, hj⟩ := List.mem_iff_getElem?.1 hmem
    refine List.mem_eraseIdx_iff_getElem?.2 ⟨j, ?_, hj⟩
    rintro rfl
    exact hne (Option.some.inj (hj.symm.trans hget))
  by_cases hsame : old = attempt
  · subst hsame
    obtain ⟨higher, hmem, hnumber, hhigher⟩ := exists_higher hlt
    exact ⟨higher, hother higher hmem fun heq => by simp [heq] at hhigher, hnumber, hhigher.le⟩
  · exact ⟨old, hother old hold hsame, rfl, le_rfl⟩

theorem FileMultipartSnapshotV1.Advances.refl (snapshot : FileMultipartSnapshotV1) :
    snapshot.Advances snapshot :=
  fun hopen => ⟨hopen, fun _ => le_rfl⟩

theorem NextEvent.reduced {ext : Externals} {event : FileMultipartEventV1}
    (h : NextEvent ext snapshot event snapshot') :
    ∃ candidate, Reduced snapshot event.identity event.transition candidate ∧
      snapshot'.upload = candidate.upload ∧ snapshot'.attempts = candidate.attempts := by
  obtain ⟨candidate, hreduce, rfl, -⟩ := applyEvent_ok h.applies
  exact ⟨candidate, reduceTransition_reduced hreduce, rfl, rfl⟩

/-- Of a transition's result only the upload and the attempts count. -/
theorem FileMultipartSnapshotV1.Advances.congr {candidate : FileMultipartSnapshotV1}
    (h : snapshot.Advances candidate) (hupload : snapshot'.upload = candidate.upload)
    (hattempts : snapshot'.attempts = candidate.attempts) : snapshot.Advances snapshot' := by
  rw [FileMultipartSnapshotV1.Advances, FileMultipartSnapshotV1.IsOpen, hupload, hattempts]
  exact h

end Advances

/-! ### Runs -/

/-- A call that makes or removes attempts of an upload. -/
inductive PartCall
  | beginPart (partNumber reservedBytes : ℕ) (now : ℤ)
  | commitPart (pending : PendingPart) (part : MultipartPart) (clock : ℤ)
  | discardPending (pending : PendingPart) (clock : ℤ)
  | confirmArtifactDeleted (artifactKey : String) (clock : ℤ)

/-- A call, the id of its event, and what the write comes to. -/
structure PartStep where
  call : PartCall
  eventId : Uuid
  write : Write

/-- The snapshots, and the keys that successful reservations were given, oldest first. -/
structure PartRun where
  uploads : Uploads
  keys : List String

def PartRun.step (ext : Externals) (identity : MultipartIdentity) (run : PartRun)
    (step : PartStep) : PartRun :=
  let uploads := run.uploads
  match step.call with
  | .beginPart partNumber reservedBytes now =>
      match uploads.perform ext step.write step.eventId
          (uploads.beginPart identity partNumber reservedBytes now) with
      | (.ok pending, uploads) => ⟨uploads, run.keys ++ [pending.artifactKey]⟩
      | (.error _, uploads) => ⟨uploads, run.keys⟩
  | .commitPart pending part clock =>
      ⟨(uploads.perform ext step.write step.eventId
        (uploads.commitPart identity pending part clock)).2, run.keys⟩
  | .discardPending pending clock =>
      ⟨(uploads.perform ext step.write step.eventId
        (uploads.discardPending identity pending clock)).2, run.keys⟩
  | .confirmArtifactDeleted artifactKey clock =>
      ⟨(uploads.perform ext step.write step.eventId
        (uploads.confirmArtifactDeleted artifactKey clock)).2, run.keys⟩

/-- Calls for one upload in any order, from any snapshots. -/
def partSystem (ext : Externals) (identity : MultipartIdentity) : System PartRun PartStep :=
  .ofStep (fun run => run.keys = []) fun run => some ∘ run.step ext identity

/-- A call does not ask for the highest attempt of a part to be deleted. -/
def PartRun.Guard (identity : MultipartIdentity) (run : PartRun) (step : PartStep) : Prop :=
  match step.call with
  | .beginPart .. | .commitPart .. => True
  | .discardPending pending _ =>
      ∀ snapshot ∈ run.uploads[identity.uploadId]?, snapshot.KeepsHighest pending.artifactKey
  | .confirmArtifactDeleted artifactKey _ =>
      ∀ snapshot ∈ run.uploads[identity.uploadId]?, snapshot.KeepsHighest artifactKey

instance (identity : MultipartIdentity) (run : PartRun) (step : PartStep) :
    Decidable (run.Guard identity step) := by
  unfold PartRun.Guard
  split <;> infer_instance

/-- Every key handed out is for an attempt that is not above the highest one. -/
structure PartRun.Inv (identity : MultipartIdentity) (run : PartRun) : Prop where
  nodup : run.keys.Nodup
  bounded : ∀ snapshot ∈ run.uploads[identity.uploadId]?, snapshot.IsOpen →
    ∀ partNumber attempt, stagedArtifactKey identity partNumber attempt ∈ run.keys →
      attempt ≤ maxAttempt snapshot.attempts partNumber

variable {ext : Externals} {identity : MultipartIdentity} {run : PartRun}
  {uploads : Uploads} {pending : PendingPart}

/-- A transition that lets the highest attempts be keeps what the run is about. -/
theorem PartRun.Inv.advance (h : run.Inv identity)
    (huploads : ∀ snapshot' ∈ uploads[identity.uploadId]?,
      ∃ snapshot ∈ run.uploads[identity.uploadId]?, snapshot.Advances snapshot') :
    PartRun.Inv identity ⟨uploads, run.keys⟩ := by
  refine ⟨h.nodup, fun snapshot' hsnapshot' hopen partNumber attempt hkey => ?_⟩
  obtain ⟨snapshot, hsnapshot, hadvances⟩ := huploads snapshot' hsnapshot'
  obtain ⟨hopen', hle⟩ := hadvances hopen
  exact (h.bounded snapshot hsnapshot hopen' partNumber attempt hkey).trans (hle partNumber)

theorem perform_advances {ε α : Type} {write : Write} {eventId : Uuid}
    {decision : Except ε (Decision ε α)} (h : ∀ transition mapFailure value,
      decision = .ok (.apply identity.uploadId transition mapFailure value) →
      ∀ snapshot ∈ uploads[identity.uploadId]?, ∀ named candidate,
        Reduced snapshot named transition candidate → snapshot.Advances candidate) :
    ∀ snapshot' ∈ (uploads.perform ext write eventId decision).2[identity.uploadId]?,
      ∃ snapshot ∈ uploads[identity.uploadId]?, snapshot.Advances snapshot' := by
  intro snapshot' hsnapshot'
  rcases perform_cases ext write eventId uploads decision with
    hsame | ⟨uploadId, transition, mapFailure, value, candidate, hdecision, hprepare, hstored⟩
  · rw [hsame] at hsnapshot'
    exact ⟨snapshot', hsnapshot', .refl _⟩
  rw [hstored, FinMap.getElem?_insert_ext] at hsnapshot'
  by_cases hid : uploadId = identity.uploadId
  · rw [if_pos hid] at hsnapshot'
    obtain rfl := Option.some.inj hsnapshot'
    subst hid
    obtain ⟨snapshot, event, hsnapshot, rfl, hnext⟩ := prepare_ok hprepare
    obtain ⟨reduced, hreduced, hupload, hattempts⟩ := hnext.reduced
    exact ⟨snapshot, hsnapshot,
      (h _ _ _ hdecision snapshot hsnapshot _ _ hreduced).congr hupload hattempts⟩
  · rw [if_neg hid] at hsnapshot'
    exact ⟨snapshot', hsnapshot', .refl _⟩

/-! What the calls decide. -/

theorem beginPart_decides {partNumber reservedBytes : ℕ} {now : ℤ}
    {decision : Decision StagingError PendingPart}
    (h : uploads.beginPart identity partNumber reservedBytes now = .ok decision) :
    ∃ pending : PendingPart, pending.partNumber = partNumber ∧
      pending.attempt = maxAttempt (uploads.attempts identity.uploadId) partNumber + 1 ∧
      pending.artifactKey = stagedArtifactKey identity partNumber pending.attempt ∧
      decision = .apply identity.uploadId (.partReserved pending now)
        (mapReducerFailure .quotaExceeded) pending := by
  simp only [Uploads.beginPart, bind_eq_ok, rejectIf_eq_ok, exists_const, pure_eq_ok] at h
  obtain ⟨-, -, -, -, -, rfl⟩ := h
  exact ⟨_, rfl, rfl, rfl, rfl⟩

theorem commitPart_decides {part : MultipartPart} {clock : ℤ} {uploadId : String}
    {transition : FileMultipartTransitionV1} {mapFailure : MutationFailure → StagingError}
    {value : List MultipartPart} (h : uploads.commitPart identity pending part clock =
      .ok (.apply uploadId transition mapFailure value)) :
    ∃ updatedAtMs, transition = .partCommitted pending part updatedAtMs := by
  simp only [Uploads.commitPart, bind_eq_ok, rejectIf_eq_ok, exists_const, pure_eq_ok,
    Decision.apply.injEq] at h
  obtain ⟨-, upload, -, -, -, rfl, -⟩ := h
  exact ⟨_, rfl⟩

theorem confirmArtifactDeleted_decides {artifactKey : String} {clock : ℤ} {uploadId : String}
    {transition : FileMultipartTransitionV1} {mapFailure : MutationFailure → StagingError}
    {value : Unit} (h : uploads.confirmArtifactDeleted artifactKey clock =
      .ok (.apply uploadId transition mapFailure value)) :
    ∃ updatedAtMs, transition = .artifactDeleted artifactKey updatedAtMs := by
  rw [Uploads.confirmArtifactDeleted] at h
  split at h
  · cases h
  · simp only [pure_eq_ok, Decision.apply.injEq] at h
    exact ⟨_, h.2.1.symm⟩

theorem discardPending_decides {clock : ℤ} {uploadId : String}
    {transition : FileMultipartTransitionV1} {mapFailure : MutationFailure → StagingError}
    {value : Unit} (h : uploads.discardPending identity pending clock =
      .ok (.apply uploadId transition mapFailure value)) :
    ∃ updatedAtMs, transition = .artifactDeleted pending.artifactKey updatedAtMs := by
  simp only [Uploads.discardPending, bind_eq_ok, rejectIf_eq_ok, exists_const] at h
  obtain ⟨-, -, -, h⟩ := h
  split at h
  · cases h
  · simp only [bind_eq_ok, rejectIf_eq_ok, exists_const, pure_eq_ok, Decision.apply.injEq] at h
    exact ⟨_, h.2.2.1.symm⟩

theorem attempts_eq {snapshot : FileMultipartSnapshotV1} {uploadId : String}
    (h : uploads[uploadId]? = some snapshot) : uploads.attempts uploadId = snapshot.attempts := by
  rw [Uploads.attempts, h]
  rfl

/-- A successful reservation is one above every attempt whose key was handed out. -/
theorem PartRun.Inv.begin (h : run.Inv identity) {write : Write} {eventId : Uuid}
    {partNumber reservedBytes : ℕ} {now : ℤ} (hresult : run.uploads.perform ext write eventId
      (run.uploads.beginPart identity partNumber reservedBytes now) = (.ok pending, uploads)) :
    PartRun.Inv identity ⟨uploads, run.keys ++ [pending.artifactKey]⟩ := by
  cases hdecision : run.uploads.beginPart identity partNumber reservedBytes now with
  | error => simp [hdecision, Uploads.perform] at hresult
  | ok decision =>
      obtain ⟨reserved, rfl, hattempt, hkey, rfl⟩ := beginPart_decides hdecision
      rw [hdecision] at hresult
      obtain ⟨rfl, candidate, hprepare, rfl⟩ := perform_eq_ok hresult
      obtain ⟨snapshot, event, hsnapshot, htransition, hnext⟩ := prepare_ok hprepare
      obtain ⟨reduced, hreduced, hupload, hattempts⟩ := hnext.reduced
      rw [htransition] at hreduced
      obtain ⟨hopen, hadvances, hle⟩ := hreduced.reserved
      rw [attempts_eq hsnapshot] at hattempt
      have hbounded := h.bounded snapshot hsnapshot hopen
      constructor
      case nodup =>
        have hnew : pending.artifactKey ∉ run.keys := fun hmem => by
          have := hbounded _ _ (hkey ▸ hmem)
          omega
        simpa [List.nodup_append] using ⟨h.nodup, fun key hmem heq => hnew (heq ▸ hmem)⟩
      case bounded =>
        intro snapshot' hsnapshot' hopen' partNumber attempt hmem
        rw [FinMap.getElem?_insert_ext, if_pos rfl] at hsnapshot'
        obtain rfl := Option.some.inj hsnapshot'
        rcases List.mem_append.1 hmem with hold | hnew
        · exact (hbounded partNumber attempt hold).trans
            ((hadvances.congr hupload hattempts hopen').2 partNumber)
        · obtain ⟨rfl, rfl⟩ := stagedArtifactKey_inj ((List.mem_singleton.1 hnew).trans hkey)
          exact hattempts ▸ hle

theorem PartRun.Inv.step (h : run.Inv identity) {step : PartStep} (hguard : run.Guard identity step) :
    (run.step ext identity step).Inv identity := by
  obtain ⟨call, eventId, write⟩ := step
  cases call with
  | beginPart partNumber reservedBytes now =>
      rw [PartRun.step]
      dsimp only
      split
      case h_1 pending uploads hresult => exact h.begin hresult
      case h_2 error uploads hresult =>
        obtain rfl : _ = uploads := congrArg Prod.snd hresult
        refine h.advance (perform_advances fun transition mapFailure value hdecision snapshot
          hsnapshot named candidate hreduced => ?_)
        obtain ⟨pending, -, -, -, happly⟩ := beginPart_decides hdecision
        obtain ⟨-, rfl, -⟩ := Decision.apply.inj happly
        exact hreduced.reserved.2.1
  | commitPart pending part clock =>
      refine h.advance (perform_advances fun transition mapFailure value hdecision snapshot
        hsnapshot named candidate hreduced => ?_)
      obtain ⟨updatedAtMs, rfl⟩ := commitPart_decides hdecision
      exact hreduced.committed
  | discardPending pending clock =>
      refine h.advance (perform_advances fun transition mapFailure value hdecision snapshot
        hsnapshot named candidate hreduced => ?_)
      obtain ⟨updatedAtMs, rfl⟩ := discardPending_decides hdecision
      exact hreduced.deleted (hguard snapshot hsnapshot)
  | confirmArtifactDeleted artifactKey clock =>
      refine h.advance (perform_advances fun transition mapFailure value hdecision snapshot
        hsnapshot named candidate hreduced => ?_)
      obtain ⟨updatedAtMs, rfl⟩ := confirmArtifactDeleted_decides hdecision
      exact hreduced.deleted (hguard snapshot hsnapshot)

/-- No key is handed out twice in a run in which no highest attempt is deleted. -/
theorem artifact_keys_distinct (ext : Externals) (identity : MultipartIdentity) (run : PartRun)
    (h : ((partSystem ext identity).restrict (PartRun.Guard identity)).Reachable run) :
    run.keys.Nodup := by
  refine (h.invariant (I := PartRun.Inv identity) ?_ ?_).nodup
  · intro run hkeys
    have hnil : run.keys = [] := hkeys
    exact ⟨by simp [hnil], by simp [hnil]⟩
  · rintro run step run' hinv ⟨hguard, hstep⟩
    obtain rfl := Option.some.inj hstep
    exact hinv.step hguard

/-! ### Sample runs -/

/-- The sample upload, just created. -/
def createdRun : PartRun :=
  ⟨(∅ : Uploads).insert sampleIdentity.uploadId (sampleReducer 1).snapshot, []⟩

def stagedPending (attempt : ℕ) : PendingPart :=
  ⟨sampleIdentity.uploadId, 1, attempt, stagedArtifactKey sampleIdentity 1 attempt, 200⟩

def retriedPart (attempt : ℕ) : MultipartPart :=
  ⟨sampleIdentity.uploadId, 1, attempt, stagedArtifactKey sampleIdentity 1 attempt, "etag", "sha",
    200, 150⟩

/-- The part is staged twice, the first artifact is deleted, and it is staged again. -/
def replacedSteps : List PartStep :=
  [⟨.beginPart 1 200 150, 2, .stored⟩,
    ⟨.commitPart (stagedPending 1) (retriedPart 1) 160, 3, .stored⟩,
    ⟨.beginPart 1 200 170, 4, .stored⟩,
    ⟨.commitPart (stagedPending 2) (retriedPart 2) 180, 5, .stored⟩,
    ⟨.confirmArtifactDeleted (stagedPending 1).artifactKey 190, 6, .stored⟩,
    ⟨.beginPart 1 200 200, 7, .stored⟩]

theorem artifact_keys_distinct_replaced : ∃ run : PartRun,
    run.keys = [(stagedPending 1).artifactKey, (stagedPending 2).artifactKey,
      (stagedPending 3).artifactKey] ∧ run.keys.Nodup := by
  have hrun : (System.run (System.guarded (PartRun.Guard sampleIdentity)
      fun run => some ∘ run.step sampleExternals sampleIdentity) createdRun
        replacedSteps).map PartRun.keys =
      some [(stagedPending 1).artifactKey, (stagedPending 2).artifactKey,
        (stagedPending 3).artifactKey] := by
    decide +kernel
  obtain ⟨run, hrun, hkeys⟩ := Option.map_eq_some_iff.1 hrun
  exact ⟨run, hkeys, artifact_keys_distinct sampleExternals sampleIdentity run
    (System.Reachable.run_guarded (.of_init (s := createdRun) rfl) hrun)⟩

/-- A reservation that is discarded and made again gets its key back. -/
def discardedSteps : List PartStep :=
  [⟨.beginPart 1 200 150, 2, .stored⟩, ⟨.discardPending (stagedPending 1) 160, 3, .stored⟩,
    ⟨.beginPart 1 200 170, 4, .stored⟩]

/-- The commit of the discarded reservation is then taken for the one that stands. -/
theorem artifact_key_handed_out_twice : ∃ run : PartRun,
    (partSystem sampleExternals sampleIdentity).Reachable run ∧
      run.keys = [(stagedPending 1).artifactKey, (stagedPending 1).artifactKey] ∧
      (run.uploads.perform sampleExternals .stored 5 (run.uploads.commitPart sampleIdentity
        (stagedPending 1) (retriedPart 1) 180)).1.isOk = true := by
  have hrun : (System.run (fun run : PartRun => some ∘ run.step sampleExternals sampleIdentity)
      createdRun discardedSteps).map (fun run => (run.keys,
        (run.uploads.perform sampleExternals .stored 5 (run.uploads.commitPart sampleIdentity
          (stagedPending 1) (retriedPart 1) 180)).1.isOk)) =
      some ([(stagedPending 1).artifactKey, (stagedPending 1).artifactKey], true) := by
    decide +kernel
  obtain ⟨run, hrun, hresult⟩ := Option.map_eq_some_iff.1 hrun
  obtain ⟨hkeys, hcommit⟩ := Prod.mk.inj hresult
  exact ⟨run, System.Reachable.run (.of_init (s := createdRun) rfl) hrun, hkeys, hcommit⟩

end Maskura.Multipart
