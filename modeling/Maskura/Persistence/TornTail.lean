import Maskura.Persistence.Recovery

/-!
A log that was cut. Whatever byte the cut falls on, what is left is a number of
whole frames and an initial part of the next one; `parse_frames` returns the
events of the whole frames and stops right behind them.
-/

namespace Maskura.Persistence

open Maskura.Lib

variable {τ : Type} {sha256 : Digest} {codec : PayloadCodec τ}

/-- The frames of the events, one after the other. -/
def encodeEvents (sha256 : Digest) (codec : PayloadCodec τ) (events : List (LoggedEvent τ)) : Bytes :=
  events.flatMap (encodeEvent sha256 codec)

@[simp] theorem encodeEvents_nil : encodeEvents sha256 codec [] = [] := rfl

@[simp] theorem encodeEvents_cons (event : LoggedEvent τ) (events : List (LoggedEvent τ)) :
    encodeEvents sha256 codec (event :: events) =
      encodeEvent sha256 codec event ++ encodeEvents sha256 codec events := rfl

theorem length_encodeEvents (events : List (LoggedEvent τ)) :
    (encodeEvents sha256 codec events).length = framesLen codec.toVec events := by
  simp [encodeEvents, framesLen, List.length_flatMap, length_encodeEvent]

/-- `whole` are the events whose frames lie in `bytes`: they do, and no more of the
events do. -/
structure WholeFrames (sha256 : Digest) (codec : PayloadCodec τ) (events : List (LoggedEvent τ))
    (bytes : Bytes) (whole : List (LoggedEvent τ)) : Prop where
  initial : whole <+: events
  contained : encodeEvents sha256 codec whole <+: bytes
  all : ∀ more, more <+: events → encodeEvents sha256 codec more <+: bytes → more <+: whole

/-- A cut leaves whole frames and a torn one. -/
theorem exists_wholeFrames {events : List (LoggedEvent τ)}
    (hfits : ∀ event ∈ events, FrameFits codec event) {bytes : Bytes}
    (hcut : bytes <+: encodeEvents sha256 codec events) :
    ∃ whole torn, WholeFrames sha256 codec events bytes whole ∧
      bytes = encodeEvents sha256 codec whole ++ torn ∧ TornTail sha256 codec torn := by
  induction events generalizing bytes with
  | nil =>
      obtain rfl := List.prefix_nil.mp hcut
      exact ⟨[], [], ⟨List.prefix_rfl, List.prefix_rfl, fun more hmore _ => hmore⟩, rfl, .inl rfl⟩
  | cons event events ih =>
      rw [encodeEvents_cons] at hcut
      by_cases hshort : bytes.length < (encodeEvent sha256 codec event).length
      · -- the cut is in the first frame
        have hpart : bytes <+: encodeEvent sha256 codec event :=
          List.prefix_of_prefix_length_le hcut (List.prefix_append _ _) hshort.le
        refine ⟨[], bytes, ⟨List.nil_prefix, List.nil_prefix, fun more hmore hbytes => ?_⟩, rfl,
          .inr ⟨event, hfits event List.mem_cons_self, hpart, hshort⟩⟩
        obtain rfl | ⟨rest, rfl, -⟩ := List.prefix_cons_iff.mp hmore
        · exact List.prefix_rfl
        · have hlength := hbytes.length_le
          rw [encodeEvents_cons, List.length_append] at hlength
          omega
      · have hframe : encodeEvent sha256 codec event <+: bytes :=
          List.prefix_of_prefix_length_le (List.prefix_append _ _) hcut (Nat.le_of_not_lt hshort)
        obtain ⟨left, rfl⟩ := hframe
        rw [List.prefix_append_right_inj] at hcut
        obtain ⟨whole, torn, hwhole, rfl, htorn⟩ :=
          ih (fun e he => hfits e (List.mem_cons_of_mem _ he)) hcut
        refine ⟨event :: whole, torn, ⟨List.cons_prefix_cons.mpr ⟨rfl, hwhole.initial⟩, ?_, ?_⟩,
          (List.append_assoc _ _ _).symm, htorn⟩
        · exact (List.prefix_append_right_inj _).mpr hwhole.contained
        · intro more hmore hbytes
          obtain rfl | ⟨rest, rfl, hrest⟩ := List.prefix_cons_iff.mp hmore
          · exact List.nil_prefix
          · rw [encodeEvents_cons, List.prefix_append_right_inj] at hbytes
            exact List.cons_prefix_cons.mpr ⟨rfl, hwhole.all rest hrest hbytes⟩

/-- Consecutive frames behind the snapshot are all returned. -/
theorem scanFrames_behind_snapshot {snapshotSequence : ℕ} {events : List (LoggedEvent τ)}
    (hsequence : Consecutive (snapshotSequence + 1) events)
    (hfits : ∀ event ∈ events, FrameFits codec event) :
    scanFrames codec.toVec events snapshotSequence = .ok
      { events := events
        validBytes := framesLen codec.toVec events
        frameCount := events.length
        lastSequence := events.getLast?.map LoggedEvent.sequence } := by
  obtain rfl | hlast := events.eq_nil_or_concat'
  · rfl
  · have hbound : snapshotSequence + 1 + events.length ≤ u64Bound := by
      obtain ⟨front, last, rfl⟩ := hlast
      have hend := (consecutive_snoc.mp hsequence).2
      have hlt := (hfits last (by simp)).sequence_lt
      rw [List.length_append, List.length_singleton]
      omega
    have hnonempty : 0 < events.length := by
      obtain ⟨front, last, rfl⟩ := hlast
      simp
    have hkept : events.filter (fun event => decide (snapshotSequence < event.sequence)) = events := by
      refine List.filter_eq_self.mpr fun event hevent => decide_eq_true ?_
      exact (hsequence.sequence_lt hevent).1
    have hstart : snapshotSequence + 1 = saturatingAdd snapshotSequence 1 :=
      (saturatingAdd_one_of_lt (by omega)).symm
    rw [scanFrames_consecutive codec.toVec hsequence hbound, if_pos (.inr (.inr hstart))]
    simp [ParsedFrames.pushAll, hkept]

/-- Cut at any byte, a log is read as its whole frames. -/
theorem parseFrames_cut {snapshotSequence : ℕ} {events : List (LoggedEvent τ)}
    (hsequence : Consecutive (snapshotSequence + 1) events)
    (hfits : ∀ event ∈ events, FrameFits codec event) {bytes : Bytes}
    (hcut : bytes <+: encodeEvents sha256 codec events) :
    ∃ whole, WholeFrames sha256 codec events bytes whole ∧
      parseFrames sha256 codec bytes snapshotSequence = .ok
        { events := whole
          validBytes := (encodeEvents sha256 codec whole).length
          frameCount := whole.length
          lastSequence := whole.getLast?.map LoggedEvent.sequence } := by
  obtain ⟨whole, torn, hwhole, rfl, htorn⟩ := exists_wholeFrames hfits hcut
  have hwholeFits : ∀ event ∈ whole, FrameFits codec event := fun event hevent =>
    hfits event (hwhole.initial.subset hevent)
  have hwholeSequence : Consecutive (snapshotSequence + 1) whole := by
    obtain ⟨rest, rfl⟩ := hwhole.initial
    exact (consecutive_append.mp hsequence).1
  refine ⟨whole, hwhole, ?_⟩
  rw [length_encodeEvents, ← scanFrames_behind_snapshot hwholeSequence hwholeFits]
  exact parseFramesFrom_encodeEvents sha256 codec htorn snapshotSequence whole hwholeFits {}

/-- Flags as JSON. -/
def flagCodec : PayloadCodec Bool where
  toVec flag := some (if flag then [0x74, 0x72, 0x75, 0x65] else [0x66, 0x61, 0x6c, 0x73, 0x65])
  fromSlice bytes :=
    if bytes = [0x74, 0x72, 0x75, 0x65] then some true
    else if bytes = [0x66, 0x61, 0x6c, 0x73, 0x65] then some false else none
  fromSlice_toVec {payload bytes} h := by
    cases payload <;> cases h <;> rfl

def zeroDigest : Digest := ⟨fun _ => List.replicate checksumBytes 0, fun _ => List.length_replicate⟩

def twoFlags : List (LoggedEvent Bool) := [⟨8, true⟩, ⟨9, false⟩]

/-- The second frame is cut in its payload. -/
theorem parseFrames_cut_flags :
    ∃ whole, WholeFrames zeroDigest flagCodec twoFlags
        ((encodeEvents zeroDigest flagCodec twoFlags).take 73) whole ∧
      parseFrames zeroDigest flagCodec ((encodeEvents zeroDigest flagCodec twoFlags).take 73) 7 = .ok
        { events := whole
          validBytes := (encodeEvents zeroDigest flagCodec whole).length
          frameCount := whole.length
          lastSequence := whole.getLast?.map LoggedEvent.sequence } := by
  have hsequence : Consecutive 8 twoFlags := ⟨rfl, rfl, trivial⟩
  refine parseFrames_cut hsequence (fun event hevent => ?_) (List.take_prefix _ _)
  simp only [twoFlags, List.mem_cons, List.not_mem_nil, or_false] at hevent
  obtain rfl | rfl := hevent
  · exact ⟨by decide, ⟨_, rfl⟩, by decide⟩
  · exact ⟨by decide, ⟨_, rfl⟩, by decide⟩

end Maskura.Persistence
