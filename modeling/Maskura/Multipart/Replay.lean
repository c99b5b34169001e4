import Maskura.Multipart.Store

/-!
Replaying the log of an upload.

A live repository applies every event to a fresh reducer; a restarted one
replays all events behind the snapshot through a single reducer, which also
compares event ids and stops at `maxReplayEvents`. Both lead to the snapshot
that `applyEvent` reaches step by step, as long as there are not too many
events.
-/

namespace Maskura.Multipart

open Maskura.Lib Maskura.Persistence

variable {ext : Externals}

/-! ### Events one after the other -/

/-- The snapshot that a list of logged events leads to. -/
def replaySnapshot (ext : Externals) (start : FileMultipartSnapshotV1)
    (events : List (LoggedEvent FileMultipartEventV1)) :
    Except FileMultipartReducerError FileMultipartSnapshotV1 :=
  events.foldlM (fun snapshot logged => applyEvent ext snapshot logged.payload) start

@[simp] theorem replaySnapshot_nil (start : FileMultipartSnapshotV1) :
    replaySnapshot ext start [] = .ok start := rfl

theorem replaySnapshot_cons {start : FileMultipartSnapshotV1}
    {logged : LoggedEvent FileMultipartEventV1} {rest : List (LoggedEvent FileMultipartEventV1)} :
    replaySnapshot ext start (logged :: rest) =
      applyEvent ext start logged.payload >>= fun next => replaySnapshot ext next rest := by
  rw [replaySnapshot, List.foldlM_cons]
  rfl

theorem replaySnapshot_append {start : FileMultipartSnapshotV1}
    {events more : List (LoggedEvent FileMultipartEventV1)} :
    replaySnapshot ext start (events ++ more) =
      replaySnapshot ext start events >>= fun next => replaySnapshot ext next more := by
  rw [replaySnapshot, List.foldlM_append]
  rfl

/-- An event as the live repository writes it into a log. -/
structure Loggable (ext : Externals) (logged : LoggedEvent FileMultipartEventV1) : Prop where
  version : logged.payload.schemaVersion = fileMultipartSchemaVersion
  sequence : logged.payload.sequence = logged.sequence
  bytes : ∃ canonical, ext.eventBytes logged.payload = some canonical

theorem applyEvent_finalSequence {snapshot snapshot' : FileMultipartSnapshotV1}
    {event : FileMultipartEventV1} (h : applyEvent ext snapshot event = .ok snapshot') :
    snapshot'.finalEventSequence = event.sequence := by
  obtain ⟨candidate, -, rfl, -⟩ := applyEvent_ok h
  rfl

theorem applyEvent_valid {snapshot snapshot' : FileMultipartSnapshotV1}
    {event : FileMultipartEventV1} (h : applyEvent ext snapshot event = .ok snapshot') :
    validateSnapshot snapshot' = .ok () := by
  obtain ⟨candidate, -, rfl, hvalid⟩ := applyEvent_ok h
  exact hvalid

theorem replaySnapshot_valid {start snapshot : FileMultipartSnapshotV1}
    {events : List (LoggedEvent FileMultipartEventV1)} (hstart : validateSnapshot start = .ok ())
    (h : replaySnapshot ext start events = .ok snapshot) : validateSnapshot snapshot = .ok () := by
  induction events generalizing start with
  | nil =>
      obtain rfl : start = snapshot := Except.ok.inj h
      exact hstart
  | cons logged rest ih =>
      rw [replaySnapshot_cons, bind_eq_ok] at h
      obtain ⟨next, hnext, hrest⟩ := h
      exact ih (applyEvent_valid hnext) hrest

/-- The snapshot after consecutive events carries the number of the last. -/
theorem replaySnapshot_finalSequence {start snapshot : FileMultipartSnapshotV1}
    {events : List (LoggedEvent FileMultipartEventV1)}
    (hevents : ∀ logged ∈ events, Loggable ext logged)
    (hconsecutive : Consecutive (start.finalEventSequence + 1) events)
    (h : replaySnapshot ext start events = .ok snapshot) :
    snapshot.finalEventSequence = start.finalEventSequence + events.length := by
  induction events generalizing start with
  | nil =>
      obtain rfl : start = snapshot := Except.ok.inj h
      rfl
  | cons logged rest ih =>
      rw [replaySnapshot_cons, bind_eq_ok] at h
      obtain ⟨next, hnext, hrest⟩ := h
      obtain ⟨hloggable, hrest'⟩ := List.forall_mem_cons.mp hevents
      have hfinal : next.finalEventSequence = start.finalEventSequence + 1 := by
        rw [applyEvent_finalSequence hnext, hloggable.sequence, hconsecutive.1]
      rw [ih hrest' (hfinal ▸ hconsecutive.2) hrest, hfinal, List.length_cons]
      omega

/-! ### One reducer for all events -/

/-- The reducer an applied event leads to. -/
def FileMultipartReducer.advance (self : FileMultipartReducer) (event : FileMultipartEventV1)
    (canonical : Bytes) (snapshot : FileMultipartSnapshotV1) : FileMultipartReducer :=
  { self with
    snapshot := snapshot
    replayed := self.replayed.insert event.sequence canonical
    eventIds := self.eventIds.insert event.eventId event.sequence }

/-- The next event in line, with an id of its own, reaches the reducer's
bound before anything else. -/
theorem FileMultipartReducer.Inv.apply_next {self : FileMultipartReducer} (hself : self.Inv)
    {logged : LoggedEvent FileMultipartEventV1} (hloggable : Loggable ext logged)
    (hsequence : logged.sequence = self.snapshot.finalEventSequence + 1)
    (hbound : logged.sequence < u64Bound) (hid : logged.payload.eventId ∉ self.eventIds) :
    (self.replayed.size ≥ maxReplayEvents →
        self.apply ext logged.payload = (.error .boundExceeded, self)) ∧
      (self.replayed.size < maxReplayEvents →
        ∀ snapshot, applyEvent ext self.snapshot logged.payload = .ok snapshot →
          ∃ canonical, self.apply ext logged.payload =
            (.ok .applied, self.advance logged.payload canonical snapshot)) := by
  obtain ⟨canonical, hcanonical⟩ := hloggable.bytes
  have hfinal : logged.payload.sequence = self.snapshot.finalEventSequence + 1 :=
    hloggable.sequence.trans hsequence
  have hfloor : ¬logged.payload.sequence ≤ self.replayFloor := by
    have := hself.floor_le
    omega
  have hnew : self.replayed[logged.payload.sequence]? = none := by
    refine Std.TreeMap.getElem?_eq_none fun hmem => ?_
    have := hself.replayed_le _ hmem
    omega
  have hid' : self.eventIds.contains logged.payload.eventId = false :=
    Bool.eq_false_iff.mpr fun hmem => hid (Std.TreeMap.mem_iff_contains.mpr hmem)
  constructor
  · intro hsize
    simp [FileMultipartReducer.apply, hloggable.version, hfloor, hcanonical, hnew, hid', hsize]
  · intro hsize snapshot hsnapshot
    refine ⟨canonical, ?_⟩
    have hlt : ¬u64Bound ≤ logged.payload.sequence := by omega
    simp [FileMultipartReducer.apply, FileMultipartReducer.advance, hloggable.version, hfloor,
      hcanonical, hnew, hid', Nat.not_le.mpr hsize, hlt, ← hfinal, hsnapshot]

/-- Replaying consecutive events with ids of their own: the reducer arrives
where the events lead, or it stops at its bound. -/
theorem replayEvents_eq {self : FileMultipartReducer} (hself : self.Inv)
    {events : List (LoggedEvent FileMultipartEventV1)} {snapshot : FileMultipartSnapshotV1}
    (hevents : ∀ logged ∈ events, Loggable ext logged)
    (hconsecutive : Consecutive (self.snapshot.finalEventSequence + 1) events)
    (hbound : self.snapshot.finalEventSequence + events.length < u64Bound)
    (hids : (events.map fun logged => logged.payload.eventId).Nodup)
    (hnew : ∀ logged ∈ events, logged.payload.eventId ∉ self.eventIds)
    (hsize : self.replayed.size ≤ maxReplayEvents)
    (hreplay : replaySnapshot ext self.snapshot events = .ok snapshot) :
    if self.replayed.size + events.length ≤ maxReplayEvents then
      ∃ reducer, replayEvents ext self events = .ok reducer ∧ reducer.snapshot = snapshot
    else
      replayEvents ext self events = .error (reducerPersistenceError .boundExceeded) := by
  induction events generalizing self with
  | nil =>
      obtain rfl : self.snapshot = snapshot := Except.ok.inj hreplay
      rw [List.length_nil, Nat.add_zero, if_pos hsize]
      exact ⟨self, rfl, rfl⟩
  | cons logged rest ih =>
      obtain ⟨hloggable, hrest⟩ := List.forall_mem_cons.mp hevents
      obtain ⟨hid, hnewRest⟩ := List.forall_mem_cons.mp hnew
      rw [List.map_cons, List.nodup_cons] at hids
      rw [replaySnapshot_cons, bind_eq_ok] at hreplay
      obtain ⟨next, hnext, hreplayRest⟩ := hreplay
      rw [List.length_cons] at hbound ⊢
      have hsequence : logged.sequence = self.snapshot.finalEventSequence + 1 := hconsecutive.1
      have hmatch : ¬logged.sequence ≠ logged.payload.sequence := by
        simp [hloggable.sequence]
      obtain ⟨hfull, happly⟩ :=
        hself.apply_next hloggable hsequence (by omega) hid
      rw [replayEvents, if_neg hmatch]
      by_cases hroom : self.replayed.size < maxReplayEvents
      · obtain ⟨canonical, happly⟩ := happly hroom next hnext
        have hnextFinal : next.finalEventSequence = self.snapshot.finalEventSequence + 1 := by
          rw [applyEvent_finalSequence hnext, hloggable.sequence, hsequence]
        have hfresh : logged.payload.sequence ∉ self.replayed := fun hmem => by
          have := hself.replayed_le _ hmem
          have := hloggable.sequence
          omega
        have hadvance : (self.advance logged.payload canonical next).replayed.size =
            self.replayed.size + 1 := by
          rw [FileMultipartReducer.advance, Std.TreeMap.size_insert,
            if_neg (mt Std.TreeMap.mem_iff_contains.mpr hfresh)]
        have hadvanced : (self.advance logged.payload canonical next).Inv :=
          hself.step ⟨_, happly⟩
        have := ih hadvanced hrest (hnextFinal.symm ▸ hconsecutive.2)
          (by rw [FileMultipartReducer.advance, hnextFinal]; omega) hids.2 ?_
          (by rw [hadvance]; omega) hreplayRest
        · rw [hadvance] at this
          rw [happly, show self.replayed.size + (rest.length + 1) =
            self.replayed.size + 1 + rest.length by omega]
          exact this
        · intro other hother hmem
          rw [FileMultipartReducer.advance, Std.TreeMap.mem_insert] at hmem
          rcases hmem with heq | hold
          · have heq' := Std.LawfulEqCmp.eq_of_compare heq
            exact hids.1 (List.mem_map.mpr ⟨other, hother, heq'.symm⟩)
          · exact hnewRest other hother hold
      · rw [hfull (by omega), if_neg (by omega)]

end Maskura.Multipart
