import Maskura.Lib.FinMap
import Maskura.Multipart.Runs

/-!
A snapshot and the events behind it. A reducer that is rebuilt from the snapshot at
some point of a run has forgotten the events and the ids up to that point; it has
their number instead, and the events it still remembers are those the first reducer
remembers above that number. So it answers every event as the first one did, except
that it calls an event up to the snapshot a compacted one.
-/

namespace Maskura.Multipart

open Maskura.Lib Maskura.Persistence

variable {ext : Externals}

/-! ### Lists of events -/

/-- Applies the events one after the other, up to the first that is refused. -/
def FileMultipartReducer.applyAll (ext : Externals) (self : FileMultipartReducer) :
    List FileMultipartEventV1 →
      Except FileMultipartReducerError (List ReducerApply × FileMultipartReducer)
  | [] => .ok ([], self)
  | event :: events => do
      let outcome ← (self.apply ext event).1
      let (outcomes, final) ← (self.apply ext event).2.applyAll ext events
      return (outcome :: outcomes, final)

theorem FileMultipartReducer.applyAll_cons_eq_ok {self final : FileMultipartReducer}
    {event : FileMultipartEventV1} {events : List FileMultipartEventV1}
    {outcomes : List ReducerApply} :
    self.applyAll ext (event :: events) = .ok (outcomes, final) ↔
      ∃ outcome next rest, self.apply ext event = (.ok outcome, next) ∧
        next.applyAll ext events = .ok (rest, final) ∧ outcomes = outcome :: rest := by
  simp only [applyAll, bind_eq_ok, pure_eq_ok, Prod.mk.injEq, Prod.exists]
  constructor
  · rintro ⟨outcome, hfirst, rest, last, hrest, rfl, rfl⟩
    exact ⟨outcome, _, rest, Prod.ext hfirst rfl, hrest, rfl⟩
  · rintro ⟨outcome, next, rest, hfirst, hrest, rfl⟩
    rw [hfirst]
    exact ⟨outcome, rfl, rest, final, hrest, rfl, rfl⟩

theorem FileMultipartReducer.applyAll_append {self mid final : FileMultipartReducer}
    {before after : List FileMultipartEventV1} {first second : List ReducerApply}
    (hbefore : self.applyAll ext before = .ok (first, mid))
    (hafter : mid.applyAll ext after = .ok (second, final)) :
    self.applyAll ext (before ++ after) = .ok (first ++ second, final) := by
  induction before generalizing self first with
  | nil =>
      obtain ⟨rfl, rfl⟩ := Prod.mk.inj (Except.ok.inj hbefore)
      exact hafter
  | cons event before ih =>
      obtain ⟨outcome, next, rest, hfirst, hrest, rfl⟩ := applyAll_cons_eq_ok.mp hbefore
      exact applyAll_cons_eq_ok.mpr ⟨outcome, next, _, hfirst, ih hrest, rfl⟩

theorem FileMultipartReducer.length_of_applyAll {self final : FileMultipartReducer}
    {events : List FileMultipartEventV1} {outcomes : List ReducerApply}
    (h : self.applyAll ext events = .ok (outcomes, final)) : outcomes.length = events.length := by
  induction events generalizing self outcomes with
  | nil =>
      obtain ⟨rfl, -⟩ := Prod.mk.inj (Except.ok.inj h)
      rfl
  | cons event events ih =>
      obtain ⟨outcome, next, rest, -, hrest, rfl⟩ := applyAll_cons_eq_ok.mp h
      exact congrArg (· + 1) (ih hrest)

/-! ### One event -/

section One

variable {self next : FileMultipartReducer} {event : FileMultipartEventV1} {outcome : ReducerApply}

theorem version_of_accepted (h : self.apply ext event = (.ok outcome, next)) :
    event.schemaVersion = fileMultipartSchemaVersion := by
  by_contra hversion
  rw [FileMultipartReducer.apply, if_pos hversion] at h
  cases h

theorem apply_compacted (hversion : event.schemaVersion = fileMultipartSchemaVersion)
    (hfloor : event.sequence ≤ self.replayFloor) :
    self.apply ext event = (.ok .compactedDuplicate, self) := by
  rw [FileMultipartReducer.apply, if_neg (not_not.mpr hversion), if_pos hfloor]

/-- A remembered event is recognised. -/
theorem apply_repeated (hversion : event.schemaVersion = fileMultipartSchemaVersion)
    (hfloor : self.replayFloor < event.sequence) {canonical : Bytes}
    (hbytes : ext.eventBytes event = some canonical)
    (hseen : self.replayed[event.sequence]? = some canonical) :
    self.apply ext event = (.ok .exactDuplicate, self) := by
  simp [FileMultipartReducer.apply, hversion, Nat.not_le.mpr hfloor, hbytes, hseen]

/-- What the outcome of an accepted event says about it. -/
theorem accepted_cases (h : self.apply ext event = (.ok outcome, next)) :
    (outcome = .compactedDuplicate ∧ next = self ∧ event.sequence ≤ self.replayFloor) ∨
      (outcome = .exactDuplicate ∧ next = self ∧ self.replayFloor < event.sequence ∧
        ∃ canonical, ext.eventBytes event = some canonical ∧
          self.replayed[event.sequence]? = some canonical) ∨
      (outcome = .applied ∧ ∃ canonical candidate, ext.eventBytes event = some canonical ∧
        event.eventId ∉ self.eventIds ∧ self.replayed.size < maxReplayEvents ∧
        event.sequence = self.snapshot.finalEventSequence + 1 ∧ event.sequence < u64Bound ∧
        applyEvent ext self.snapshot event = .ok candidate ∧
        next = { self with
          snapshot := candidate
          replayed := self.replayed.insert event.sequence canonical
          eventIds := self.eventIds.insert event.eventId event.sequence }) := by
  have hversion := version_of_accepted h
  by_cases hfloor : event.sequence ≤ self.replayFloor
  · rw [apply_compacted hversion hfloor] at h
    cases h
    exact .inl ⟨rfl, rfl, hfloor⟩
  · rcases self.apply_cases ext event with ⟨error, happly⟩ | ⟨hle, -⟩ | ⟨hmem, happly⟩ |
      ⟨canonical, candidate, -, hbytes, hid, hsize, hsequence, hbound, hcandidate, happly⟩
    · rw [happly] at h
      cases h
    · exact absurd hle hfloor
    · -- the remembered bytes are those of the event, or it had been refused
      refine .inr (.inl ?_)
      obtain ⟨previous, hprevious⟩ := Option.isSome_iff_exists.mp
        (Std.TreeMap.mem_iff_isSome_getElem?.mp hmem)
      cases hbytes : ext.eventBytes event with
      | none => simp [FileMultipartReducer.apply, hversion, hfloor, hbytes] at h
      | some canonical =>
          by_cases hsame : previous = canonical
          · rw [happly] at h
            cases h
            exact ⟨rfl, rfl, Nat.lt_of_not_le hfloor, canonical, rfl, hprevious.trans (congrArg some hsame)⟩
          · simp [FileMultipartReducer.apply, hversion, hfloor, hbytes, hprevious, hsame] at h
    · rw [happly] at h
      cases h
      exact .inr (.inr ⟨rfl, canonical, candidate, hbytes, hid, hsize, hsequence, hbound, hcandidate,
        rfl⟩)

/-- The next event in line is applied when it may follow. -/
theorem apply_next (hself : self.Inv) (hversion : event.schemaVersion = fileMultipartSchemaVersion)
    {canonical : Bytes} (hbytes : ext.eventBytes event = some canonical)
    (hid : event.eventId ∉ self.eventIds) (hsize : self.replayed.size < maxReplayEvents)
    (hsequence : event.sequence = self.snapshot.finalEventSequence + 1)
    (hbound : event.sequence < u64Bound) {candidate : FileMultipartSnapshotV1}
    (hcandidate : applyEvent ext self.snapshot event = .ok candidate) :
    self.apply ext event = (.ok .applied, { self with
      snapshot := candidate
      replayed := self.replayed.insert event.sequence canonical
      eventIds := self.eventIds.insert event.eventId event.sequence }) := by
  have hfloor : ¬event.sequence ≤ self.replayFloor := by
    have := hself.floor_le
    omega
  have hnew : self.replayed[event.sequence]? = none := by
    refine Std.TreeMap.getElem?_eq_none fun hmem => ?_
    have := hself.replayed_le _ hmem
    omega
  have hid' : self.eventIds.contains event.eventId = false :=
    Bool.eq_false_iff.mpr fun hmem => hid (Std.TreeMap.mem_iff_contains.mpr hmem)
  have hlt : ¬u64Bound ≤ event.sequence := by omega
  simp [FileMultipartReducer.apply, hversion, hfloor, hbytes, hnew, hid', Nat.not_le.mpr hsize, hlt,
    ← hsequence, hcandidate]

/-- An accepted event is not ahead of the snapshot any more. -/
theorem FileMultipartReducer.Inv.sequence_le (hself : self.Inv)
    (h : self.apply ext event = (.ok outcome, next)) :
    next.Inv ∧ event.sequence ≤ next.snapshot.finalEventSequence ∧
      self.snapshot.finalEventSequence ≤ next.snapshot.finalEventSequence := by
  have hnext : next.Inv := hself.step ⟨outcome, h⟩
  obtain ⟨-, rfl, hle⟩ | ⟨-, rfl, -, canonical, -, hseen⟩ |
    ⟨-, canonical, candidate, -, -, -, hsequence, -, hcandidate, rfl⟩ := accepted_cases h
  · exact ⟨hnext, hle.trans hself.floor_le, Nat.le_refl _⟩
  · have hmem : event.sequence ∈ next.replayed :=
      Std.TreeMap.mem_iff_isSome_getElem?.mpr (by rw [hseen]; rfl)
    exact ⟨hnext, hself.replayed_le _ hmem, Nat.le_refl _⟩
  · obtain ⟨reduced, -, rfl, -⟩ := applyEvent_ok hcandidate
    exact ⟨hnext, Nat.le_refl _, by rw [hsequence]; exact Nat.le_succ _⟩

end One

/-! ### The rebuilt reducer -/

/-- `copy` was rebuilt from a snapshot on the way of `live`, at the number `floor`. -/
structure Restored (floor : ℕ) (live copy : FileMultipartReducer) : Prop where
  snapshot : copy.snapshot = live.snapshot
  floor_eq : copy.replayFloor = floor
  live_floor_le : live.replayFloor ≤ floor
  floor_le : floor ≤ live.snapshot.finalEventSequence
  replayed : ∀ sequence, floor < sequence → copy.replayed[sequence]? = live.replayed[sequence]?
  ids : ∀ id ∈ copy.eventIds, id ∈ live.eventIds
  size_le : copy.replayed.size ≤ live.replayed.size
  inv : copy.Inv

section Restored

variable {floor : ℕ} {self next copy : FileMultipartReducer} {event : FileMultipartEventV1}
  {outcome : ReducerApply}

/-- Right after it was rebuilt. -/
theorem restored_of_fromSnapshot (hself : self.Inv) :
    ∃ copy, FileMultipartReducer.fromSnapshot self.snapshot = .ok copy ∧
      Restored self.snapshot.finalEventSequence self copy := by
  have hcopy : FileMultipartReducer.fromSnapshot self.snapshot =
      .ok { snapshot := self.snapshot, replayFloor := self.snapshot.finalEventSequence } := by
    rw [FileMultipartReducer.fromSnapshot, hself.valid]
    rfl
  refine ⟨_, hcopy, rfl, rfl, hself.floor_le, Nat.le_refl _, fun sequence hlt => ?_, fun id hid => ?_,
    Nat.zero_le _, ⟨hself.valid, Nat.le_refl _, fun sequence hsequence => ?_⟩⟩
  · have hnone : self.replayed[sequence]? = none := by
      refine Std.TreeMap.getElem?_eq_none fun hmem => ?_
      have := hself.replayed_le _ hmem
      omega
    rw [hnone]
    rfl
  · exact absurd hid Std.TreeMap.not_mem_emptyc
  · exact absurd hsequence Std.TreeMap.not_mem_emptyc

/-- The copy accepts what the first reducer accepts, and stays a copy. It applies the
same events. -/
theorem Restored.apply (hself : self.Inv) (h : Restored floor self copy)
    (haccepted : self.apply ext event = (.ok outcome, next)) :
    ∃ outcome' copy', copy.apply ext event = (.ok outcome', copy') ∧
      (outcome' = .applied ↔ outcome = .applied) ∧ Restored floor next copy' := by
  have hversion := version_of_accepted haccepted
  have hfloor := h.floor_le
  have hself' := h.live_floor_le
  have hcopy := h.floor_eq
  obtain ⟨rfl, rfl, hle⟩ | ⟨rfl, rfl, hlt, canonical, hbytes, hseen⟩ |
    ⟨rfl, canonical, candidate, hbytes, hid, hsize, hsequence, hbound, hcandidate, rfl⟩ :=
      accepted_cases haccepted
  · exact ⟨_, _, apply_compacted hversion (by omega), by decide, h⟩
  · by_cases hle : event.sequence ≤ copy.replayFloor
    · exact ⟨_, _, apply_compacted hversion hle, by decide, h⟩
    · have hcopySeen := (h.replayed event.sequence (by omega)).trans hseen
      exact ⟨_, _, apply_repeated hversion (by omega) hbytes hcopySeen, by decide, h⟩
  · have happly := apply_next h.inv hversion hbytes (fun hmem => hid (h.ids _ hmem))
      (h.size_le.trans_lt hsize) (h.snapshot ▸ hsequence) hbound (h.snapshot ▸ hcandidate)
    have hfinal : event.sequence = candidate.finalEventSequence := by
      obtain ⟨reduced, -, rfl, -⟩ := applyEvent_ok hcandidate
      rfl
    have hfresh : ∀ reducer : FileMultipartReducer, reducer.Inv →
        reducer.snapshot = self.snapshot → event.sequence ∉ reducer.replayed := by
      intro reducer hinv hsame hmem
      have := hinv.replayed_le _ hmem
      rw [hsame] at this
      omega
    refine ⟨_, _, happly, Iff.rfl, rfl, hcopy, hself', ?_, fun sequence hlt => ?_, fun id hmem => ?_, ?_,
      h.inv.step ⟨_, happly⟩⟩
    · change floor ≤ candidate.finalEventSequence
      omega
    · change (copy.replayed.insert _ _)[sequence]? = (self.replayed.insert _ _)[sequence]?
      rw [FinMap.getElem?_insert_eq, FinMap.getElem?_insert_eq, h.replayed sequence hlt]
    · rcases Std.TreeMap.mem_insert.mp hmem with heq | hold
      · exact Std.TreeMap.mem_insert.mpr (.inl heq)
      · exact Std.TreeMap.mem_insert.mpr (.inr (h.ids _ hold))
    · change (copy.replayed.insert _ _).size ≤ (self.replayed.insert _ _).size
      rw [Std.TreeMap.size_insert, Std.TreeMap.size_insert,
        if_neg (mt Std.TreeMap.mem_iff_contains.mpr (hfresh copy h.inv h.snapshot)),
        if_neg (mt Std.TreeMap.mem_iff_contains.mpr (hfresh self hself rfl))]
      exact Nat.succ_le_succ h.size_le

end Restored

/-! ### Whole lists -/

section Lists

variable {floor : ℕ} {self final copy : FileMultipartReducer} {events : List FileMultipartEventV1}
  {outcomes : List ReducerApply}

theorem FileMultipartReducer.Inv.applyAll (hself : self.Inv)
    (h : self.applyAll ext events = .ok (outcomes, final)) :
    final.Inv ∧ self.snapshot.finalEventSequence ≤ final.snapshot.finalEventSequence ∧
      ∀ event ∈ events, event.schemaVersion = fileMultipartSchemaVersion ∧
        event.sequence ≤ final.snapshot.finalEventSequence := by
  induction events generalizing self outcomes with
  | nil =>
      obtain ⟨-, rfl⟩ := Prod.mk.inj (Except.ok.inj h)
      exact ⟨hself, Nat.le_refl _, fun event hevent => absurd hevent List.not_mem_nil⟩
  | cons event events ih =>
      obtain ⟨outcome, next, rest, hfirst, hrest, rfl⟩ := applyAll_cons_eq_ok.mp h
      obtain ⟨hnext, hsequence, hgrown⟩ := hself.sequence_le hfirst
      obtain ⟨hfinal, hlater, hevents⟩ := ih hnext hrest
      exact ⟨hfinal, hgrown.trans hlater, List.forall_mem_cons.mpr
        ⟨⟨version_of_accepted hfirst, hsequence.trans hlater⟩, hevents⟩⟩

/-- Events up to the snapshot are recognised by their numbers. -/
theorem applyAll_compacted
    (h : ∀ event ∈ events, event.schemaVersion = fileMultipartSchemaVersion ∧
      event.sequence ≤ self.replayFloor) :
    self.applyAll ext events =
      .ok (List.replicate events.length .compactedDuplicate, self) := by
  induction events with
  | nil => rfl
  | cons event events ih =>
      obtain ⟨⟨hversion, hfloor⟩, hevents⟩ := List.forall_mem_cons.mp h
      exact FileMultipartReducer.applyAll_cons_eq_ok.mpr
        ⟨_, _, _, apply_compacted hversion hfloor, ih hevents, rfl⟩

/-- The events behind the snapshot lead the copy where they led the first reducer. -/
theorem Restored.applyAll (hself : self.Inv) (h : Restored floor self copy)
    (hall : self.applyAll ext events = .ok (outcomes, final)) :
    ∃ outcomes' copy', copy.applyAll ext events = .ok (outcomes', copy') ∧
      List.Forall₂ (fun again first => again = ReducerApply.applied ↔ first = .applied)
        outcomes' outcomes ∧ Restored floor final copy' := by
  induction events generalizing self copy outcomes with
  | nil =>
      obtain ⟨rfl, rfl⟩ := Prod.mk.inj (Except.ok.inj hall)
      exact ⟨[], copy, rfl, .nil, h⟩
  | cons event events ih =>
      obtain ⟨outcome, next, rest, hfirst, hrest, rfl⟩ :=
        FileMultipartReducer.applyAll_cons_eq_ok.mp hall
      obtain ⟨outcome', copy', happly, hsame, hnext⟩ := h.apply hself hfirst
      obtain ⟨outcomes', last, hcopied, hforall, hlast⟩ :=
        ih (hself.sequence_le hfirst).1 hnext hrest
      exact ⟨outcome' :: outcomes', last, FileMultipartReducer.applyAll_cons_eq_ok.mpr
        ⟨outcome', copy', _, happly, hcopied, rfl⟩, .cons hsame hforall, hlast⟩

/-! ### Events that come again -/

/-- The reducer can tell that it has had the event. -/
def Remembers (ext : Externals) (reducer : FileMultipartReducer) (event : FileMultipartEventV1) :
    Prop :=
  event.schemaVersion = fileMultipartSchemaVersion ∧
    (event.sequence ≤ reducer.replayFloor ∨
      ∃ canonical, ext.eventBytes event = some canonical ∧
        reducer.replayed[event.sequence]? = some canonical)

theorem Remembers.apply {event : FileMultipartEventV1} (h : Remembers ext self event) :
    ∃ outcome, outcome ≠ .applied ∧ self.apply ext event = (.ok outcome, self) := by
  obtain ⟨hversion, hknown⟩ := h
  by_cases hfloor : event.sequence ≤ self.replayFloor
  · exact ⟨.compactedDuplicate, by decide, apply_compacted hversion hfloor⟩
  · obtain ⟨canonical, hbytes, hseen⟩ := hknown.resolve_left hfloor
    exact ⟨.exactDuplicate, by decide,
      apply_repeated hversion (Nat.lt_of_not_le hfloor) hbytes hseen⟩

/-- An accepted event is remembered, and so is all that was before it. -/
theorem remembers_of_accepted {next : FileMultipartReducer} {event : FileMultipartEventV1}
    {outcome : ReducerApply} (hself : self.Inv)
    (h : self.apply ext event = (.ok outcome, next)) :
    Remembers ext next event ∧
      ∀ earlier, Remembers ext self earlier → Remembers ext next earlier := by
  have hversion := version_of_accepted h
  obtain ⟨-, rfl, hle⟩ | ⟨-, rfl, -, canonical, hbytes, hseen⟩ |
    ⟨-, canonical, candidate, hbytes, -, -, hsequence, -, -, rfl⟩ := accepted_cases h
  · exact ⟨⟨hversion, .inl hle⟩, fun earlier hearlier => hearlier⟩
  · exact ⟨⟨hversion, .inr ⟨canonical, hbytes, hseen⟩⟩, fun earlier hearlier => hearlier⟩
  · refine ⟨⟨hversion, .inr ⟨canonical, hbytes, Std.TreeMap.getElem?_insert_self⟩⟩, ?_⟩
    rintro earlier ⟨hearlier, hle | ⟨bytes, hsame, hseen⟩⟩
    · exact ⟨hearlier, .inl hle⟩
    · -- the new number is behind every number the reducer has
      have hne : event.sequence ≠ earlier.sequence := by
        intro heq
        have := hself.replayed_le earlier.sequence
          (Std.TreeMap.mem_iff_isSome_getElem?.mpr (by rw [hseen]; rfl))
        omega
      exact ⟨hearlier, .inr ⟨bytes, hsame,
        (FinMap.getElem?_insert_of_ne _ _ hne).trans hseen⟩⟩

theorem remembers_of_applyAll (hself : self.Inv)
    (hall : self.applyAll ext events = .ok (outcomes, final)) :
    (∀ event ∈ events, Remembers ext final event) ∧
      ∀ earlier, Remembers ext self earlier → Remembers ext final earlier := by
  induction events generalizing self outcomes with
  | nil =>
      obtain ⟨-, rfl⟩ := Prod.mk.inj (Except.ok.inj hall)
      exact ⟨fun event hevent => absurd hevent List.not_mem_nil, fun earlier hearlier => hearlier⟩
  | cons event events ih =>
      obtain ⟨outcome, next, rest, hfirst, hrest, rfl⟩ :=
        FileMultipartReducer.applyAll_cons_eq_ok.mp hall
      obtain ⟨hnow, hkept⟩ := remembers_of_accepted hself hfirst
      obtain ⟨hlater, hstays⟩ := ih (hself.sequence_le hfirst).1 hrest
      exact ⟨List.forall_mem_cons.mpr ⟨hstays event hnow, hlater⟩,
        fun earlier hearlier => hstays earlier (hkept earlier hearlier)⟩

end Lists

theorem all_applied {again first : List ReducerApply}
    (h : List.Forall₂ (fun new old => new = ReducerApply.applied ↔ old = .applied) again first)
    (hfirst : ∀ outcome ∈ first, outcome = .applied) : ∀ outcome ∈ again, outcome = .applied := by
  induction h with
  | nil => exact hfirst
  | cons hsame _ ih =>
      obtain ⟨hold, hrest⟩ := List.forall_mem_cons.mp hfirst
      exact List.forall_mem_cons.mpr ⟨hsame.mpr hold, ih hrest⟩

theorem FileMultipartReducer.empty_inv : FileMultipartReducer.empty.Inv :=
  @FileMultipartReducer.inv_init sampleExternals _ (.inl rfl)

/-- A snapshot anywhere in a list of accepted events can be read back, and the list
once more from there gives compacted duplicates up to the snapshot, applies behind it
what was applied behind it, and ends in the same snapshot. Events that were accepted
change nothing when they come again. -/
theorem snapshot_replay_eq_full_replay (ext : Externals)
    (before after : List FileMultipartEventV1) (first second : List ReducerApply)
    (cut final : FileMultipartReducer)
    (hbefore : FileMultipartReducer.empty.applyAll ext before = .ok (first, cut))
    (hafter : cut.applyAll ext after = .ok (second, final)) :
    (∃ restored, FileMultipartReducer.fromSnapshot cut.snapshot = .ok restored ∧
      ∃ again replayed,
        restored.applyAll ext (before ++ after) =
          .ok (List.replicate before.length .compactedDuplicate ++ again, replayed) ∧
        List.Forall₂ (fun new old => new = ReducerApply.applied ↔ old = .applied) again second ∧
        ((∀ outcome ∈ second, outcome = .applied) →
          again = List.replicate after.length .applied) ∧
        replayed.snapshot = final.snapshot) ∧
      ∀ event ∈ before ++ after,
        ∃ outcome, outcome ≠ .applied ∧ final.apply ext event = (.ok outcome, final) := by
  have hempty := FileMultipartReducer.empty_inv
  obtain ⟨hcut, -, hcompacted⟩ := hempty.applyAll hbefore
  refine ⟨?_, fun event hevent => ?_⟩
  · obtain ⟨restored, hrestored, hcopy⟩ := restored_of_fromSnapshot hcut
    obtain ⟨again, replayed, hagain, hsame, hlast⟩ := hcopy.applyAll hcut hafter
    have hskipped : restored.applyAll ext before =
        .ok (List.replicate before.length .compactedDuplicate, restored) :=
      applyAll_compacted (hcopy.floor_eq ▸ hcompacted)
    refine ⟨restored, hrestored, again, replayed,
      FileMultipartReducer.applyAll_append hskipped hagain, hsame, fun happlied => ?_, hlast.snapshot⟩
    refine List.eq_replicate_iff.mpr ⟨?_, all_applied hsame happlied⟩
    rw [hsame.length_eq, FileMultipartReducer.length_of_applyAll hafter]
  · have hwhole := FileMultipartReducer.applyAll_append hbefore hafter
    exact ((remembers_of_applyAll hempty hwhole).1 event hevent).apply

/-- The sample events from the `n`th on are applied one after the other. -/
theorem sampleReducer_applyAll (k : ℕ) : ∀ n, n + k = 8 →
    (sampleReducer n).applyAll sampleExternals (sampleEvents.drop n) =
      .ok (List.replicate k .applied, sampleReducer 8) := by
  induction k with
  | zero =>
      rintro n rfl
      rfl
  | succ k ih =>
      intro n hn
      have hlt : n < sampleEvents.length := show n < 8 by omega
      rw [List.drop_eq_getElem_cons hlt]
      exact FileMultipartReducer.applyAll_cons_eq_ok.mpr
        ⟨_, _, _, sampleReducer_applied ⟨n, hlt⟩, ih (n + 1) (by omega), rfl⟩

/-- An upload that is created, given a part and completed, with a snapshot after the
part. -/
theorem sampleEvents_replayed_after_part :
    ∃ restored again replayed,
      FileMultipartReducer.fromSnapshot (sampleReducer 3).snapshot = .ok restored ∧
      restored.applyAll sampleExternals (sampleEvents.take 3 ++ sampleEvents.drop 3) =
        .ok (List.replicate 3 .compactedDuplicate ++ again, replayed) ∧
      again = List.replicate 5 .applied ∧ replayed.snapshot = (sampleReducer 8).snapshot := by
  have hbefore : FileMultipartReducer.empty.applyAll sampleExternals (sampleEvents.take 3) =
      .ok (List.replicate 3 .applied, sampleReducer 3) :=
    FileMultipartReducer.applyAll_cons_eq_ok.mpr ⟨_, _, _, sampleReducer_applied 0,
      FileMultipartReducer.applyAll_cons_eq_ok.mpr ⟨_, _, _, sampleReducer_applied 1,
        FileMultipartReducer.applyAll_cons_eq_ok.mpr
          ⟨_, _, _, sampleReducer_applied 2, rfl, rfl⟩, rfl⟩, rfl⟩
  obtain ⟨⟨restored, hrestored, again, replayed, hagain, -, happlied, hsame⟩, -⟩ :=
    snapshot_replay_eq_full_replay sampleExternals _ _ _ _ _ _ hbefore
      (sampleReducer_applyAll 5 3 rfl)
  exact ⟨restored, again, replayed, hrestored, hagain,
    happlied fun outcome houtcome => List.eq_of_mem_replicate houtcome, hsame⟩

end Maskura.Multipart
