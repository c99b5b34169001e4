import Mathlib.Data.List.Count

/-!
The body of a direct transformed read. It passes on what a worker sends, and at
the end it settles the usage of the read, or gives back the reservation when
nothing was disclosed. The first event of the worker is handled before the body
exists.

A body is driven by polls and in the end it is dropped. What the receiver and the
control plane answer to a poll is given with the poll; a body that has ended is not
polled again. What happens is written down as a list of acts.
-/

namespace Maskura.Reads

abbrev Bytes := List UInt8

inductive TransformedReadError
  | invalidRequest (message : String)
  | capacity (message : String)
  | source (message : String)
  | pipeline (code : String)
  | spool (message : String)
  deriving DecidableEq

/-- The code that a failed attempt is recorded with. -/
def TransformedReadError.code : TransformedReadError → String
  | .pipeline code => code
  | _ => "internal"

/-- What the worker sends; `ε` is the type of the evidence of the pipeline. -/
inductive DirectReadEvent (ε : Type)
  | data (bytes : Bytes)
  | failed (error : TransformedReadError)
  | done (sourceBytes outputBytes : ℕ) (evidence : Option ε)

structure AuthorizationGrant where
  operationId : ℕ
  receiptId : ℕ
  maxProcessedBytes : ℕ

structure UsageEvent (ε : Type) where
  receiptId : ℕ
  operationId : ℕ
  sourceBytes : ℕ
  outputBytes : ℕ
  processedBytes : ℕ
  pipelineEvidence : Option ε
  deriving DecidableEq

variable {ε : Type}

def UsageEvent.fromGrant (grant : AuthorizationGrant) (sourceBytes outputBytes : ℕ) : UsageEvent ε where
  receiptId := grant.receiptId
  operationId := grant.operationId
  sourceBytes := sourceBytes
  outputBytes := outputBytes
  processedBytes := max sourceBytes outputBytes
  pipelineEvidence := none

def UsageEvent.withPipelineEvidence (event : UsageEvent ε) (evidence : ε) : UsageEvent ε :=
  { event with pipelineEvidence := some evidence }

/-- The event of a read that is done. -/
def usageEvent (grant : AuthorizationGrant) (sourceBytes outputBytes : ℕ) (evidence : Option ε) :
    UsageEvent ε :=
  match evidence with
  | some evidence => (UsageEvent.fromGrant grant sourceBytes outputBytes).withPipelineEvidence evidence
  | none => UsageEvent.fromGrant grant sourceBytes outputBytes

inductive MeteringError
  | unavailable
  | idempotencyConflict
  | rejected
  deriving DecidableEq

/-- What can be seen of a body. -/
inductive Act (ε : Type)
  /-- A frame of data is handed out. -/
  | delivered (bytes : Bytes)
  /-- `record` is called. -/
  | recordStarted (event : UsageEvent ε)
  /-- `record` has returned. -/
  | recordReturned (event : UsageEvent ε) (result : Except MeteringError Unit)
  | release (operationId : ℕ)
  | recordAttempt (code : String)
  | cancelled
  /-- The body ends normally. -/
  | ended
  /-- The body ends with an error. -/
  | failed (message : String)

/-! ### Settlement -/

def directReadSettlementAttempts : ℕ := 3

/-- `direct_settlement_future`: the event, the attempts that are left, and whether
the call of `record` is under way. -/
structure Settlement (ε : Type) where
  event : UsageEvent ε
  left : ℕ
  started : Bool

def directSettlementFuture (event : UsageEvent ε) : Settlement ε :=
  ⟨event, directReadSettlementAttempts, false⟩

/-- How a poll of the settlement ends. -/
inductive SettlementPoll (ε : Type)
  | pending (settlement : Settlement ε)
  | ready (result : Except MeteringError Unit)

def Settlement.start (settlement : Settlement ε) : List (Act ε) :=
  if settlement.started then [] else [.recordStarted settlement.event]

/-- One poll of the settlement. The answers are those of the calls of `record` that
are ready; behind the last one the call is pending. -/
def Settlement.poll (settlement : Settlement ε) :
    List (Except MeteringError Unit) → List (Act ε) × SettlementPoll ε
  | [] => (settlement.start, .pending { settlement with started := true })
  | .ok () :: _ =>
      (settlement.start ++ [.recordReturned settlement.event (.ok ())], .ready (.ok ()))
  | .error error :: answers =>
      let acts := settlement.start ++ [.recordReturned settlement.event (.error error)]
      if settlement.left ≤ 1 then (acts, .ready (.error error))
      else
        let next : Settlement ε := ⟨settlement.event, settlement.left - 1, false⟩
        let rest := next.poll answers
        (acts ++ rest.1, rest.2)

/-! ### The body -/

structure DirectReadBody (ε : Type) where
  first : Option Bytes
  grant : AuthorizationGrant
  settlement : Option (Settlement ε)
  disclosed : Bool
  reservationOwned : Bool
  done : Bool

/-- The answers to one poll: of the receiver, if it is asked (`none` while nothing is
there, `some none` when the channel is closed), and of the control plane. -/
structure PollInput (ε : Type) where
  received : Option (Option (DirectReadEvent ε))
  answers : List (Except MeteringError Unit)

namespace DirectReadBody

/-- The branch of `poll_frame` for a settlement that is under way. -/
def pollSettlement (body : DirectReadBody ε) (settlement : Settlement ε)
    (answers : List (Except MeteringError Unit)) : List (Act ε) × DirectReadBody ε :=
  match settlement.poll answers with
  | (acts, .ready (.ok ())) =>
      (acts ++ [.ended], { body with settlement := none, reservationOwned := false, done := true })
  | (acts, .ready (.error _)) =>
      (acts ++ [.failed "direct transformed-read usage settlement failed"],
        { body with settlement := none, done := true })
  | (acts, .pending settlement) => (acts, { body with settlement := some settlement })

/-- The branches of `poll_frame` for what the worker sends. -/
def pollReceiver (body : DirectReadBody ε) (input : PollInput ε) : List (Act ε) × DirectReadBody ε :=
  match input.received with
  | none => ([], body)
  | some none =>
      ([.cancelled, .failed "transformed read worker terminated unexpectedly"],
        { body with done := true })
  | some (some (.data bytes)) => ([.delivered bytes], { body with disclosed := true })
  | some (some (.failed error)) =>
      if body.disclosed then
        ([.recordAttempt error.code, .failed "direct transformed-read pipeline failed"],
          { body with done := true })
      else
        ([.recordAttempt error.code, .release body.grant.operationId,
            .failed "direct transformed-read pipeline failed"],
          { body with done := true, reservationOwned := false })
  | some (some (.done sourceBytes outputBytes evidence)) =>
      if body.grant.maxProcessedBytes < max sourceBytes outputBytes then
        ([.failed "direct transformed-read exceeded its authorized size"], { body with done := true })
      else
        body.pollSettlement
          (directSettlementFuture (usageEvent body.grant sourceBytes outputBytes evidence))
          input.answers

/-- `poll_frame`. -/
def pollFrame (body : DirectReadBody ε) (input : PollInput ε) : List (Act ε) × DirectReadBody ε :=
  match body.settlement with
  | some settlement => body.pollSettlement settlement input.answers
  | none =>
      match body.first with
      | some bytes => ([.delivered bytes], { body with first := none, disclosed := true })
      | none => body.pollReceiver input

/-- `Drop`; a release needs a runtime to run in. -/
def drop (body : DirectReadBody ε) (inRuntime : Bool) : List (Act ε) :=
  if body.done then []
  else
    .cancelled ::
      if body.reservationOwned ∧ body.disclosed = false ∧ inRuntime then
        [.release body.grant.operationId]
      else []

/-- The polls up to the end of the body, or all of them, and then the drop. -/
def run (inRuntime : Bool) : DirectReadBody ε → List (PollInput ε) → List (Act ε)
  | body, [] => body.drop inRuntime
  | body, input :: inputs =>
      if body.done then body.drop inRuntime
      else (body.pollFrame input).1 ++ run inRuntime (body.pollFrame input).2 inputs

end DirectReadBody

/-- The direct branch of `transformed_read_response`, from the first event of the
worker on: without a body the response is an error. -/
def transformedReadResponse (grant : AuthorizationGrant) :
    Option (DirectReadEvent ε) → Option (DirectReadBody ε)
  | some (.data bytes) => some ⟨some bytes, grant, none, false, true, false⟩
  | some (.done sourceBytes outputBytes evidence) =>
      some ⟨none, grant,
        some (directSettlementFuture (usageEvent grant sourceBytes outputBytes evidence)),
        false, true, false⟩
  | some (.failed _) | none => none

/-! ### Billed or released -/

/-- What makes the read billable. -/
def Act.Commits : Act ε → Prop
  | .delivered _ | .recordStarted _ => True
  | _ => False

def Act.isRelease : Act ε → Bool
  | .release _ => true
  | _ => false

/-- The byte counts are within the grant. -/
def UsageEvent.Within (grant : AuthorizationGrant) (event : UsageEvent ε) : Prop :=
  max event.sourceBytes event.outputBytes ≤ grant.maxProcessedBytes

/-- The read ends normally only after its usage was recorded, within the grant. -/
def EndsRecorded (grant : AuthorizationGrant) (acts : List (Act ε)) : Prop :=
  ∀ before behind, acts = before ++ .ended :: behind →
    ∃ event, .recordReturned event (.ok ()) ∈ before ∧ event.Within grant

/-- A read is billed or released, never both. -/
structure BilledOrReleased (grant : AuthorizationGrant) (acts : List (Act ε)) : Prop where
  ends : EndsRecorded grant acts
  release_first : ∀ before behind id, acts = before ++ .release id :: behind →
    ∀ act ∈ before, ¬ act.Commits
  release_once : acts.countP Act.isRelease ≤ 1
  released : (∀ act ∈ acts, ¬ act.Commits) → .release grant.operationId ∈ acts

/-- What becomes of the settlement with these answers, when there are so many attempts. -/
def settled : ℕ → List (Except MeteringError Unit) → Option (Except MeteringError Unit)
  | _, [] => none
  | _, .ok () :: _ => some (.ok ())
  | left, .error error :: answers =>
      if left ≤ 1 then some (.error error) else settled (left - 1) answers

/-- A call of `record` for the event. -/
def IsRecordOf (event : UsageEvent ε) (act : Act ε) : Prop :=
  act = .recordStarted event ∨ ∃ result, act = .recordReturned event result

variable {act : Act ε} {body : DirectReadBody ε} {grant : AuthorizationGrant}

theorem Settlement.isRecordOf_of_mem_start {settlement : Settlement ε} (h : act ∈ settlement.start) :
    IsRecordOf settlement.event act := by
  unfold start at h
  split at h
  · cases h
  · exact .inl (List.mem_singleton.mp h)

theorem Settlement.isRecordOf_of_mem_poll {answers : List (Except MeteringError Unit)}
    {settlement : Settlement ε} (h : act ∈ (settlement.poll answers).1) :
    IsRecordOf settlement.event act := by
  induction answers generalizing settlement with
  | nil => exact isRecordOf_of_mem_start h
  | cons answer answers ih =>
      cases answer with
      | ok _ =>
          obtain h | h := List.mem_append.mp h
          · exact isRecordOf_of_mem_start h
          · exact .inr ⟨_, List.mem_singleton.mp h⟩
      | error error =>
          rw [poll] at h
          split at h
          all_goals
            simp only [List.mem_append, List.mem_singleton] at h
          · obtain h | rfl := h
            · exact isRecordOf_of_mem_start h
            · exact .inr ⟨_, rfl⟩
          · obtain (h | rfl) | h := h
            · exact isRecordOf_of_mem_start h
            · exact .inr ⟨_, rfl⟩
            · exact @ih ⟨settlement.event, settlement.left - 1, false⟩ h

/-- The first poll calls `record`. -/
theorem Settlement.recordStarted_mem_poll {settlement : Settlement ε} (h : settlement.started = false)
    (answers : List (Except MeteringError Unit)) :
    .recordStarted settlement.event ∈ (settlement.poll answers).1 := by
  have hstart : settlement.start = [.recordStarted settlement.event] := by simp [start, h]
  cases answers with
  | nil => simp [poll, hstart]
  | cons answer answers =>
      cases answer with
      | ok _ => simp [poll, hstart]
      | error error =>
          rw [poll]
          split <;> simp [hstart]

/-- A settlement is ready with the answer that settles it. -/
theorem Settlement.poll_ready {answers : List (Except MeteringError Unit)} {settlement : Settlement ε}
    {result : Except MeteringError Unit} (h : settled settlement.left answers = some result) :
    (settlement.poll answers).2 = .ready result ∧
      (result = .ok () → .recordReturned settlement.event (.ok ()) ∈ (settlement.poll answers).1) := by
  induction answers generalizing settlement with
  | nil => cases h
  | cons answer answers ih =>
      cases answer with
      | ok _ =>
          cases h
          exact ⟨rfl, fun _ => by simp [poll]⟩
      | error error =>
          rw [settled] at h
          rw [poll]
          by_cases hleft : settlement.left ≤ 1
          · rw [if_pos hleft] at h ⊢
            cases h
            exact ⟨rfl, fun hok => by cases hok⟩
          · rw [if_neg hleft] at h ⊢
            obtain ⟨hready, hrecorded⟩ := @ih ⟨settlement.event, _, false⟩ h
            exact ⟨hready, fun hok => List.mem_append_right _ (hrecorded hok)⟩

/-- Otherwise it is pending, with fewer attempts left. -/
theorem Settlement.poll_pending {answers : List (Except MeteringError Unit)}
    {settlement : Settlement ε} (h : settled settlement.left answers = none) :
    ∃ left, (settlement.poll answers).2 = .pending ⟨settlement.event, left, true⟩ ∧
      ∀ more, settled settlement.left (answers ++ more) = settled left more := by
  induction answers generalizing settlement with
  | nil => exact ⟨settlement.left, rfl, fun _ => rfl⟩
  | cons answer answers ih =>
      cases answer with
      | ok _ => cases h
      | error error =>
          rw [settled] at h
          by_cases hleft : settlement.left ≤ 1
          · rw [if_pos hleft] at h
            cases h
          · rw [if_neg hleft] at h
            obtain ⟨left, hpending, hmore⟩ := @ih ⟨settlement.event, _, false⟩ h
            refine ⟨left, by rw [poll, if_neg hleft]; exact hpending, fun more => ?_⟩
            rw [List.cons_append, settled, if_neg hleft]
            exact hmore more

theorem settled_append {left : ℕ} {answers : List (Except MeteringError Unit)}
    {result : Except MeteringError Unit} (h : settled left answers = some result)
    (more : List (Except MeteringError Unit)) : settled left (answers ++ more) = some result := by
  induction answers generalizing left with
  | nil => cases h
  | cons answer answers ih =>
      cases answer with
      | ok _ => exact h
      | error error =>
          rw [settled] at h
          rw [List.cons_append, settled]
          split at h
          · next hleft => rw [if_pos hleft, h]
          · next hleft => rw [if_neg hleft, ih h]

/-! ### Runs -/

namespace DirectReadBody

theorem run_of_done (h : body.done = true) (inRuntime : Bool) (inputs : List (PollInput ε)) :
    body.run inRuntime inputs = [] := by
  cases inputs <;> simp [run, drop, h]

/-- What a run writes down from a settlement on. -/
def settlementEnd (body : DirectReadBody ε) (inRuntime : Bool) :
    Option (Except MeteringError Unit) → List (Act ε)
  | some (.ok ()) => [.ended]
  | some (.error _) => [.failed "direct transformed-read usage settlement failed"]
  | none => body.drop inRuntime

/-- From a settlement on a run calls `record`, until the settlement is ready or the
body is dropped. -/
theorem run_settling {settlement : Settlement ε} (hsettlement : body.settlement = some settlement)
    (hdone : body.done = false) (inRuntime : Bool) (inputs : List (PollInput ε)) :
    ∃ records, body.run inRuntime inputs = records ++ body.settlementEnd inRuntime
        (settled settlement.left (inputs.flatMap PollInput.answers)) ∧
      (∀ act ∈ records, IsRecordOf settlement.event act) ∧
      (settled settlement.left (inputs.flatMap PollInput.answers) = some (.ok ()) →
        .recordReturned settlement.event (.ok ()) ∈ records) ∧
      (inputs ≠ [] → settlement.started = false → .recordStarted settlement.event ∈ records) := by
  induction inputs generalizing body settlement with
  | nil => exact ⟨[], rfl, by simp, by simp [settled], by simp⟩
  | cons input inputs ih =>
      have hrecords : ∀ act ∈ (settlement.poll input.answers).1, IsRecordOf settlement.event act :=
        fun _ hact => Settlement.isRecordOf_of_mem_poll hact
      have hstarted (h : settlement.started = false) :=
        Settlement.recordStarted_mem_poll h input.answers
      rw [run, hdone, if_neg Bool.false_ne_true, pollFrame, hsettlement, List.flatMap_cons]
      dsimp only
      rw [pollSettlement]
      cases hsettled : settled settlement.left input.answers with
      | some result =>
          obtain ⟨hready, hreturned⟩ := Settlement.poll_ready hsettled
          rw [settled_append hsettled]
          refine ⟨(settlement.poll input.answers).1, ?_, hrecords,
            fun hok => hreturned (Option.some.inj hok), fun _ => hstarted⟩
          generalize settlement.poll input.answers = polled at hready
          obtain ⟨acts, outcome⟩ := polled
          obtain rfl : outcome = .ready result := hready
          cases result <;> simp [run_of_done, settlementEnd]
      | none =>
          obtain ⟨left, hpending, hmore⟩ := Settlement.poll_pending hsettled
          obtain ⟨records, hrun, hall, hok, -⟩ := @ih
            { body with settlement := some ⟨settlement.event, left, true⟩ }
            ⟨settlement.event, left, true⟩ rfl hdone
          rw [hmore]
          refine ⟨(settlement.poll input.answers).1 ++ records, ?_, ?_,
            fun h => List.mem_append_right _ (hok h),
            fun _ h => List.mem_append_left _ (hstarted h)⟩
          · generalize settlement.poll input.answers = polled at hpending
            obtain ⟨acts, outcome⟩ := polled
            obtain rfl : outcome = .pending ⟨settlement.event, left, true⟩ := hpending
            dsimp only
            rw [hrun, List.append_assoc]
            rfl
          · intro act hact
            obtain hact | hact := List.mem_append.mp hact
            · exact hrecords act hact
            · exact hall act hact

end DirectReadBody

/-! ### What a run may write down -/

theorem endsRecorded_of_not_mem {acts : List (Act ε)} (h : .ended ∉ acts) :
    EndsRecorded grant acts := by
  rintro before behind rfl
  exact absurd (List.mem_append_right _ List.mem_cons_self) h

theorem EndsRecorded.cons {acts : List (Act ε)} (h : EndsRecorded grant acts) (hact : act ≠ .ended) :
    EndsRecorded grant (act :: acts) := by
  intro before behind hsplit
  cases before with
  | nil => exact absurd (List.cons.inj hsplit).1 hact
  | cons first before =>
      obtain ⟨event, hevent, hwithin⟩ := h before behind (List.cons.inj hsplit).2
      exact ⟨event, .tail _ hevent, hwithin⟩

/-- The only end stands last, so what is recorded is what stands before it. -/
theorem endsRecorded_concat {records : List (Act ε)} (h : .ended ∉ records) :
    EndsRecorded grant (records ++ [.ended]) ↔
      ∃ event, .recordReturned event (.ok ()) ∈ records ∧ event.Within grant := by
  constructor
  · exact fun hends => hends records [] rfl
  · rintro hrecorded before behind hsplit
    obtain ⟨rfl, -⟩ : before = records ∧ behind = [] := by
      obtain ⟨middle, hbefore, hmiddle⟩ | ⟨middle, hrecords, hmiddle⟩ :=
        List.append_eq_append_iff.mp hsplit
      · cases middle with
        | nil => exact ⟨by simpa using hbefore, (List.cons.inj hmiddle).2.symm⟩
        | cons act middle => simp at hmiddle
      · cases middle with
        | nil => exact ⟨by simpa using hrecords.symm, (List.cons.inj hmiddle).2⟩
        | cons act middle =>
            rw [hrecords, ← (List.cons.inj hmiddle).1] at h
            exact absurd (List.mem_append_right _ List.mem_cons_self) h
    exact hrecorded

/-- Nothing is released, and the end is a recorded one. -/
structure Clean (grant : AuthorizationGrant) (acts : List (Act ε)) : Prop where
  ends : EndsRecorded grant acts
  kept : ∀ id, .release id ∉ acts

theorem Clean.append {acts more : List (Act ε)} (h : Clean grant more)
    (hacts : ∀ act ∈ acts, act ≠ .ended ∧ ∀ id, act ≠ .release id) :
    Clean grant (acts ++ more) := by
  induction acts with
  | nil => exact h
  | cons act acts ih =>
      obtain ⟨hact, hrest⟩ := List.forall_mem_cons.mp hacts
      refine ⟨(ih hrest).ends.cons hact.1, fun id hmem => ?_⟩
      obtain heq | hmem := List.mem_cons.mp hmem
      · exact hact.2 id heq.symm
      · exact (ih hrest).kept id hmem

theorem IsRecordOf.ne_ended {event : UsageEvent ε} (h : IsRecordOf event act) :
    act ≠ .ended := by
  obtain rfl | ⟨result, rfl⟩ := h <;> simp

theorem IsRecordOf.ne_release {event : UsageEvent ε} (h : IsRecordOf event act) (id : ℕ) :
    act ≠ .release id := by
  obtain rfl | ⟨result, rfl⟩ := h <;> simp

/-- A read that is clean and has committed is billed. -/
theorem Clean.billedOrReleased {acts : List (Act ε)} (h : Clean grant acts)
    (hcommits : ∃ act ∈ acts, act.Commits) : BilledOrReleased grant acts where
  ends := h.ends
  release_first before behind id hsplit :=
    absurd (hsplit ▸ List.mem_append_right _ List.mem_cons_self) (h.kept id)
  release_once := by
    rw [List.countP_eq_zero.mpr]
    · exact Nat.zero_le 1
    · intro act hact hrelease
      cases act with
      | release id => exact h.kept id hact
      | _ => cases hrelease
  released hnone := by
    obtain ⟨act, hact, hcommits⟩ := hcommits
    exact absurd hcommits (hnone act hact)

namespace DirectReadBody

/-- From a settlement within the grant on, a body that has disclosed something is clean. -/
theorem clean_of_settling {settlement : Settlement ε}
    (hsettlement : body.settlement = some settlement) (hdone : body.done = false)
    (hdisclosed : body.disclosed = true) (hwithin : settlement.event.Within body.grant)
    (inRuntime : Bool) (inputs : List (PollInput ε)) :
    Clean body.grant (body.run inRuntime inputs) := by
  obtain ⟨records, hrun, hall, hok, -⟩ := run_settling hsettlement hdone inRuntime inputs
  have hended : .ended ∉ records := fun hmem => (hall _ hmem).ne_ended rfl
  have hkept (id : ℕ) : .release id ∉ records := fun hmem => (hall _ hmem).ne_release id rfl
  rw [hrun]
  cases hsettled : settled settlement.left (inputs.flatMap PollInput.answers) with
  | none =>
      have hdrop : body.drop inRuntime = [.cancelled] := by simp [drop, hdone, hdisclosed]
      rw [settlementEnd, hdrop]
      exact ⟨endsRecorded_of_not_mem (by simp [hended]), by simp [hkept]⟩
  | some result =>
      cases result with
      | ok _ => exact ⟨(endsRecorded_concat hended).mpr ⟨_, hok hsettled, hwithin⟩,
          by simp [settlementEnd, hkept]⟩
      | error error => exact ⟨endsRecorded_of_not_mem (by simp [settlementEnd, hended]),
          by simp [settlementEnd, hkept]⟩

/-- One poll of a body that has disclosed something and is not settling: it neither ends
normally nor releases, or it begins to settle within the grant. -/
theorem pollFrame_disclosed (hdisclosed : body.disclosed = true) (hsettle : body.settlement = none)
    (input : PollInput ε) :
    (∃ acts after, body.pollFrame input = (acts, after) ∧
      (∀ act ∈ acts, act ≠ .ended ∧ ∀ id, act ≠ .release id) ∧
      after.disclosed = true ∧ after.settlement = none ∧ after.grant = body.grant) ∨
    ∃ event, event.Within body.grant ∧ body.pollFrame input =
      ({ body with settlement := some (directSettlementFuture event) } : DirectReadBody ε).pollFrame
        input := by
  obtain hfirst | ⟨bytes, hfirst⟩ : body.first = none ∨ ∃ bytes, body.first = some bytes := by
    cases body.first <;> simp
  · have hreceiver : body.pollFrame input = body.pollReceiver input := by
      rw [pollFrame, hsettle, hfirst]
    rw [hreceiver, pollReceiver]
    cases input.received with
    | none => exact .inl ⟨_, _, rfl, by simp, hdisclosed, hsettle, rfl⟩
    | some received =>
        cases received with
        | none => exact .inl ⟨_, _, rfl, by simp, hdisclosed, hsettle, rfl⟩
        | some event =>
            cases event with
            | data bytes => exact .inl ⟨_, _, rfl, by simp, rfl, hsettle, rfl⟩
            | failed error =>
                dsimp only
                rw [if_pos hdisclosed]
                exact .inl ⟨_, _, rfl, by simp, hdisclosed, hsettle, rfl⟩
            | done sourceBytes outputBytes evidence =>
                dsimp only
                by_cases hsize : body.grant.maxProcessedBytes < max sourceBytes outputBytes
                · rw [if_pos hsize]
                  exact .inl ⟨_, _, rfl, by simp, hdisclosed, hsettle, rfl⟩
                · rw [if_neg hsize]
                  refine .inr ⟨usageEvent body.grant sourceBytes outputBytes evidence, ?_, rfl⟩
                  cases evidence <;> exact Nat.le_of_not_lt hsize
  · exact .inl ⟨[.delivered bytes], { body with first := none, disclosed := true },
      by rw [pollFrame, hsettle, hfirst], by simp, rfl, hsettle, rfl⟩

/-- A body that has disclosed something releases nothing, and settles within the grant. -/
theorem clean_of_disclosed (hdisclosed : body.disclosed = true) (hsettle : body.settlement = none)
    (inRuntime : Bool) (inputs : List (PollInput ε)) :
    Clean body.grant (body.run inRuntime inputs) := by
  induction inputs generalizing body with
  | nil =>
      have hdrop : body.drop inRuntime = [] ∨ body.drop inRuntime = [.cancelled] := by
        cases hdone : body.done <;> simp [drop, hdone, hdisclosed]
      rw [run]
      obtain hdrop | hdrop := hdrop <;> rw [hdrop] <;>
        exact ⟨endsRecorded_of_not_mem (by simp), by simp⟩
  | cons input inputs ih =>
      cases hdone : body.done with
      | true =>
          rw [run_of_done hdone]
          exact ⟨endsRecorded_of_not_mem (by simp), by simp⟩
      | false =>
          obtain ⟨acts, next, hpoll, hacts, hdisclosed', hsettle', hgrant⟩ | ⟨event, hwithin, hpoll⟩ :=
            pollFrame_disclosed hdisclosed hsettle input
          · rw [run, hdone, if_neg Bool.false_ne_true, hpoll, ← hgrant]
            exact (ih hdisclosed' hsettle').append hacts
          · have hsame : body.run inRuntime (input :: inputs) =
                ({ body with settlement := some (directSettlementFuture event) } :
                  DirectReadBody ε).run inRuntime (input :: inputs) := by
              rw [run, run, hpoll]
              simp only [hdone]
              rfl
            rw [hsame]
            exact @clean_of_settling _ { body with settlement := some (directSettlementFuture event) }
              _ rfl hdone hdisclosed hwithin inRuntime (input :: inputs)

end DirectReadBody

/-- The reads that are billed or released: a drop before the first poll happens in a
runtime; and when the worker is done at once, its usage is within the grant if it is
recorded, and no drop in a runtime comes while the recording is under way. -/
def Settleable (grant : AuthorizationGrant) (first : DirectReadEvent ε) (inputs : List (PollInput ε))
    (inRuntime : Bool) : Prop :=
  (inputs = [] → inRuntime = true) ∧
    ∀ sourceBytes outputBytes evidence, first = .done sourceBytes outputBytes evidence → inputs ≠ [] →
      match settled directReadSettlementAttempts (inputs.flatMap PollInput.answers) with
      | some (.ok ()) => max sourceBytes outputBytes ≤ grant.maxProcessedBytes
      | some (.error _) => True
      | none => inRuntime = false

/-- A body as it is made. -/
structure Fresh (grant : AuthorizationGrant) (body : DirectReadBody ε) : Prop where
  grant_eq : body.grant = grant
  done : body.done = false
  owned : body.reservationOwned = true
  disclosed : body.disclosed = false

theorem fresh_of_response {first : Option (DirectReadEvent ε)}
    (h : transformedReadResponse grant first = some body) :
    Fresh grant body := by
  unfold transformedReadResponse at h
  split at h <;> cases h <;> exact ⟨rfl, rfl, rfl, rfl⟩

/-- A body that is dropped before it was polled gives the reservation back in a runtime. -/
theorem billedOrReleased_of_dropped (hfresh : Fresh grant body) (inRuntime : Bool) :
    BilledOrReleased grant (body.drop inRuntime) ↔ inRuntime = true := by
  cases inRuntime with
  | false =>
      have hdrop : body.drop false = [.cancelled] := by simp [DirectReadBody.drop, hfresh.done]
      rw [hdrop]
      refine iff_of_false (fun h => ?_) Bool.false_ne_true
      have hreleased := h.released (by simp [Act.Commits])
      simp at hreleased
  | true =>
      have hdrop : body.drop true = [.cancelled, .release grant.operationId] := by
        simp [DirectReadBody.drop, hfresh.done, hfresh.owned, hfresh.disclosed, hfresh.grant_eq]
      rw [hdrop]
      refine iff_of_true ⟨endsRecorded_of_not_mem (by simp), ?_, by simp [Act.isRelease],
        fun _ => by simp⟩ rfl
      intro before behind id hsplit act hact
      have hbefore : before = [.cancelled] := by
        match before, hsplit with
        | [_], hsplit => rw [(List.cons.inj hsplit).1]
        | _ :: _ :: _, hsplit => simp at hsplit
      rw [hbefore, List.mem_singleton] at hact
      simp [hact, Act.Commits]

theorem within_usageEvent {grant grant' : AuthorizationGrant} {sourceBytes outputBytes : ℕ}
    {evidence : Option ε} :
    (usageEvent grant sourceBytes outputBytes evidence).Within grant' ↔
      max sourceBytes outputBytes ≤ grant'.maxProcessedBytes := by
  cases evidence <;> rfl

/-- A body that was made for a worker that was done at once. -/
theorem billedOrReleased_of_settling {event : UsageEvent ε}
    (hsettlement : body.settlement = some (directSettlementFuture event))
    (hfresh : Fresh grant body) (inRuntime : Bool) {inputs : List (PollInput ε)}
    (hinputs : inputs ≠ []) :
    BilledOrReleased grant (body.run inRuntime inputs) ↔
      match settled directReadSettlementAttempts (inputs.flatMap PollInput.answers) with
      | some (.ok ()) => event.Within grant
      | some (.error _) => True
      | none => inRuntime = false := by
  obtain ⟨records, hrun, hall, hok, hstarted⟩ :=
    DirectReadBody.run_settling hsettlement hfresh.done inRuntime inputs
  have hrecord : .recordStarted event ∈ records := hstarted hinputs rfl
  have hended : .ended ∉ records := fun hmem => (hall _ hmem).ne_ended rfl
  have hkept (id : ℕ) : .release id ∉ records := fun hmem => (hall _ hmem).ne_release id rfl
  have hcommits (more : List (Act ε)) : ∃ act ∈ records ++ more, act.Commits :=
    ⟨_, List.mem_append_left _ hrecord, trivial⟩
  change body.run inRuntime inputs = records ++ body.settlementEnd inRuntime
    (settled directReadSettlementAttempts (inputs.flatMap PollInput.answers)) at hrun
  rw [hrun]
  cases hsettled : settled directReadSettlementAttempts (inputs.flatMap PollInput.answers) with
  | none =>
      cases inRuntime with
      | false =>
          have hdrop : body.drop false = [.cancelled] := by simp [DirectReadBody.drop, hfresh.done]
          rw [DirectReadBody.settlementEnd, hdrop]
          exact iff_of_true (Clean.billedOrReleased ⟨endsRecorded_of_not_mem (by simp [hended]),
            by simp [hkept]⟩ (hcommits _)) rfl
      | true =>
          -- The reservation is given back although its usage is being recorded.
          have hdrop : body.drop true = [.cancelled] ++ [.release grant.operationId] := by
            simp [DirectReadBody.drop, hfresh.done, hfresh.owned, hfresh.disclosed, hfresh.grant_eq]
          rw [DirectReadBody.settlementEnd, hdrop, ← List.append_assoc]
          refine iff_of_false (fun h => ?_) (by simp)
          exact h.release_first _ [] _ rfl _ (List.mem_append_left _ hrecord) trivial
  | some result =>
      cases result with
      | error error =>
          exact iff_of_true (Clean.billedOrReleased
            ⟨endsRecorded_of_not_mem (by simp [DirectReadBody.settlementEnd, hended]),
              by simp [DirectReadBody.settlementEnd, hkept]⟩ (hcommits _)) trivial
      | ok _ =>
          have hends := @endsRecorded_concat _ grant _ hended
          constructor
          · intro h
            obtain ⟨event', hreturned, hwithin⟩ := hends.mp h.ends
            obtain heq | ⟨result, heq⟩ := hall _ hreturned
            · cases heq
            · cases heq
              exact hwithin
          · intro hwithin
            exact Clean.billedOrReleased ⟨hends.mpr ⟨event, hok hsettled, hwithin⟩,
              by simp [DirectReadBody.settlementEnd, hkept]⟩ (hcommits _)

/-- Over every run of a body, a direct read is billed or released, and never both, exactly
when it is settleable. -/
theorem directRead_billed_or_released_iff (grant : AuthorizationGrant) (first : DirectReadEvent ε)
    (body : DirectReadBody ε) (hbody : transformedReadResponse grant (some first) = some body)
    (inputs : List (PollInput ε)) (inRuntime : Bool) :
    BilledOrReleased grant (body.run inRuntime inputs) ↔ Settleable grant first inputs inRuntime := by
  have hfresh := fresh_of_response hbody
  cases inputs with
  | nil =>
      rw [DirectReadBody.run, billedOrReleased_of_dropped hfresh]
      exact ⟨fun h => ⟨fun _ => h, fun _ _ _ _ hne => absurd rfl hne⟩, fun h => h.1 rfl⟩
  | cons input inputs =>
      cases first with
      | failed error => cases hbody
      | data bytes =>
          cases hbody
          have hclean := @DirectReadBody.clean_of_disclosed _ ⟨none, grant, none, true, true, false⟩
            rfl rfl inRuntime inputs
          have hrun := @Clean.append _ grant [.delivered bytes] _ hclean (by simp)
          refine iff_of_true (hrun.billedOrReleased ⟨.delivered bytes, by simp, trivial⟩) ?_
          exact ⟨by simp, by simp⟩
      | done sourceBytes outputBytes evidence =>
          cases hbody
          rw [billedOrReleased_of_settling rfl hfresh inRuntime (List.cons_ne_nil _ _)]
          simp only [within_usageEvent]
          constructor
          · intro h
            refine ⟨by simp, fun _ _ _ heq _ => ?_⟩
            cases heq
            exact h
          · exact fun h => h.2 _ _ _ rfl (List.cons_ne_nil _ _)

/-! ### Samples -/

def sampleGrant : AuthorizationGrant := ⟨1, 2, 10⟩

/-- One chunk of data, and then the end. -/
def oneChunk : List (PollInput Unit) :=
  [⟨none, []⟩, ⟨some (some (.done 4 1 none)), [.error .unavailable, .ok ()]⟩]

/-- A read of one chunk whose second attempt to record succeeds. -/
theorem one_chunk_billed :
    transformedReadResponse sampleGrant (some (.data [7])) =
        some (⟨some [7], sampleGrant, none, false, true, false⟩ : DirectReadBody Unit) ∧
      BilledOrReleased sampleGrant
        (DirectReadBody.run true ⟨some [7], sampleGrant, none, false, true, false⟩ oneChunk) :=
  ⟨rfl, (directRead_billed_or_released_iff sampleGrant (.data [7]) _ rfl oneChunk true).mpr
    ⟨by simp [oneChunk], by simp⟩⟩

/-- The body of a worker that is done at once. -/
def emptyRead (sourceBytes : ℕ) : Option (DirectReadBody Unit) :=
  transformedReadResponse sampleGrant (some (.done sourceBytes 0 none))

/-- Without output, usage above the grant is recorded and the body ends normally; and a body
that is dropped while its usage is being recorded gives the reservation back. -/
theorem empty_read_not_settled :
    (∃ body, emptyRead 11 = some body ∧ ¬ BilledOrReleased sampleGrant (body.run true [⟨none, [.ok ()]⟩])) ∧
      ∃ body, emptyRead 4 = some body ∧ ¬ BilledOrReleased sampleGrant (body.run true [⟨none, []⟩]) := by
  refine ⟨⟨_, rfl, fun h => ?_⟩, ⟨_, rfl, fun h => ?_⟩⟩
  · obtain ⟨event, hevent, hwithin⟩ := h.ends
      [.recordStarted (usageEvent sampleGrant 11 0 none),
        .recordReturned (usageEvent sampleGrant 11 0 none) (.ok ())] [] rfl
    simp only [List.mem_cons, reduceCtorEq, Act.recordReturned.injEq, and_true, List.not_mem_nil,
      or_false, false_or] at hevent
    subst hevent
    exact absurd (within_usageEvent.mp hwithin) (by decide)
  · exact h.release_first [.recordStarted (usageEvent sampleGrant 4 0 none), .cancelled] [] 1 rfl _
      List.mem_cons_self trivial

end Maskura.Reads
