import Mathlib.Data.Nat.Basic

/-!
A commit protocol with fencing, on its own.

Some work is opened, claimed by a worker under a request and a token,
published at a destination under an operation, and completed with the record
of that publication. A claim can be taken over, which raises the token, and
a publication that is known not to have happened can be released, which puts
the work back into its claim. What the protocol is for: a record, once there,
is the only one there will ever be; and a worker with an old token cannot
act.
-/

namespace Maskura.Lib.FencedCommit

/-- Where the work stands. `F` are requests, `O` operations, `R` records of a
publication and `Q` results of the work. -/
inductive Phase (F O R Q : Type)
  | fresh
  | opened
  | claimed (request : F) (token : ℕ)
  | publishing (request : F) (token : ℕ) (operation : O) (record : Option R)
  | completed (token : ℕ) (result : Q) (record : Option R)
  | cancelled
  | gone
  deriving DecidableEq

/-- What is done to the work. `edit` may change what is to be published,
`note` leaves the protocol alone. -/
inductive Action (F O R Q : Type)
  | create
  | edit
  | note
  | claim (request : F) (token : ℕ)
  | renew (token : ℕ)
  | start (request : F) (token : ℕ) (operation : O)
  | record (request : F) (token : ℕ) (operation : O) (record : R)
  | release (request : F) (token : ℕ) (operation : O)
  | complete (request : F) (token : ℕ) (operation : O) (result : Q)
  | clear
  | cancel
  | retire

variable {F O R Q : Type} (result : R → Q)

/-- One step of the protocol. Work may be taken up in any phase. -/
inductive Step : Phase F O R Q → Action F O R Q → Phase F O R Q → Prop
  | create (p : Phase F O R Q) (h : p ≠ .fresh) : Step .fresh .create p
  | edit : Step .opened .edit .opened
  | note (p : Phase F O R Q) (h : p ≠ .fresh) : Step p .note p
  | claim (request : F) : Step .opened (.claim request 1) (.claimed request 1)
  | reclaim (request : F) (token : ℕ) :
      Step (.claimed request token) (.claim request (token + 1)) (.claimed request (token + 1))
  | renew (request : F) (token : ℕ) :
      Step (.claimed request token) (.renew token) (.claimed request token)
  | start (request : F) (token : ℕ) (operation : O) :
      Step (.claimed request token) (.start request token operation)
        (.publishing request token operation none)
  | record (request : F) (token : ℕ) (operation : O) (r : R) :
      Step (.publishing request token operation none) (.record request token operation r)
        (.publishing request token operation (some r))
  | release (request : F) (token : ℕ) (operation : O) :
      Step (.publishing request token operation none) (.release request token operation)
        (.claimed request token)
  | complete (request : F) (token : ℕ) (operation : O) (r : R) :
      Step (.publishing request token operation (some r))
        (.complete request token operation (result r)) (.completed token (result r) (some r))
  | clear (token : ℕ) (q : Q) (r : R) :
      Step (.completed token q (some r)) .clear (.completed token q none)
  | cancel : Step .opened .cancel .cancelled
  | retireCompleted (token : ℕ) (q : Q) : Step (.completed token q none) .retire .gone
  | retireCancelled : Step .cancelled .retire .gone

variable {result} {p q : Phase F O R Q} {a : Action F O R Q}

/-! ### The record -/

/-- `r` is the record of the publication, for good. -/
def Phase.Committed (result : R → Q) (r : R) : Phase F O R Q → Prop
  | .publishing _ _ _ record => record = some r
  | .completed _ q record => q = result r ∧ (record = some r ∨ record = none)
  | .gone => True
  | _ => False

theorem Step.committed_of_record {request : F} {token : ℕ} {operation : O} {r : R}
    (h : Step result p (.record request token operation r) q) : q.Committed result r := by
  cases h
  rfl

theorem Phase.Committed.step {r : R} (hp : p.Committed result r) (h : Step result p a q) :
    q.Committed result r := by
  cases h with
  | note => exact hp
  | complete request token operation r' =>
      obtain rfl : r' = r := Option.some.inj hp
      exact ⟨rfl, .inl rfl⟩
  | clear token q r' => exact ⟨hp.1, .inr rfl⟩
  | retireCompleted => exact trivial
  | record request token operation r' => cases hp
  | create => exact hp.elim
  | edit => exact hp.elim
  | claim => exact hp.elim
  | reclaim => exact hp.elim
  | renew => exact hp.elim
  | start => exact hp.elim
  | release => cases hp
  | cancel => exact hp.elim
  | retireCancelled => exact hp.elim

/-- Once there is a record, none is recorded or released any more. -/
theorem Phase.Committed.not_step {r : R} {p : Phase F O R Q} (hp : p.Committed result r)
    {request : F} {token : ℕ} {operation : O} :
    (∀ r' q, ¬Step result p (.record request token operation r') q) ∧
      ∀ q, ¬Step result p (.release request token operation) q := by
  constructor
  · rintro r' q ⟨⟩
    cases hp
  · rintro q ⟨⟩
    cases hp

/-! ### Tokens -/

/-- The token of the latest claim, if there is work. -/
def Phase.token : Phase F O R Q → Option ℕ
  | .fresh | .gone => none
  | .opened | .cancelled => some 0
  | .claimed _ token => some token
  | .publishing _ token _ _ => some token
  | .completed token _ _ => some token

/-- The token that an action of a claimant carries. -/
def Action.token : Action F O R Q → Option ℕ
  | .renew token => some token
  | .start _ token _ => some token
  | .record _ token _ _ => some token
  | .release _ token _ => some token
  | .complete _ token _ _ => some token
  | _ => none

/-- Only the latest claimant acts. -/
theorem Step.token_eq (h : Step result p a q) {t : ℕ} (ht : a.token = some t) :
    p.token = some t := by
  cases h <;> first | exact ht | cases ht

theorem Step.token_le (h : Step result p a q) {t u : ℕ} (ht : p.token = some t)
    (hu : q.token = some u) : t ≤ u := by
  cases h <;> simp only [Phase.token, Option.some.injEq, reduceCtorEq] at ht hu
  case note =>
    rw [ht] at hu
    exact Nat.le_of_eq (Option.some.inj hu)
  all_goals omega

theorem Step.token_claim {request : F} {token : ℕ} (h : Step result p (.claim request token) q) :
    ∃ t, p.token = some t ∧ token = t + 1 ∧ q.token = some (t + 1) := by
  cases h with
  | claim => exact ⟨0, rfl, rfl, rfl⟩
  | reclaim _ t => exact ⟨t, rfl, rfl, rfl⟩

/-- The work was created, and its token is at least `t` if there still is
one. -/
def Phase.TokenFrom (t : ℕ) (p : Phase F O R Q) : Prop :=
  p ≠ .fresh ∧ ∀ u, p.token = some u → t ≤ u

theorem Phase.TokenFrom.step {t : ℕ} (hp : p.TokenFrom t) (h : Step result p a q) :
    q.TokenFrom t := by
  obtain ⟨hfresh, hle⟩ := hp
  refine ⟨?_, fun u hu => ?_⟩
  · cases h <;> first | assumption | simp
  · have hsome : p.token.isSome := by
      cases h <;> first | rfl | exact Option.isSome_iff_exists.mpr ⟨u, hu⟩ | exact absurd rfl hfresh
    obtain ⟨v, hv⟩ := Option.isSome_iff_exists.mp hsome
    exact Nat.le_trans (hle v hv) (h.token_le hv hu)

/-! ### The request -/

/-- The work is claimed or published under `request`, or it is over. -/
def Phase.RequestKept (request : F) : Phase F O R Q → Prop
  | .claimed r _ => r = request
  | .publishing r _ _ _ => r = request
  | .completed _ _ _ => True
  | .gone => True
  | _ => False

/-- A claimed request stays until the work is completed. -/
theorem Phase.RequestKept.step {request : F} (hp : p.RequestKept request) (h : Step result p a q) :
    q.RequestKept request := by
  cases h with
  | note => exact hp
  | reclaim => exact hp
  | renew => exact hp
  | start => exact hp
  | record => exact hp
  | release => exact hp
  | complete => exact trivial
  | clear => exact trivial
  | retireCompleted => exact trivial
  | create => exact hp.elim
  | edit => exact hp.elim
  | claim => exact hp.elim
  | cancel => exact hp.elim
  | retireCancelled => exact hp.elim

/-- The work is in a worker's hands. -/
def Phase.Claimed : Phase F O R Q → Prop
  | .claimed _ _ => True
  | .publishing _ _ _ _ => True
  | _ => False

/-- Work that is in a worker's hands after its first claim was so before. -/
theorem Phase.RequestKept.claimed {request : F} (hp : p.RequestKept request) (h : Step result p a q)
    (hq : q.Claimed) : p.Claimed := by
  cases h with
  | note => exact hq
  | reclaim => exact trivial
  | renew => exact trivial
  | start => exact trivial
  | record => exact trivial
  | release => exact trivial
  | complete => exact trivial
  | clear => exact hq.elim
  | retireCompleted => exact hq.elim
  | create => exact hp.elim
  | edit => exact hp.elim
  | claim => exact hp.elim
  | cancel => exact hp.elim
  | retireCancelled => exact hp.elim

/-- A claim puts the work into a worker's hands, under the claim's request. -/
theorem Step.requestKept_claim {request : F} {token : ℕ}
    (h : Step result p (.claim request token) q) : q.RequestKept request := by
  cases h <;> rfl

theorem Step.claimed_claim {request : F} {token : ℕ} (h : Step result p (.claim request token) q) :
    q.Claimed := by
  cases h <;> exact trivial

end Maskura.Lib.FencedCommit
