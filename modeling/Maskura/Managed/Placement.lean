import Maskura.Lib.Sorted
import Mathlib.Data.Prod.Lex
import Mathlib.Data.String.Basic

/-!
Rendezvous placement. Every backend has a score for the object, and the two that
come first are its primary and its replica. The order of the backends in the
configuration does not count, and a backend that comes or goes only moves what
it takes or held.

The scores are arbitrary: SHA-256 of the names in the code, and for the weighted
placement a logarithm of that divided by the weight.
-/

namespace Maskura.Managed

structure Placement where
  version : UInt32
  primaryBackendId : String
  replicaBackendId : Option String
  deriving DecidableEq

section Selection

variable {κ : Type} [LinearOrder κ]

/-- The first two of the ranked backends. -/
def Placement.ofRanked (version : UInt32) : List (κ ×ₗ String) → Option Placement
  | [] => none
  | primary :: rest => some
      { version := version
        primaryBackendId := (ofLex primary).2
        replicaBackendId := rest.head?.map fun replica => (ofLex replica).2 }

/-- Backends in the order of their ranks, and of their ids where these are equal;
`dedup_by` drops what repeats the id before it. -/
def selectPlacement (version : UInt32) (scored : List (κ ×ₗ String)) : Option Placement :=
  Placement.ofRanked version ((scored.insertionSort (· ≤ ·)).destutter
    fun left right => (ofLex left).2 ≠ (ofLex right).2)

end Selection

section Rendezvous

variable {σ : Type} [LinearOrder σ] (rendezvousScore : UInt32 → String → String → String → σ)

/-- The highest score comes first. -/
def rendezvousPlacement (placementVersion : UInt32) (tenantId objectKey : String)
    (backendIds : List String) : Option Placement :=
  selectPlacement placementVersion (backendIds.map fun backendId =>
    toLex (OrderDual.toDual (rendezvousScore placementVersion tenantId objectKey backendId),
      backendId))

variable {τ : Type} [LinearOrder τ] (penalty : σ → UInt64 → τ)

/-- The lowest penalty comes first; backends without weight are left out. -/
def weightedRendezvousPlacement (placementVersion : UInt32) (tenantId objectKey : String)
    (backendWeights : List (String × UInt64)) : Option Placement :=
  selectPlacement placementVersion
    ((backendWeights.filter (0 < ·.2)).map fun (backendId, weight) =>
      toLex (penalty (rendezvousScore placementVersion tenantId objectKey backendId) weight,
        backendId))

end Rendezvous

/-! ### Ranking -/

section Ranking

variable {κ : Type} [LinearOrder κ] {version : UInt32}

/-- No two of the scored backends have one id. -/
def DistinctIds (scored : List (κ ×ₗ String)) : Prop :=
  (scored.map fun entry => (ofLex entry).2).Nodup

theorem selectPlacement_eq {scored : List (κ ×ₗ String)} (h : DistinctIds scored) :
    selectPlacement version scored = Placement.ofRanked version (scored.insertionSort (· ≤ ·)) := by
  have hperm := List.perm_insertionSort (· ≤ ·) scored
  have hids : (scored.insertionSort (· ≤ ·)).Pairwise fun left right =>
      (ofLex left).2 ≠ (ofLex right).2 :=
    List.pairwise_map.1 ((hperm.map _).nodup_iff.2 h)
  rw [selectPlacement, (List.destutter_eq_self_iff _ _).2 hids.isChain]

theorem selectPlacement_perm {scored scored' : List (κ ×ₗ String)} (h : scored.Perm scored')
    (hids : DistinctIds scored) : selectPlacement version scored = selectPlacement version scored' := by
  have hids' : DistinctIds scored' := (h.map _).nodup_iff.1 hids
  rw [selectPlacement_eq hids, selectPlacement_eq hids', Lib.insertionSort_eq_iff_perm.2 h]

/-- Where one more backend goes: before the others, between the first two, or further
down. -/
inductive Enters (version : UInt32) (backendId : String) :
    Option Placement → Option Placement → Prop
  | primary (old : Option Placement) : Enters version backendId old
      (some ⟨version, backendId, old.map Placement.primaryBackendId⟩)
  | replica (old : Placement) : Enters version backendId (some old)
      (some { old with replicaBackendId := some backendId })
  | unchanged (old : Placement) : old.replicaBackendId.isSome →
      Enters version backendId (some old) (some old)

theorem enters_orderedInsert (entry : κ ×ₗ String) (ranked : List (κ ×ₗ String)) :
    Enters version (ofLex entry).2 (Placement.ofRanked version ranked)
      (Placement.ofRanked version (ranked.orderedInsert (· ≤ ·) entry)) := by
  match ranked with
  | [] => exact .primary none
  | [first] =>
      rw [List.orderedInsert_cons]
      split
      · exact .primary _
      · exact .replica _
  | first :: second :: rest =>
      rw [List.orderedInsert_cons]
      split
      · exact .primary _
      · rw [List.orderedInsert_cons]
        split
        · exact .replica ⟨version, (ofLex first).2, some (ofLex second).2⟩
        · exact .unchanged _ rfl

theorem enters_selectPlacement {entry : κ ×ₗ String} {scored : List (κ ×ₗ String)}
    (h : DistinctIds (entry :: scored)) :
    Enters version (ofLex entry).2 (selectPlacement version scored)
      (selectPlacement version (entry :: scored)) := by
  have htail : DistinctIds scored := (List.nodup_cons.1 h).2
  rw [selectPlacement_eq h, selectPlacement_eq htail]
  exact enters_orderedInsert entry _

theorem primary_mem {scored : List (κ ×ₗ String)} (h : DistinctIds scored) {placement : Placement}
    (hplacement : selectPlacement version scored = some placement) :
    placement.primaryBackendId ∈ scored.map fun entry => (ofLex entry).2 := by
  rw [selectPlacement_eq h] at hplacement
  have hperm := List.perm_insertionSort (· ≤ ·) scored
  cases hsort : scored.insertionSort (· ≤ ·) with
  | nil => simp [hsort, Placement.ofRanked] at hplacement
  | cons first rest =>
      rw [hsort] at hplacement hperm
      obtain rfl := Option.some.inj hplacement
      exact List.mem_map_of_mem (hperm.subset List.mem_cons_self)

theorem replica_ne_primary {scored : List (κ ×ₗ String)} (h : DistinctIds scored)
    (htwo : 2 ≤ scored.length) : ∃ placement replica,
      selectPlacement version scored = some placement ∧
        placement.replicaBackendId = some replica ∧ replica ≠ placement.primaryBackendId := by
  have hperm := List.perm_insertionSort (· ≤ ·) scored
  have hids : DistinctIds (scored.insertionSort (· ≤ ·)) := (hperm.map _).nodup_iff.2 h
  have hlength := List.length_insertionSort (· ≤ ·) scored
  rw [selectPlacement_eq h]
  match hsort : scored.insertionSort (· ≤ ·) with
  | [] => simp [hsort] at hlength; omega
  | [_] => simp [hsort] at hlength; omega
  | first :: second :: rest =>
      refine ⟨_, (ofLex second).2, rfl, rfl, fun heq => ?_⟩
      rw [hsort] at hids
      exact (List.nodup_cons.1 hids).1 (List.mem_cons.2 (.inl heq.symm))

end Ranking

/-! ### What a change of the backends moves -/

/-- A placement that moves no more than a change of the backends forces. -/
structure MovesOnlyWhatItMust {β : Type} (id : β → String) (eligible : β → Bool)
    (place : List β → Option Placement) : Prop where
  order : ∀ backends backends' : List β, (backends.map id).Nodup → backends.Perm backends' →
    place backends = place backends'
  replica_ne : ∀ backends : List β, (backends.map id).Nodup →
    2 ≤ (backends.filter eligible).length → ∃ placement replica,
      place backends = some placement ∧ placement.replicaBackendId = some replica ∧
        replica ≠ placement.primaryBackendId
  remove_other : ∀ (backends rest : List β) (backend : β) (placement : Placement),
    (backends.map id).Nodup → backends.Perm (backend :: rest) →
    place backends = some placement → placement.primaryBackendId ≠ id backend →
    placement.replicaBackendId ≠ some (id backend) → place rest = some placement
  remove_primary : ∀ (backends rest : List β) (backend : β) (placement : Placement),
    (backends.map id).Nodup → backends.Perm (backend :: rest) →
    place backends = some placement → placement.primaryBackendId = id backend →
    (place rest).map Placement.primaryBackendId = placement.replicaBackendId
  add : ∀ (backends : List β) (backend : β), ((backend :: backends).map id).Nodup →
    place (backend :: backends) = place backends ∨
    (∃ placement, place backends = some placement ∧ place (backend :: backends) =
      some { placement with replicaBackendId := some (id backend) }) ∨
    (∃ placement, place (backend :: backends) = some placement ∧
      placement.primaryBackendId = id backend ∧
      placement.replicaBackendId = (place backends).map Placement.primaryBackendId)

section Moves

variable {κ β : Type} {version : UInt32} {id : β → String} {eligible : β → Bool} {rank : β → κ}

/-- The eligible backends with their ranks. -/
def scoredBy (id : β → String) (eligible : β → Bool) (rank : β → κ) (backends : List β) :
    List (κ ×ₗ String) :=
  (backends.filter eligible).map fun backend => toLex (rank backend, id backend)

theorem ids_scoredBy (backends : List β) :
    ((scoredBy id eligible rank backends).map fun entry => (ofLex entry).2) =
      (backends.filter eligible).map id := by
  simp [scoredBy, Function.comp_def]

theorem distinctIds_scoredBy {backends : List β} (h : (backends.map id).Nodup) :
    DistinctIds (scoredBy id eligible rank backends) := by
  rw [DistinctIds, ids_scoredBy]
  exact h.sublist (List.filter_sublist.map id)

variable [LinearOrder κ]

/-- A backend that is added is left out, or finds its place among the others. -/
theorem enters_scoredBy {backends : List β} {backend : β}
    (h : ((backend :: backends).map id).Nodup) :
    selectPlacement version (scoredBy id eligible rank (backend :: backends)) =
        selectPlacement version (scoredBy id eligible rank backends) ∨
      Enters version (id backend) (selectPlacement version (scoredBy id eligible rank backends))
        (selectPlacement version (scoredBy id eligible rank (backend :: backends))) := by
  have hids : DistinctIds (scoredBy id eligible rank (backend :: backends)) :=
    distinctIds_scoredBy h
  by_cases hbackend : eligible backend
  · right
    simp only [scoredBy, List.filter_cons_of_pos hbackend, List.map_cons] at hids ⊢
    exact enters_selectPlacement hids
  · left
    simp only [scoredBy, List.filter_cons_of_neg hbackend]

theorem selectPlacement_scoredBy_perm {backends backends' : List β}
    (hids : (backends.map id).Nodup) (h : backends.Perm backends') :
    selectPlacement version (scoredBy id eligible rank backends) =
      selectPlacement version (scoredBy id eligible rank backends') :=
  selectPlacement_perm ((h.filter _).map _) (distinctIds_scoredBy hids)

theorem movesOnlyWhatItMust_scoredBy : MovesOnlyWhatItMust id eligible fun backends =>
    selectPlacement version (scoredBy id eligible rank backends) where
  order _ _ hids h := selectPlacement_scoredBy_perm hids h
  replica_ne backends hids htwo := by
    refine replica_ne_primary (distinctIds_scoredBy hids) ?_
    simpa [scoredBy] using htwo
  remove_other backends rest backend placement hids h hplacement hprimary hreplica := by
    have henters := @enters_scoredBy _ _ version id eligible rank _ rest backend
      ((h.map id).nodup_iff.1 hids)
    rw [← selectPlacement_scoredBy_perm hids h, hplacement] at henters
    -- A backend that entered elsewhere would be the primary or the replica.
    generalize selectPlacement version (scoredBy id eligible rank rest) = old at henters ⊢
    rcases henters with heq | henters
    · exact heq.symm
    · cases henters with
      | primary => exact absurd rfl hprimary
      | replica => exact absurd rfl hreplica
      | unchanged => rfl
  remove_primary backends rest backend placement hids h hplacement hprimary := by
    have hids' := (h.map id).nodup_iff.1 hids
    have henters := @enters_scoredBy _ _ version id eligible rank _ rest backend hids'
    rw [← selectPlacement_scoredBy_perm hids h, hplacement] at henters
    -- The other backends cannot have a primary of this id.
    have hother : ∀ old, selectPlacement version (scoredBy id eligible rank rest) = some old →
        old.primaryBackendId ≠ id backend := fun old hold heq => by
      have hmem := primary_mem (distinctIds_scoredBy (List.nodup_cons.1 hids').2) hold
      rw [ids_scoredBy, heq] at hmem
      exact (List.nodup_cons.1 hids').1 ((List.filter_sublist.map id).subset hmem)
    generalize selectPlacement version (scoredBy id eligible rank rest) = old at henters hother ⊢
    rcases henters with heq | henters
    · exact absurd hprimary (hother _ heq.symm)
    · cases henters with
      | primary => rfl
      | replica old => exact absurd hprimary (hother old rfl)
      | unchanged => exact absurd hprimary (hother _ rfl)
  add backends backend hids := by
    have henters := @enters_scoredBy _ _ version id eligible rank _ backends backend hids
    generalize selectPlacement version (scoredBy id eligible rank backends) = old at henters ⊢
    generalize selectPlacement version (scoredBy id eligible rank (backend :: backends)) = new
      at henters ⊢
    rcases henters with heq | henters
    · exact .inl heq
    · cases henters with
      | primary => exact .inr (.inr ⟨_, rfl, rfl, rfl⟩)
      | replica old => exact .inr (.inl ⟨old, rfl, rfl⟩)
      | unchanged => exact .inl rfl

end Moves

section Main

variable {σ : Type} [LinearOrder σ] (rendezvousScore : UInt32 → String → String → String → σ)
  (version : UInt32) (tenantId objectKey : String)

theorem rendezvousPlacement_eq (backendIds : List String) :
    rendezvousPlacement rendezvousScore version tenantId objectKey backendIds =
      selectPlacement version (scoredBy id (fun _ => true)
        (fun backendId => OrderDual.toDual (rendezvousScore version tenantId objectKey backendId))
        backendIds) := by
  simp [rendezvousPlacement, scoredBy]

variable {τ : Type} [LinearOrder τ] (penalty : σ → UInt64 → τ)

/-- For every score and every penalty of score and weight. -/
theorem placement_moves_only_what_it_must :
    MovesOnlyWhatItMust id (fun _ => true)
        (rendezvousPlacement rendezvousScore version tenantId objectKey) ∧
      MovesOnlyWhatItMust Prod.fst (fun backend => decide (0 < backend.2))
        (weightedRendezvousPlacement rendezvousScore penalty version tenantId objectKey) := by
  constructor
  · rw [funext (rendezvousPlacement_eq rendezvousScore version tenantId objectKey)]
    exact movesOnlyWhatItMust_scoredBy
  · exact movesOnlyWhatItMust_scoredBy

end Main

end Maskura.Managed
