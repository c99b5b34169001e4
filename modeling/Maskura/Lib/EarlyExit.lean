import Mathlib.Data.List.Nodup
import Maskura.Lib.Stateful

/-!
Loops that stop at the first step that fails. The steps that are reached are
those up to the first failure; every step that matters is reached exactly when
no failing step stands before one that matters.
-/

namespace Maskura.Lib

variable {α ε σ : Type}

/-- The steps up to the first that fails. -/
def reached (ok : α → Bool) : List α → List α
  | [] => []
  | x :: xs => if ok x then x :: reached ok xs else [x]

variable {ok : α → Bool}

theorem reached_cons (x : α) (xs : List α) :
    reached ok (x :: xs) = if ok x then x :: reached ok xs else [x] := rfl

theorem reached_eq_self {xs : List α} (h : xs.all ok = true) : reached ok xs = xs := by
  induction xs with
  | nil => rfl
  | cons x xs ih =>
      obtain ⟨hx, hxs⟩ := (Bool.and_eq_true _ _).mp h
      rw [reached_cons, if_pos hx, ih hxs]

theorem reached_append (xs ys : List α) :
    reached ok (xs ++ ys) = if xs.all ok then xs ++ reached ok ys else reached ok xs := by
  induction xs with
  | nil => rfl
  | cons x xs ih =>
      rw [List.cons_append, reached_cons, reached_cons, ih, List.all_cons]
      cases ok x with
      | true => cases xs.all ok <;> simp
      | false => simp

theorem reached_map {β : Type} (c : β → α) (xs : List β) :
    reached ok (xs.map c) = (reached (fun x => ok (c x)) xs).map c := by
  induction xs with
  | nil => rfl
  | cons x xs ih =>
      rw [List.map_cons, reached_cons, reached_cons, ih]
      split
      · rfl
      · rfl

theorem mem_of_mem_reached {x : α} {xs : List α} (h : x ∈ reached ok xs) : x ∈ xs := by
  induction xs with
  | nil => exact h
  | cons y xs ih =>
      rw [reached_cons] at h
      split at h
      · obtain rfl | h := List.mem_cons.mp h
        · exact List.mem_cons_self
        · exact List.mem_cons_of_mem _ (ih h)
      · exact List.mem_cons.mpr (.inl (List.mem_singleton.mp h))

/-- Every step that matters is reached exactly when none stands behind a step
that fails. -/
theorem forall_reached_iff {matters : α → Bool} {xs : List α} (hdistinct : (xs.filter matters).Nodup) :
    (∀ x ∈ xs, matters x = true → x ∈ reached ok xs) ↔
      xs.Pairwise fun a b => ok a = false → matters b = false := by
  induction xs with
  | nil => simp
  | cons x xs ih =>
      -- a step behind `x` that matters is another one
      have hrest : (xs.filter matters).Nodup :=
        hdistinct.sublist ((List.sublist_cons_self x xs).filter matters)
      have hne : ∀ y ∈ xs, matters y = true → y ≠ x := by
        rintro y hy hmatters rfl
        rw [List.filter_cons, if_pos hmatters] at hdistinct
        exact (List.nodup_cons.mp hdistinct).1 (List.mem_filter.mpr ⟨hy, hmatters⟩)
      rw [List.pairwise_cons, ← ih hrest, reached_cons, List.forall_mem_cons]
      by_cases hx : ok x = true
      · rw [if_pos hx]
        constructor
        · rintro ⟨-, h⟩
          refine ⟨fun y _ hfalse => absurd (hx.symm.trans hfalse) (by decide), fun y hy hmatters => ?_⟩
          exact (List.mem_cons.mp (h y hy hmatters)).resolve_left (hne y hy hmatters)
        · rintro ⟨-, h⟩
          exact ⟨fun _ => List.mem_cons_self,
            fun y hy hmatters => List.mem_cons_of_mem _ (h y hy hmatters)⟩
      · rw [if_neg hx]
        constructor
        · rintro ⟨-, h⟩
          have hnone : ∀ y ∈ xs, matters y = false := fun y hy => Bool.eq_false_iff.mpr fun hmatters =>
            hne y hy hmatters (List.mem_singleton.mp (h y hy hmatters))
          exact ⟨fun y hy _ => hnone y hy,
            fun y hy hmatters => absurd ((hnone y hy).symm.trans hmatters) (by decide)⟩
        · rintro ⟨h, -⟩
          refine ⟨fun _ => List.mem_singleton_self x, fun y hy hmatters => ?_⟩
          exact absurd ((h y hy (Bool.eq_false_iff.mpr hx)).symm.trans hmatters) (by decide)

namespace Stateful

/-- A loop whose steps succeed or fail by `ok` and change the state by `effect`,
whether they fail or not. -/
theorem exec_forM {f : α → Stateful ε σ Unit} {effect : σ → α → σ} {xs : List α}
    (h : ∀ x ∈ xs, ∀ s, ((f x).exec s).2 = effect s x ∧ ((f x).exec s).1.isOk = ok x) (s : σ) :
    ((xs.forM f).exec s).2 = (reached ok xs).foldl effect s ∧
      ((xs.forM f).exec s).1.isOk = xs.all ok := by
  induction xs generalizing s with
  | nil => exact ⟨rfl, rfl⟩
  | cons x xs ih =>
      obtain ⟨hstate, hok⟩ := h x List.mem_cons_self s
      have hrest := ih fun y hy => h y (List.mem_cons_of_mem _ hy)
      have hbind : (x :: xs).forM f = f x >>= fun _ => xs.forM f := rfl
      rw [hbind, exec_bind, reached_cons, List.all_cons]
      cases hexec : (f x).exec s with
      | mk result t =>
          rw [hexec] at hstate hok
          subst hstate
          cases result with
          | ok u =>
              rw [← hok]
              exact hrest _
          | error e =>
              rw [← hok]
              exact ⟨rfl, rfl⟩

/-- The same for steps that have a name. -/
theorem exec_forM_map {β : Type} (ok : α → Bool) (effect : σ → α → σ) (c : β → α)
    {f : β → Stateful ε σ Unit} (xs : List β)
    (h : ∀ x ∈ xs, ∀ s, ((f x).exec s).2 = effect s (c x) ∧ ((f x).exec s).1.isOk = ok (c x))
    (s : σ) :
    ((xs.forM f).exec s).2 = (reached ok (xs.map c)).foldl effect s ∧
      ((xs.forM f).exec s).1.isOk = (xs.map c).all ok := by
  rw [reached_map, List.foldl_map, List.all_map]
  exact exec_forM h s

/-- What comes behind a call runs when the call succeeded. -/
theorem exec_seq {β : Type} (call : Stateful ε σ Unit) (rest : Stateful ε σ β) (s : σ) :
    ((call >>= fun _ => rest).exec s).2 =
      if (call.exec s).1.isOk then (rest.exec (call.exec s).2).2 else (call.exec s).2 := by
  rw [exec_bind]
  cases call.exec s with
  | mk result t =>
      cases result with
      | ok u => rfl
      | error e => rfl

end Stateful

end Maskura.Lib
