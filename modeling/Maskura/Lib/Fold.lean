import Maskura.Lib.Result
import Mathlib.Data.List.Forall2
import Mathlib.Data.List.Induction

/-!
Loops that may fail. `for x in xs { state = step(state, x)?; }` is
`xs.foldlM step state` over `Except`. A loop that succeeds has succeeded on
every prefix, and what each successful step keeps holds after all of them.
-/

namespace Maskura.Lib

variable {ε σ α : Type} {step : σ → α → Except ε σ}

theorem foldlM_append_eq_ok {s t : σ} {xs ys : List α} :
    (xs ++ ys).foldlM step s = .ok t ↔
      ∃ m, xs.foldlM step s = .ok m ∧ ys.foldlM step m = .ok t := by
  rw [List.foldlM_append, bind_eq_ok]

theorem foldlM_cons_eq_ok {s t : σ} {x : α} {xs : List α} :
    (x :: xs).foldlM step s = .ok t ↔
      ∃ m, step s x = .ok m ∧ xs.foldlM step m = .ok t := by
  rw [List.foldlM_cons, bind_eq_ok]

theorem foldlM_concat_eq_ok {s t : σ} {x : α} {xs : List α} :
    (xs ++ [x]).foldlM step s = .ok t ↔
      ∃ m, xs.foldlM step s = .ok m ∧ step m x = .ok t := by
  rw [foldlM_append_eq_ok]
  refine exists_congr fun m => and_congr_right fun _ => ?_
  rw [foldlM_cons_eq_ok]
  constructor
  · rintro ⟨n, hstep, hnil⟩
    rw [hstep]
    exact hnil
  · exact fun hstep => ⟨t, hstep, rfl⟩

/-- A loop keeps what each of its steps keeps. -/
theorem foldlM_preserves {I : σ → Prop} {s t : σ} {xs : List α}
    (hloop : xs.foldlM step s = .ok t)
    (hstep : ∀ ⦃a b : σ⦄ ⦃x : α⦄, x ∈ xs → I a → step a x = .ok b → I b) (hs : I s) : I t := by
  induction xs generalizing s with
  | nil =>
      obtain rfl : s = t := Except.ok.inj hloop
      exact hs
  | cons x xs ih =>
      obtain ⟨m, hm, hrest⟩ := foldlM_cons_eq_ok.mp hloop
      exact ih hrest (fun a b y hy => hstep (List.mem_cons_of_mem x hy))
        (hstep List.mem_cons_self hs hm)

/-- What each step keeps, with the elements passed so far in view. -/
theorem foldlM_history {I : List α → σ → Prop} {s t : σ} {xs : List α}
    (hloop : xs.foldlM step s = .ok t)
    (hstep : ∀ ⦃passed : List α⦄ ⦃a b : σ⦄ ⦃x : α⦄, I passed a → step a x = .ok b → I (passed ++ [x]) b)
    (hs : I [] s) : I xs t := by
  induction xs using List.reverseRecOn generalizing t with
  | nil =>
      obtain rfl : s = t := Except.ok.inj hloop
      exact hs
  | append_singleton xs x ih =>
      obtain ⟨m, hm, hx⟩ := foldlM_concat_eq_ok.mp hloop
      exact hstep (ih hm) hx

/-- The state a loop that succeeds had behind each prefix. -/
theorem foldlM_prefix {s t : σ} {xs ys : List α} (hloop : xs.foldlM step s = .ok t)
    (hbegins : ys <+: xs) : ∃ m, ys.foldlM step s = .ok m := by
  obtain ⟨zs, rfl⟩ := hbegins
  obtain ⟨m, hm, -⟩ := foldlM_append_eq_ok.mp hloop
  exact ⟨m, hm⟩

/-- A loop that only checks succeeds if every check does. -/
theorem forM_eq_ok {check : α → Except ε Unit} {xs : List α} :
    xs.forM check = .ok () ↔ ∀ x ∈ xs, check x = .ok () := by
  induction xs with
  | nil => simp [pure_ok]
  | cons x xs ih =>
      rw [List.forall_mem_cons, ← ih]
      refine Iff.trans (bind_eq_ok (x := check x)) ?_
      exact ⟨fun ⟨_, hx, hxs⟩ => ⟨hx, hxs⟩, fun ⟨hx, hxs⟩ => ⟨(), hx, hxs⟩⟩

/-- The partners of the parts of a list. -/
theorem forall₂_split {β : Type} {R : α → β → Prop} {before after : List α} {x : α} {ys : List β}
    (h : List.Forall₂ R (before ++ x :: after) ys) :
    ∃ us y vs, ys = us ++ y :: vs ∧ List.Forall₂ R before us ∧ R x y ∧ List.Forall₂ R after vs := by
  induction before generalizing ys with
  | nil =>
      obtain _ | ⟨hx, hafter⟩ := h
      exact ⟨[], _, _, rfl, .nil, hx, hafter⟩
  | cons a before ih =>
      obtain _ | ⟨ha, hrest⟩ := h
      obtain ⟨us, y, vs, rfl, hbefore, hx, hafter⟩ := ih hrest
      exact ⟨_ :: us, y, vs, rfl, .cons ha hbefore, hx, hafter⟩

/-- A loop that maps succeeds if every step does, and gives their results. -/
theorem mapM_eq_ok {β : Type} {f : α → Except ε β} {xs : List α} {ys : List β} :
    xs.mapM f = .ok ys ↔ List.Forall₂ (fun x y => f x = .ok y) xs ys := by
  induction xs generalizing ys with
  | nil => simp [pure_ok, eq_comm]
  | cons x xs ih =>
      rw [List.mapM_cons, bind_eq_ok]
      constructor
      · rintro ⟨y, hy, hrest⟩
        obtain ⟨zs, hzs, hpure⟩ := bind_eq_ok.mp hrest
        obtain rfl := Except.ok.inj hpure
        exact .cons hy (ih.mp hzs)
      · rintro (_ | ⟨hy, hrest⟩)
        exact ⟨_, hy, bind_eq_ok.mpr ⟨_, ih.mpr hrest, rfl⟩⟩

end Maskura.Lib
