import Mathlib.Data.List.Destutter
import Mathlib.Data.List.Sort

/-!
Sorted sequences. In the lexicographic order the sequences that begin with a
given one are an interval, so anything that groups sequences by how they begin
groups neighbours; and a strictly increasing list can be read on from any of
its elements.
-/

namespace Maskura.Lib

section Sorting

variable {α : Type} [LinearOrder α]

/-- Sorting forgets the order and nothing else. -/
theorem insertionSort_eq_iff_perm {a b : List α} :
    a.insertionSort (· ≤ ·) = b.insertionSort (· ≤ ·) ↔ a.Perm b := by
  have ha := List.perm_insertionSort (· ≤ ·) a
  have hb := List.perm_insertionSort (· ≤ ·) b
  constructor
  · intro h
    exact ha.symm.trans (h ▸ hb)
  · intro h
    exact (ha.trans (h.trans hb.symm)).eq_of_pairwise' (List.pairwise_insertionSort _ _)
      (List.pairwise_insertionSort _ _)

/-- Where no two elements share a key, sorting by the key forgets the order too. -/
theorem insertionSort_key_eq_of_perm {β : Type} {key : β → α} {a b : List β} (h : a.Perm b)
    (hnodup : (a.map key).Nodup) :
    a.insertionSort (fun x y => key x ≤ key y) = b.insertionSort (fun x y => key x ≤ key y) := by
  have : Std.Total fun x y : β => key x ≤ key y := ⟨fun x y => le_total (key x) (key y)⟩
  have : IsTrans β fun x y => key x ≤ key y := ⟨fun _ _ _ => le_trans⟩
  have ha := List.perm_insertionSort (fun x y => key x ≤ key y) a
  have hb := List.perm_insertionSort (fun x y => key x ≤ key y) b
  refine List.Perm.eq_of_pairwise (fun x y hx hy hxy hyx => ?_) (List.pairwise_insertionSort _ _)
    (List.pairwise_insertionSort _ _) (ha.trans (h.trans hb.symm))
  exact List.inj_on_of_nodup_map hnodup (ha.mem_iff.1 hx) (h.mem_iff.2 (hb.mem_iff.1 hy))
    (le_antisymm hxy hyx)

end Sorting

section Increasing

variable {ω κ : Type} [LinearOrder κ] {name : ω → κ}

/-- What an increasing list has after one of its elements. -/
theorem filter_after {entries before after : List ω} {x : ω} {later : ω → Bool}
    (hlater : ∀ y, later y = true ↔ name x < name y)
    (h : entries.Pairwise fun a b => name a < name b) (hsplit : entries = before ++ x :: after) :
    entries.filter later = after := by
  subst hsplit
  obtain ⟨-, hafter, hbefore⟩ := List.pairwise_append.1 h
  have hdrop : before.filter later = [] := by
    rw [List.filter_eq_nil_iff]
    intro y hy
    rw [hlater, not_lt]
    exact (hbefore y hy x List.mem_cons_self).le
  have hkeep : after.filter later = after := by
    rw [List.filter_eq_self]
    intro y hy
    rw [hlater]
    exact (List.pairwise_cons.1 hafter).1 y hy
  have hself : later x = false := by
    rw [← Bool.not_eq_true, hlater]
    exact lt_irrefl _
  simp [hdrop, hkeep, hself]

end Increasing

end Maskura.Lib
