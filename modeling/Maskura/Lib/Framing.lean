import Maskura.Lib.BigEndian
import Maskura.Lib.Text
import Mathlib.Algebra.Order.BigOperators.Group.List

/-!
Fields written one after another, so that they can be told apart: each with a
separator behind it, or each behind its length.
-/

namespace Maskura.Lib.Framing

section Terminated

variable {α : Type*} [DecidableEq α] {sep : α}

/-- The first separator ends the first field. -/
theorem append_cons_inj {a b s t : List α} (ha : sep ∉ a) (hb : sep ∉ b)
    (h : a ++ sep :: s = b ++ sep :: t) : a = b ∧ s = t := by
  have hcut := Text.splitOnce_eq_some.2 ⟨rfl, ha⟩ |>.symm.trans
    (h ▸ Text.splitOnce_eq_some.2 ⟨rfl, hb⟩)
  exact Prod.mk.inj (Option.some.inj hcut)

/-- Every field with the separator behind it. -/
def terminated (sep : α) (fields : List (List α)) : List α :=
  fields.flatMap fun field => field ++ [sep]

theorem count_terminated (fields : List (List α)) :
    (terminated sep fields).count sep = (fields.map (List.count sep)).sum + fields.length := by
  induction fields with
  | nil => rfl
  | cons field fields ih =>
      rw [terminated] at ih ⊢
      simp [ih]
      omega

theorem not_mem_iff_count_terminated {fields : List (List α)} :
    (∀ field ∈ fields, sep ∉ field) ↔ (terminated sep fields).count sep = fields.length := by
  rw [count_terminated, Nat.add_eq_right, List.sum_eq_zero_iff]
  simp [List.count_eq_zero]

/-- As many fields, none of the first with a separator: the others then have none
either. -/
theorem terminated_inj {fields fields' : List (List α)} (hfree : ∀ field ∈ fields, sep ∉ field)
    (hlength : fields.length = fields'.length)
    (h : terminated sep fields = terminated sep fields') : fields = fields' := by
  have hfree' : ∀ field ∈ fields', sep ∉ field := by
    rw [not_mem_iff_count_terminated, ← h, not_mem_iff_count_terminated.1 hfree, hlength]
  induction fields generalizing fields' with
  | nil => exact (List.length_eq_zero_iff.1 hlength.symm).symm
  | cons field fields ih =>
      match fields' with
      | field' :: fields' =>
          rw [List.forall_mem_cons] at hfree hfree'
          simp only [terminated, List.flatMap_cons, List.append_assoc, List.singleton_append] at h
          obtain ⟨rfl, hrest⟩ := append_cons_inj hfree.1 hfree'.1 h
          rw [ih hfree.2 (Nat.succ.inj hlength) hrest hfree'.2]

end Terminated

section Framed

/-- The bytes behind their length. -/
def framed (width : ℕ) (bytes : List UInt8) : List UInt8 :=
  beBytes width bytes.length ++ bytes

theorem framed_append_inj {width : ℕ} {a b s t : List UInt8} (ha : a.length < 256 ^ width)
    (hb : b.length < 256 ^ width) (h : framed width a ++ s = framed width b ++ t) :
    a = b ∧ s = t := by
  rw [framed, framed, List.append_assoc, List.append_assoc] at h
  obtain ⟨hwidth, hrest⟩ := List.append_inj h (by simp)
  have hlength : a.length = b.length := by
    rw [← beNat_beBytes_of_lt ha, hwidth, beNat_beBytes_of_lt hb]
  exact List.append_inj hrest hlength

end Framed

end Maskura.Lib.Framing
