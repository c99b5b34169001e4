import Mathlib

/-!
Finite maps as balanced trees, with keys that are equal when they compare as
equal.
-/

namespace Maskura.Lib.FinMap

open Std

universe u v

variable {κ : Type u} [Ord κ] [TransOrd κ] [LawfulEqOrd κ] {α β : Type v}

theorem mem_toList {t : TreeMap κ α} {p : κ × α} : p ∈ t.toList ↔ t[p.1]? = some p.2 :=
  TreeMap.mem_toList_iff_getElem?_eq_some

theorem nodup_toList_keys (t : TreeMap κ α) : (t.toList.map Prod.fst).Nodup := by
  rw [List.Nodup, List.pairwise_map]
  refine (TreeMap.distinct_keys_toList (t := t)).imp fun {a b} h => ?_
  simpa only [LawfulEqCmp.compare_eq_iff_eq] using h

/-- Maps that agree on what `f` and `g` see of their values have the same
values in that sense. -/
theorem values_perm {γ : Type v} {t : TreeMap κ α} {u : TreeMap κ β} {f : α → γ} {g : β → γ}
    (h : ∀ k : κ, t[k]?.map f = u[k]?.map g) :
    (t.toList.map fun p => f p.2).Perm (u.toList.map fun p => g p.2) := by
  have hkeyed : (t.toList.map fun p => (p.1, f p.2)).Perm (u.toList.map fun p => (p.1, g p.2)) := by
    refine (List.perm_ext_iff_of_nodup ?_ ?_).mpr ?_
    · exact .of_map Prod.fst (by rw [List.map_map]; exact nodup_toList_keys t)
    · exact .of_map Prod.fst (by rw [List.map_map]; exact nodup_toList_keys u)
    · rintro ⟨k, c⟩
      have hk := h k
      simp only [List.mem_map, Prod.mk.injEq, Prod.exists, mem_toList]
      constructor
      · rintro ⟨_, a, ha, rfl, rfl⟩
        rw [ha, Option.map_some, eq_comm, Option.map_eq_some_iff] at hk
        obtain ⟨b, hb, hgf⟩ := hk
        exact ⟨_, b, hb, rfl, hgf⟩
      · rintro ⟨_, b, hb, rfl, rfl⟩
        rw [hb, Option.map_some, Option.map_eq_some_iff] at hk
        obtain ⟨a, ha, hfg⟩ := hk
        exact ⟨_, a, ha, rfl, hfg⟩
  have := hkeyed.map Prod.snd
  rw [List.map_map, List.map_map] at this
  exact this

/-! ### Maps up to what they hold

Two such maps with the same entries are equal. -/

variable [DecidableEq κ]

theorem getElem?_insert_eq (t : TreeMap κ α) (k a : κ) (v : α) :
    (t.insert k v)[a]? = if k = a then some v else t[a]? := by
  rw [TreeMap.getElem?_insert]
  simp only [LawfulEqCmp.compare_eq_iff_eq]

theorem getElem?_insert_of_ne (t : TreeMap κ α) {k a : κ} (v : α) (h : k ≠ a) :
    (t.insert k v)[a]? = t[a]? := by
  rw [getElem?_insert_eq, if_neg h]

theorem getElem?_insertIfNew_eq (t : TreeMap κ α) (k a : κ) (v : α) :
    (t.insertIfNew k v)[a]? = if k = a ∧ t[a]? = none then some v else t[a]? := by
  rw [TreeMap.getElem?_insertIfNew]
  refine if_congr ?_ rfl rfl
  rw [LawfulEqCmp.compare_eq_iff_eq, TreeMap.mem_iff_isSome_getElem?,
    Option.not_isSome_iff_eq_none]
  exact and_congr_right fun h => h ▸ Iff.rfl

theorem getElem?_erase_eq (t : TreeMap κ α) (k a : κ) :
    (t.erase k)[a]? = if k = a then none else t[a]? := by
  rw [TreeMap.getElem?_erase]
  simp only [LawfulEqCmp.compare_eq_iff_eq]

/-- The entries after an insertion are the new one and those of other keys. -/
theorem toList_insert_perm (t : TreeMap κ α) (k : κ) (v : α) :
    (t.insert k v).toList.Perm ((t.toList.filter fun p => p.1 ≠ k) ++ [(k, v)]) := by
  have h := TreeMap.toList_insert_perm (t := t) (k := k) (v := v)
  have hfilter : (t.toList.filter fun p => decide ¬(k == p.1) = true) =
      t.toList.filter fun p => p.1 ≠ k := by
    refine List.filter_congr fun p _ => ?_
    by_cases hp : p.1 = k
    · simp [hp]
    · simp [hp, Ne.symm hp]
  rw [hfilter] at h
  exact h.trans (List.perm_append_singleton _ _).symm

theorem getElem?_insert_ext (t : ExtTreeMap κ α) (k a : κ) (v : α) :
    (t.insert k v)[a]? = if k = a then some v else t[a]? := by
  rw [ExtTreeMap.getElem?_insert]
  simp only [LawfulEqCmp.compare_eq_iff_eq]

end Maskura.Lib.FinMap
