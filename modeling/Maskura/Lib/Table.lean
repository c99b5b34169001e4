import Mathlib.Algebra.Order.BigOperators.Group.List
import Mathlib.Algebra.Order.Ring.Nat
import Mathlib.Data.List.AList

/-!
Finite tables: association lists without repeated keys. The order of the
entries is the one in which a program that walks the table meets them; what a
table holds is what it answers to `lookup`.

`total` is the sum of a measure of the entries. An operation changes it by what
it does to the one entry it touches.
-/

namespace Maskura.Lib

variable {κ α : Type}

abbrev Table (κ α : Type) := AList fun _ : κ => α

namespace Table

def values (t : Table κ α) : List α := t.entries.map Sigma.snd

/-- The sum of a measure of the entries. -/
def total (measure : κ → α → ℕ) (t : Table κ α) : ℕ :=
  (t.entries.map fun entry => measure entry.1 entry.2).sum

variable [DecidableEq κ] {t : Table κ α} {k a : κ} {v old : α}

/-- The value of a key changed, if there is one. -/
def modify (k : κ) (f : α → α) (t : Table κ α) : Table κ α :=
  match t.lookup k with
  | some v => t.insert k (f v)
  | none => t

/-! ### Lookups -/

theorem lookup_eq_some : t.lookup k = some v ↔ (⟨k, v⟩ : Σ _ : κ, α) ∈ t.entries := by
  rw [← Option.mem_def]
  exact AList.mem_lookup_iff

theorem mem_values : v ∈ t.values ↔ ∃ k, t.lookup k = some v := by
  simp only [values, List.mem_map, lookup_eq_some]
  constructor
  · rintro ⟨⟨k, w⟩, hmem, rfl⟩
    exact ⟨k, hmem⟩
  · rintro ⟨k, hmem⟩
    exact ⟨⟨k, v⟩, hmem, rfl⟩

theorem lookup_insert_eq (t : Table κ α) (k a : κ) (v : α) :
    (AList.insert k v t).lookup a = if a = k then some v else t.lookup a := by
  by_cases h : a = k
  · subst h
    rw [AList.lookup_insert, if_pos rfl]
  · rw [AList.lookup_insert_ne h, if_neg h]

theorem lookup_erase_eq (t : Table κ α) (k a : κ) :
    (AList.erase k t).lookup a = if a = k then none else t.lookup a := by
  by_cases h : a = k
  · subst h
    rw [AList.lookup_erase, if_pos rfl]
  · rw [AList.lookup_erase_ne h, if_neg h]

theorem modify_of_lookup (h : t.lookup k = some v) (f : α → α) :
    t.modify k f = AList.insert k (f v) t := by
  rw [modify, h]

theorem lookup_modify (t : Table κ α) (k a : κ) (f : α → α) :
    (t.modify k f).lookup a = if a = k then (t.lookup k).map f else t.lookup a := by
  cases h : t.lookup k with
  | none =>
      rw [modify, h]
      by_cases ha : a = k
      · rw [if_pos ha, ha, h, Option.map_none]
      · rw [if_neg ha]
  | some v => rw [modify_of_lookup h, lookup_insert_eq, Option.map_some]

/-! ### Sums -/

variable {measure : κ → α → ℕ}

/-- An entry that goes takes its measure with it. -/
theorem total_erase (t : Table κ α) (k : κ) :
    total measure (AList.erase k t) + (t.lookup k).elim 0 (measure k) = total measure t := by
  have hentries : (AList.erase k t).entries = List.kerase k t.entries := rfl
  cases h : t.lookup k with
  | none =>
      rw [List.kerase_of_notMem_keys (AList.lookup_eq_none.mp h)] at hentries
      simp only [total, hentries, Option.elim_none, Nat.add_zero]
  | some old =>
      have hmem : k ∈ t.entries.keys := AList.lookup_isSome.mp (by rw [h]; rfl)
      obtain ⟨w, before, after, -, hsplit, herased⟩ := List.exists_of_kerase hmem
      obtain rfl : w = old := by
        have hw : t.lookup k = some w := lookup_eq_some.mpr (by rw [hsplit]; simp)
        exact Option.some.inj (hw.symm.trans h)
      rw [herased] at hentries
      simp only [total, hentries, hsplit, List.map_append, List.map_cons, List.sum_append,
        List.sum_cons, Option.elim_some]
      omega

/-- Writing an entry puts its measure in the place of that of the old one. -/
theorem total_insert (t : Table κ α) (k : κ) (v : α) :
    total measure (AList.insert k v t) + (t.lookup k).elim 0 (measure k) =
      total measure t + measure k v := by
  have hentries : (AList.insert k v t).entries = ⟨k, v⟩ :: (AList.erase k t).entries :=
    AList.entries_insert
  have herase := @total_erase _ _ _ measure t k
  have hinsert : total measure (AList.insert k v t) = measure k v + total measure (AList.erase k t) := by
    rw [total, hentries, List.map_cons, List.sum_cons]
    rfl
  omega

/-- The sum where every entry measures the same. -/
theorem total_const {c : ℕ} (h : ∀ k v, t.lookup k = some v → measure k v = c) :
    total measure t = t.keys.length * c := by
  have hentries : t.entries.map (fun entry => measure entry.1 entry.2) =
      t.entries.map fun _ => c :=
    List.map_congr_left fun entry hentry => h entry.1 entry.2 (lookup_eq_some.mpr hentry)
  rw [total, hentries, List.map_const', List.sum_replicate_nat]
  exact congrArg (· * c) (List.length_map _).symm

end Table

end Maskura.Lib
