import Maskura.Lib.Text
import Mathlib.Data.Char
import Mathlib.Data.List.DropRight

/-!
Common prefixes of a listing. Keys that share a part up to the first delimiter behind
the prefix are collapsed into one line. A text is the sequence of its characters:
comparing texts by their bytes compares them by code points.
-/

namespace Maskura.Listing

open Maskura.Lib Maskura.Lib.Text

abbrev Text := List Char

/-- The key is to be listed as this common prefix, which ends with the first
delimiter behind `keyPrefix`. -/
def ListsCommon (keyPrefix delimiter key common : Text) : Prop :=
  ∃ before after, key = keyPrefix ++ (before ++ delimiter ++ after) ∧
    (∀ front back, before ++ delimiter ++ after = front ++ delimiter ++ back →
      before.length ≤ front.length) ∧
    common = keyPrefix ++ (before ++ delimiter)

/-- The common prefix of a key. -/
def commonOf (keyPrefix delimiter key : Text) : Option Text := do
  let rest ← key.dropPrefix? keyPrefix
  let (before, _) ← splitAtFirst delimiter rest
  some (keyPrefix ++ (before ++ delimiter))

variable {keyPrefix delimiter key common : Text}

theorem dropPrefix?_eq_some {s front rest : Text} :
    s.dropPrefix? front = some rest ↔ s = front ++ rest := by
  simp [List.dropPrefix?_eq_some_iff]

theorem commonOf_eq_some : commonOf keyPrefix delimiter key = some common ↔
    ListsCommon keyPrefix delimiter key common := by
  unfold commonOf ListsCommon
  simp only [Option.bind_eq_bind, Option.bind_eq_some_iff, dropPrefix?_eq_some, Prod.exists,
    splitAtFirst_eq_some, Option.some.injEq]
  constructor
  · rintro ⟨rest, rfl, before, after, ⟨rfl, hfirst⟩, rfl⟩
    exact ⟨before, after, rfl, hfirst, rfl⟩
  · rintro ⟨before, after, rfl, hfirst, rfl⟩
    exact ⟨_, rfl, before, after, ⟨rfl, hfirst⟩, rfl⟩

theorem commonOf_of_isPrefix {other : Text} (h : commonOf keyPrefix delimiter key = some common)
    (hother : common <+: other) : commonOf keyPrefix delimiter other = some common := by
  obtain ⟨before, after, rfl, hfirst, rfl⟩ := commonOf_eq_some.1 h
  obtain ⟨after', rfl⟩ := hother
  refine commonOf_eq_some.2 ⟨before, after', by simp, fun front back hsplit => ?_, rfl⟩
  -- an earlier delimiter would end within the common prefix, and so stand in `key` as well
  by_contra hlt
  rw [not_le] at hlt
  have hwhole : front ++ delimiter <+: before ++ delimiter ++ after' := ⟨back, hsplit.symm⟩
  have hinside : front ++ delimiter <+: before ++ delimiter :=
    List.prefix_of_prefix_length_le hwhole (List.prefix_append _ _) (by simp [hlt.le])
  obtain ⟨gap, hgap⟩ := hinside
  have := hfirst front (gap ++ after) (by rw [← hgap]; simp)
  omega

end Maskura.Listing
