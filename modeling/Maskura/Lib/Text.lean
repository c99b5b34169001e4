import Mathlib.Data.List.Infix

/-!
Cutting a sequence at a separator, from either end. A cut is the sequence
itself with the separator marked: the two parts and the separator make up the
sequence again, and the part on the side of the search has no separator.
-/

namespace Maskura.Lib.Text

universe u

variable {α : Type u} [DecidableEq α]

/-- The parts before and after the first `c`. -/
def splitOnce (c : α) : List α → Option (List α × List α)
  | [] => none
  | a :: as =>
      if a = c then some ([], as)
      else (splitOnce c as).map fun (before, after) => (a :: before, after)

/-- The parts before and after the last `c`. -/
def rsplitOnce (c : α) : List α → Option (List α × List α)
  | [] => none
  | a :: as =>
      match rsplitOnce c as with
      | some (before, after) => some (a :: before, after)
      | none => if a = c then some ([], as) else none

/-- The parts before and after the last occurrence of a sequence. -/
def rsplitAt (sep : List α) : List α → Option (List α × List α)
  | [] => none
  | a :: as =>
      match rsplitAt sep as with
      | some (before, after) => some (a :: before, after)
      | none => if sep <+: a :: as then some ([], (a :: as).drop sep.length) else none

/-- The parts before and after the first occurrence of a sequence. -/
def splitAtFirst (sep : List α) : List α → Option (List α × List α)
  | [] => if sep = [] then some ([], []) else none
  | a :: as =>
      if sep <+: a :: as then some ([], (a :: as).drop sep.length)
      else (splitAtFirst sep as).map fun (before, after) => (a :: before, after)

/-- What stands behind the last `c`, or everything. -/
def lastPart (c : α) (s : List α) : List α :=
  match rsplitOnce c s with
  | some (_, after) => after
  | none => s

theorem splitOnce_eq_some {c : α} {s before after : List α} :
    splitOnce c s = some (before, after) ↔ s = before ++ c :: after ∧ c ∉ before := by
  induction s generalizing before with
  | nil => simp [splitOnce]
  | cons a as ih =>
      rw [splitOnce]
      by_cases ha : a = c
      · subst ha
        rw [if_pos rfl]
        constructor
        · rintro ⟨⟩
          exact ⟨rfl, List.not_mem_nil⟩
        · rintro ⟨hsplit, hbefore⟩
          cases before with
          | nil => exact congrArg (fun t => some ([], t)) (List.cons.inj hsplit).2
          | cons b before =>
              obtain ⟨rfl, -⟩ := List.cons.inj hsplit
              exact absurd List.mem_cons_self hbefore
      · rw [if_neg ha, Option.map_eq_some_iff]
        constructor
        · rintro ⟨⟨front, back⟩, hcut, hpair⟩
          obtain ⟨rfl, rfl⟩ := Prod.mk.inj hpair
          obtain ⟨rfl, hfront⟩ := ih.mp hcut
          exact ⟨rfl, by simp [hfront, Ne.symm ha]⟩
        · rintro ⟨hsplit, hbefore⟩
          cases before with
          | nil => exact absurd (List.cons.inj hsplit).1 ha
          | cons b before =>
              obtain ⟨rfl, rfl⟩ := List.cons.inj hsplit
              exact ⟨(before, after), ih.mpr ⟨rfl, fun hmem => hbefore (.tail _ hmem)⟩, rfl⟩

theorem splitOnce_eq_none {c : α} {s : List α} : splitOnce c s = none ↔ c ∉ s := by
  induction s with
  | nil => simp [splitOnce]
  | cons a as ih =>
      by_cases ha : a = c
      · simp [splitOnce, ha]
      · simp [splitOnce, ha, ih, Ne.symm ha]

theorem rsplitOnce_eq_none {c : α} {s : List α} : rsplitOnce c s = none ↔ c ∉ s := by
  induction s with
  | nil => simp [rsplitOnce]
  | cons a as ih =>
      rw [rsplitOnce]
      split
      · next before after hcut =>
        have hmem : c ∈ as := not_not.mp fun hnot => by simp [ih.mpr hnot] at hcut
        simp [hmem]
      · next hnone =>
        have hnot := ih.mp hnone
        by_cases ha : a = c
        · simp [ha]
        · simp [ha, hnot, Ne.symm ha]

theorem rsplitOnce_eq_some {c : α} {s before after : List α} :
    rsplitOnce c s = some (before, after) ↔ s = before ++ c :: after ∧ c ∉ after := by
  induction s generalizing before after with
  | nil => simp [rsplitOnce]
  | cons a as ih =>
      rw [rsplitOnce]
      split
      · next front back hcut =>
        obtain ⟨rfl, hback⟩ := ih.mp hcut
        constructor
        · rintro ⟨⟩
          exact ⟨rfl, hback⟩
        · rintro ⟨hsplit, hafter⟩
          cases before with
          | nil =>
              -- The first letter cannot be the last separator: there is one behind it.
              obtain ⟨-, rfl⟩ := List.cons.inj hsplit
              exact absurd (List.mem_append_right front List.mem_cons_self) hafter
          | cons b before =>
              obtain ⟨rfl, hrest⟩ := List.cons.inj hsplit
              have hsame := ih.mpr ⟨hrest, hafter⟩
              rw [hcut] at hsame
              obtain ⟨rfl, rfl⟩ := Prod.mk.inj (Option.some.inj hsame)
              rfl
      · next hnone =>
        have hnot := rsplitOnce_eq_none.mp hnone
        by_cases ha : a = c
        · subst ha
          rw [if_pos rfl]
          constructor
          · rintro ⟨⟩
            exact ⟨rfl, hnot⟩
          · rintro ⟨hsplit, -⟩
            cases before with
            | nil => exact congrArg (fun t => some ([], t)) (List.cons.inj hsplit).2
            | cons b before =>
                obtain ⟨-, rfl⟩ := List.cons.inj hsplit
                simp at hnot
        · rw [if_neg ha]
          refine iff_of_false (by simp) ?_
          rintro ⟨hsplit, -⟩
          cases before with
          | nil => exact ha (List.cons.inj hsplit).1
          | cons b before =>
              obtain ⟨-, rfl⟩ := List.cons.inj hsplit
              simp at hnot

theorem rsplitAt_eq_some {sep s before after : List α}
    (h : rsplitAt sep s = some (before, after)) : s = before ++ sep ++ after := by
  induction s generalizing before after with
  | nil => simp [rsplitAt] at h
  | cons a as ih =>
      rw [rsplitAt] at h
      split at h
      · next front back hcut =>
        obtain ⟨rfl, rfl⟩ := Prod.mk.inj (Option.some.inj h)
        rw [ih hcut]
        rfl
      · split at h
        · next hbegins =>
          obtain ⟨rest, hrest⟩ := hbegins
          obtain ⟨rfl, rfl⟩ := Prod.mk.inj (Option.some.inj h)
          rw [← hrest, List.drop_left, List.nil_append]
        · cases h

/-- The cut at the first occurrence is the one with the shortest part before. -/
theorem splitAtFirst_eq_some {sep s before after : List α} :
    splitAtFirst sep s = some (before, after) ↔
      s = before ++ sep ++ after ∧
        ∀ front back, s = front ++ sep ++ back → before.length ≤ front.length := by
  induction s generalizing before after with
  | nil =>
      by_cases hsep : sep = []
      · simp +contextual [splitAtFirst, hsep, eq_comm]
      · simp [splitAtFirst, hsep]
  | cons a as ih =>
      rw [splitAtFirst]
      split
      case isTrue hhere =>
        obtain ⟨rest, hrest⟩ := hhere
        rw [← hrest, List.drop_left]
        constructor
        · intro h
          obtain ⟨rfl, rfl⟩ := Prod.mk.inj (Option.some.inj h)
          simp
        · rintro ⟨hsplit, hfirst⟩
          have hzero := hfirst [] rest (by simp)
          obtain rfl : before = [] := List.length_eq_zero_iff.1 (Nat.le_zero.1 hzero)
          simpa using hsplit
      case isFalse hhere =>
        -- a cut of the whole has the head in front, as the separator is not at the start
        have hcons : ∀ front back, a :: as = front ++ sep ++ back →
            ∃ rest, front = a :: rest ∧ as = rest ++ sep ++ back := by
          intro front back hsplit
          cases front with
          | nil => exact absurd ⟨back, by simpa using hsplit.symm⟩ hhere
          | cons b rest =>
              rw [List.cons_append, List.cons_append, List.cons.injEq] at hsplit
              exact ⟨rest, by rw [hsplit.1], hsplit.2⟩
        constructor
        · intro h
          obtain ⟨⟨rest, after'⟩, hcut, hpair⟩ := Option.map_eq_some_iff.1 h
          obtain ⟨rfl, rfl⟩ := Prod.mk.inj hpair
          obtain ⟨hsplit, hfirst⟩ := ih.1 hcut
          refine ⟨by simp [hsplit], fun front back h => ?_⟩
          obtain ⟨rest', rfl, hrest⟩ := hcons front back h
          simpa using hfirst rest' back hrest
        · rintro ⟨hsplit, hfirst⟩
          obtain ⟨rest, rfl, hrest⟩ := hcons before after hsplit
          rw [ih.2 ⟨hrest, fun front back h => ?_⟩]
          · rfl
          · simpa using hfirst (a :: front) back (by simp [h])

/-- The parts between separators have no separator. -/
theorem not_mem_of_mem_splitOn {c : α} {s part : List α}
    (h : part ∈ s.splitOn c) : c ∉ part := by
  induction s generalizing part with
  | nil =>
      obtain rfl : part = [] := List.mem_singleton.1 h
      exact List.not_mem_nil
  | cons a as ih =>
      rw [List.splitOn, List.splitOnP_cons_eq_if_modifyHead] at h
      split at h
      case isTrue =>
        rcases List.mem_cons.1 h with rfl | h
        · exact List.not_mem_nil
        · exact ih h
      case isFalse hac =>
        rw [List.splitOn] at ih
        cases hparts : List.splitOnP (· == c) as with
        | nil => simp [hparts] at h
        | cons first parts =>
            rw [hparts, List.modifyHead_cons] at h
            rcases List.mem_cons.1 h with rfl | h
            · have := ih (hparts ▸ List.mem_cons_self)
              simp only [beq_iff_eq] at hac
              simp [this, Ne.symm hac]
            · exact ih (hparts ▸ List.mem_cons_of_mem _ h)

/-- Words that can be told apart at the front are told apart in a sequence. -/
theorem flatMap_injective {γ β : Type u} {f : γ → List β} (hne : ∀ a, f a ≠ [])
    (h : ∀ a b s t, f a ++ s = f b ++ t → a = b ∧ s = t) :
    Function.Injective (List.flatMap f) := by
  intro as
  induction as with
  | nil =>
      intro bs hbs
      cases bs with
      | nil => rfl
      | cons b bs => simp [hne] at hbs
  | cons a as ih =>
      intro bs hbs
      cases bs with
      | nil => simp [hne] at hbs
      | cons b bs =>
          rw [List.flatMap_cons, List.flatMap_cons] at hbs
          obtain ⟨rfl, hrest⟩ := h a b _ _ hbs
          rw [ih hrest]

end Maskura.Lib.Text
