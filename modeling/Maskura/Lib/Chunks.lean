import Maskura.Lib.Fold

/-!
A machine fed with a sequence in chunks, with a check at the end of every chunk.
Feeding in chunks is feeding the whole sequence, and passing the check wherever
a chunk ends.
-/

namespace Maskura.Lib.Chunks

variable {σ α ε : Type}

/-- One chunk: its elements one after the other, and the check. -/
def feedChunk (feed : σ → α → Except ε σ) (check : σ → Except ε Unit) (s : σ) (chunk : List α) :
    Except ε σ := do
  let s ← chunk.foldlM feed s
  check s
  return s

/-- All chunks. -/
def feedChunks (feed : σ → α → Except ε σ) (check : σ → Except ε Unit) (chunks : List (List α))
    (s : σ) : Except ε σ :=
  chunks.foldlM (feedChunk feed check) s

variable {feed : σ → α → Except ε σ} {check : σ → Except ε Unit} {s t : σ}

theorem feedChunk_eq_ok {chunk : List α} :
    feedChunk feed check s chunk = .ok t ↔ chunk.foldlM feed s = .ok t ∧ check t = .ok () := by
  simp only [feedChunk, bind_eq_ok, pure_eq_ok]
  constructor
  · rintro ⟨u, hu, ⟨⟩, hcheck, rfl⟩
    exact ⟨hu, hcheck⟩
  · rintro ⟨ht, hcheck⟩
    exact ⟨t, ht, (), hcheck, rfl⟩

/-- A split of the sequence at the end of a chunk. -/
def ChunkEnd (chunks : List (List α)) (before after : List α) : Prop :=
  ∃ front back, chunks = front ++ back ∧ front ≠ [] ∧ before = front.flatten ∧ after = back.flatten

theorem ChunkEnd.append {chunks : List (List α)} {before after : List α}
    (h : ChunkEnd chunks before after) : chunks.flatten = before ++ after := by
  obtain ⟨front, back, rfl, -, rfl, rfl⟩ := h
  exact List.flatten_append

/-- The chunks up to an end, counted. -/
theorem ChunkEnd.exists_take {chunks : List (List α)} {before after : List α}
    (h : ChunkEnd chunks before after) :
    ∃ n < chunks.length, before = (chunks.take (n + 1)).flatten := by
  obtain ⟨front, back, rfl, hfront, rfl, rfl⟩ := h
  have hlength : front.length - 1 + 1 = front.length :=
    Nat.sub_add_cancel (List.length_pos_of_ne_nil hfront)
  refine ⟨front.length - 1, ?_, by rw [hlength, List.take_left]⟩
  rw [List.length_append]
  omega

/-- Feeding in chunks succeeds exactly when feeding the whole does and the check
is passed at the end of every chunk. -/
theorem feedChunks_eq_ok {chunks : List (List α)} :
    feedChunks feed check chunks s = .ok t ↔
      chunks.flatten.foldlM feed s = .ok t ∧
        ∀ before after, ChunkEnd chunks before after →
          ∀ u, before.foldlM feed s = .ok u → check u = .ok () := by
  induction chunks generalizing s with
  | nil =>
      refine ⟨fun h => ⟨h, ?_⟩, fun h => h.1⟩
      rintro before after ⟨front, back, hnil, hfront, -, -⟩
      exact absurd (List.append_eq_nil_iff.mp hnil.symm).1 hfront
  | cons chunk chunks ih =>
      rw [feedChunks, foldlM_cons_eq_ok, List.flatten_cons, foldlM_append_eq_ok]
      constructor
      · rintro ⟨u, hchunk, hrest⟩
        obtain ⟨hu, hcheck⟩ := feedChunk_eq_ok.mp hchunk
        obtain ⟨ht, hends⟩ := ih.mp hrest
        refine ⟨⟨u, hu, ht⟩, ?_⟩
        rintro before after ⟨front, back, hsplit, hfront, rfl, rfl⟩ v hv
        cases front with
        | nil => exact absurd rfl hfront
        | cons first front =>
            obtain ⟨rfl, rfl⟩ := List.cons.inj hsplit
            rw [List.flatten_cons, foldlM_append_eq_ok] at hv
            obtain ⟨w, hw, hv⟩ := hv
            obtain rfl : u = w := Except.ok.inj (hu.symm.trans hw)
            cases front with
            | nil => exact Except.ok.inj hv ▸ hcheck
            | cons second front =>
                exact hends _ _ ⟨second :: front, back, rfl, by simp, rfl, rfl⟩ v hv
      · rintro ⟨⟨u, hu, ht⟩, hends⟩
        refine ⟨u, feedChunk_eq_ok.mpr ⟨hu, ?_⟩, ih.mpr ⟨ht, ?_⟩⟩
        · exact hends chunk chunks.flatten ⟨[chunk], chunks, rfl, by simp, by simp, rfl⟩ u hu
        · rintro before after ⟨front, back, rfl, hfront, rfl, rfl⟩ v hv
          refine hends (chunk ++ front.flatten) back.flatten
            ⟨chunk :: front, back, rfl, by simp, by simp, rfl⟩ v ?_
          exact foldlM_append_eq_ok.mpr ⟨u, hu, hv⟩

end Maskura.Lib.Chunks
