import Mathlib.Data.List.Basic

/-!
Values written one after the other. A writing is delimited when the bytes tell where
a value ends, whatever comes behind it, and which value it was. Delimited writings
can be put behind one another, and behind a count they make a list.
-/

namespace Maskura.Lib

universe u v w

variable {α : Type u} {β : Type v} {γ : Type w} {P : α → Prop} {Q : γ → Prop} {f : α → List β}
  {g : γ → List β}

/-- On the values of `P`, what is written determines the value and where it ends. -/
def DelimitedOn (P : α → Prop) (f : α → List β) : Prop :=
  ∀ ⦃a b : α⦄ ⦃s t : List β⦄, P a → P b → f a ++ s = f b ++ t → a = b ∧ s = t

namespace DelimitedOn

theorem prod (hf : DelimitedOn P f) (hg : DelimitedOn Q g) :
    DelimitedOn (fun pair : α × γ => P pair.1 ∧ Q pair.2) fun pair => f pair.1 ++ g pair.2 := by
  rintro ⟨a, c⟩ ⟨b, d⟩ s t ⟨ha, hc⟩ ⟨hb, hd⟩ h
  simp only [List.append_assoc] at h
  obtain ⟨rfl, hrest⟩ := hf ha hb h
  obtain ⟨rfl, rfl⟩ := hg hc hd hrest
  exact ⟨rfl, rfl⟩

/-- What is written of a value through an injection. -/
theorem comap {i : γ → α} (hf : DelimitedOn P f) (hi : Function.Injective i) :
    DelimitedOn (P ∘ i) (f ∘ i) := by
  intro c d s t hc hd h
  obtain ⟨hsame, rfl⟩ := hf hc hd h
  exact ⟨hi hsame, rfl⟩

theorem mono {R : α → Prop} (hf : DelimitedOn P f) (h : ∀ a, R a → P a) : DelimitedOn R f :=
  fun _ _ _ _ ha hb heq => hf (h _ ha) (h _ hb) heq

/-- Two lists of one length. -/
theorem flatMap (hf : DelimitedOn P f) {l m : List α} {s t : List β} (hl : ∀ a ∈ l, P a)
    (hm : ∀ a ∈ m, P a) (hlength : l.length = m.length)
    (h : l.flatMap f ++ s = m.flatMap f ++ t) : l = m ∧ s = t := by
  induction l generalizing m with
  | nil =>
      obtain rfl := List.length_eq_zero_iff.mp hlength.symm
      exact ⟨rfl, h⟩
  | cons a l ih =>
      match m with
      | b :: m =>
          simp only [List.flatMap_cons, List.append_assoc] at h
          rw [List.forall_mem_cons] at hl hm
          obtain ⟨rfl, hrest⟩ := hf hl.1 hm.1 h
          obtain ⟨rfl, rfl⟩ := ih hl.2 hm.2 (Nat.succ.inj hlength) hrest
          exact ⟨rfl, rfl⟩

/-- A list behind its length. -/
theorem counted {C : ℕ → Prop} {count : ℕ → List β} (hcount : DelimitedOn C count)
    (hf : DelimitedOn P f) :
    DelimitedOn (fun l : List α => C l.length ∧ ∀ a ∈ l, P a)
      fun l => count l.length ++ l.flatMap f := by
  intro l m s t hl hm h
  simp only [List.append_assoc] at h
  obtain ⟨hlength, hrest⟩ := hcount hl.1 hm.1 h
  exact hf.flatMap hl.2 hm.2 hlength hrest

/-- Without anything behind it, a delimited writing is injective. -/
theorem injOn (hf : DelimitedOn P f) {a b : α} (ha : P a) (hb : P b) (h : f a = f b) : a = b :=
  (hf ha hb (congrArg (· ++ []) h)).1

end DelimitedOn

end Maskura.Lib
