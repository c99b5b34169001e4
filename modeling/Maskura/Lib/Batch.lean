import Mathlib.Data.List.Basic

/-!
Decoders that are given their input in frames. The decoder proper is a machine
that takes one element at a time and may put something out; what runs is a loop
that takes as many elements at once as it can. If each round of the loop does
what the machine does on the elements it takes, then the frames do not matter.
-/

namespace Maskura.Lib.Batch

variable {σ α γ ε : Type}

/-- Output in front of a result. -/
def emit (out : List γ) (result : σ × List γ) : σ × List γ := (result.1, out ++ result.2)

@[simp] theorem map_emit_nil (x : Except ε (σ × List γ)) : x.map (emit []) = x := by
  cases x <;> rfl

theorem map_emit_eq_ok {x : Except ε (σ × List γ)} {front out : List γ} {s : σ} :
    x.map (emit front) = .ok (s, out) ↔ ∃ out', out = front ++ out' ∧ x = .ok (s, out') := by
  cases x with
  | error e => simp [Except.map]
  | ok result =>
      obtain ⟨t, later⟩ := result
      simp only [Except.map, emit, Except.ok.injEq, Prod.mk.injEq]
      constructor
      · rintro ⟨rfl, rfl⟩
        exact ⟨later, rfl, rfl, rfl⟩
      · rintro ⟨_, rfl, rfl, rfl⟩
        exact ⟨rfl, rfl⟩

theorem emit_comp (out out' : List γ) : emit (σ := σ) out ∘ emit out' = emit (out ++ out') := by
  funext result
  simp [emit]

/-- The machine on a whole sequence. -/
def feeds (feed : σ → α → Except ε (σ × List γ)) (s : σ) : List α → Except ε (σ × List γ)
  | [] => .ok (s, [])
  | a :: as => (feed s a).bind fun (t, out) => (feeds feed t as).map (emit out)

/-- `while !input.is_empty()`, with the pieces put out on the way. There is no
result if the rounds do not suffice. -/
def loop (round : σ → List α → Except ε (σ × List α × List (List γ))) :
    ℕ → σ → List α → Option (Except ε (σ × List (List γ)))
  | _, s, [] => some (.ok (s, []))
  | 0, _, _ :: _ => none
  | fuel + 1, s, a :: as =>
      match round s (a :: as) with
      | .error e => some (.error e)
      | .ok (t, rest, pieces) => (loop round fuel t rest).map (Except.map (emit pieces))

/-- One frame after the other, up to the first error. -/
def pushAll (push : σ → List α → Option (Except ε (σ × List (List γ)))) (s : σ) :
    List (List α) → Option (Except ε (σ × List (List γ)))
  | [] => some (.ok (s, []))
  | frame :: frames =>
      match push s frame with
      | none => none
      | some (.error e) => some (.error e)
      | some (.ok (t, pieces)) => (pushAll push t frames).map (Except.map (emit pieces))

/-- The state and all the pieces joined. -/
def joined (result : σ × List (List γ)) : σ × List γ := (result.1, result.2.flatten)

theorem joined_emit (pieces : List (List γ)) :
    joined ∘ emit pieces = emit (σ := σ) pieces.flatten ∘ joined := by
  funext result
  simp [joined, emit]

variable {feed : σ → α → Except ε (σ × List γ)}
  {round : σ → List α → Except ε (σ × List α × List (List γ))} {Valid : σ → Prop} {s t : σ}

theorem map_map {δ δ' δ'' : Type} (x : Except ε δ) (f : δ → δ') (g : δ' → δ'') :
    (x.map f).map g = x.map (g ∘ f) := by
  cases x <;> rfl

theorem feeds_append {as bs : List α} :
    feeds feed s (as ++ bs) =
      (feeds feed s as).bind fun result => (feeds feed result.1 bs).map (emit result.2) := by
  induction as generalizing s with
  | nil => simp [feeds, Except.bind]
  | cons a as ih =>
      rw [List.cons_append, feeds, feeds]
      cases hfeed : feed s a with
      | error e => rfl
      | ok result =>
          obtain ⟨t, out⟩ := result
          simp only [Except.bind, ih]
          cases feeds feed t as with
          | error e => rfl
          | ok result =>
              change ((feeds feed result.1 bs).map (emit result.2)).map (emit out) =
                (feeds feed result.1 bs).map (emit (out ++ result.2))
              rw [map_map, emit_comp]

/-- Every round does what the machine does on the elements that it takes, and
takes one at least. -/
structure Batches (feed : σ → α → Except ε (σ × List γ))
    (round : σ → List α → Except ε (σ × List α × List (List γ))) (Valid : σ → Prop) : Prop where
  feeds_eq : ∀ {s a as}, Valid s → feeds feed s (a :: as) =
    (round s (a :: as)).bind fun (t, rest, pieces) =>
      (feeds feed t rest).map (emit pieces.flatten)
  valid : ∀ {s a as t rest pieces}, Valid s → round s (a :: as) = .ok (t, rest, pieces) →
    Valid t ∧ rest.length ≤ as.length

theorem Batches.loop_eq (h : Batches feed round Valid) (hs : Valid s) {input : List α} {fuel : ℕ}
    (hfuel : input.length ≤ fuel) :
    (loop round fuel s input).map (Except.map joined) = some (feeds feed s input) := by
  induction fuel generalizing s input with
  | zero =>
      obtain rfl : input = [] := List.length_eq_zero_iff.mp (by omega)
      rfl
  | succ fuel ih =>
      cases input with
      | nil => rfl
      | cons a as =>
          rw [loop, h.feeds_eq hs]
          cases hround : round s (a :: as) with
          | error e => rfl
          | ok result =>
              obtain ⟨t, rest, pieces⟩ := result
              obtain ⟨ht, hrest⟩ := h.valid hs hround
              have hlength : rest.length ≤ fuel := by
                rw [List.length_cons] at hfuel
                omega
              obtain ⟨result, hloop, hresult⟩ := Option.map_eq_some_iff.1 (ih ht hlength)
              simp only [hloop, Option.map_some, Except.bind, ← hresult, map_map, joined_emit]

/-- The machine stays in its valid states. -/
theorem valid_feeds (hfeed : ∀ {s a t out}, Valid s → feed s a = .ok (t, out) → Valid t)
    (hs : Valid s) {input : List α} {out : List γ} (h : feeds feed s input = .ok (t, out)) :
    Valid t := by
  induction input generalizing s out with
  | nil =>
      obtain ⟨rfl, -⟩ := Prod.mk.inj (Except.ok.inj h)
      exact hs
  | cons a as ih =>
      rw [feeds] at h
      cases hstep : feed s a with
      | error e =>
          rw [hstep] at h
          cases h
      | ok result =>
          obtain ⟨u, first⟩ := result
          simp only [hstep, Except.bind] at h
          cases hrest : feeds feed u as with
          | error e =>
              rw [hrest] at h
              cases h
          | ok result =>
              obtain ⟨v, later⟩ := result
              rw [hrest] at h
              obtain ⟨rfl, -⟩ := Prod.mk.inj (Except.ok.inj h)
              exact ih (hfeed hs hstep) hrest

/-- The frames joined are what counts. -/
theorem pushAll_eq {push : σ → List α → Option (Except ε (σ × List (List γ)))}
    (hfeed : ∀ {s a t out}, Valid s → feed s a = .ok (t, out) → Valid t)
    (hpush : ∀ {s frame}, Valid s → (push s frame).map (Except.map joined) = some (feeds feed s frame))
    (hs : Valid s) {frames : List (List α)} :
    (pushAll push s frames).map (Except.map joined) = some (feeds feed s frames.flatten) := by
  induction frames generalizing s with
  | nil => rfl
  | cons frame frames ih =>
      obtain ⟨result, hresult, hjoined⟩ := Option.map_eq_some_iff.1 (@hpush s frame hs)
      rw [pushAll, hresult, List.flatten_cons, feeds_append, ← hjoined]
      cases result with
      | error e => rfl
      | ok result =>
          obtain ⟨t, pieces⟩ := result
          have ht : Valid t := valid_feeds hfeed hs hjoined.symm
          obtain ⟨later, hlater, hlaterJoined⟩ := Option.map_eq_some_iff.1 (ih ht)
          simp only [hlater, Option.map_some]
          change some ((later.map (emit pieces)).map joined) =
            some ((feeds feed t frames.flatten).map (emit pieces.flatten))
          rw [← hlaterJoined, map_map, map_map, joined_emit]

end Maskura.Lib.Batch
