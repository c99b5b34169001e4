import Mathlib.Data.List.Basic

/-!
Transducers in a row. Each one turns an item into at most one item, and may give
one more when it is flushed. Running the whole row on every item as it comes,
and flushing the transducers from the first to the last while the later ones
still receive items, is the same as running the first on all items, the second
on what the first gave, and so on.
-/

namespace Maskura.Lib.Cascade

variable {σ α : Type}

/-- A transducer over states of type `σ`. -/
structure Transducer (σ α : Type) where
  step : σ → α → Option α × σ
  flush : σ → Option α

/-- A transducer in some state. -/
structure Running (σ α : Type) where
  transducer : Transducer σ α
  state : σ

/-- One item for one transducer. -/
def Running.push (m : Running σ α) (a : α) : Option α × Running σ α :=
  ((m.transducer.step m.state a).1, { m with state := (m.transducer.step m.state a).2 })

/-- All items for one transducer, before it is flushed. -/
def Running.feed (m : Running σ α) : List α → List α × Running σ α
  | [] => ([], m)
  | a :: as => ((m.push a).1.toList ++ ((m.push a).2.feed as).1, ((m.push a).2.feed as).2)

/-- All that one transducer makes of the items. -/
def Running.output (m : Running σ α) (as : List α) : List α :=
  (m.feed as).1 ++ ((m.feed as).2.transducer.flush (m.feed as).2.state).toList

/-- One transducer after the other, each on the whole output of the one before. -/
def staged : List (Running σ α) → List α → List α
  | [], as => as
  | m :: ms, as => staged ms (m.output as)

/-- One item through the row. -/
def route : List (Running σ α) → α → Option α × List (Running σ α)
  | [], a => (some a, [])
  | m :: ms, a =>
      match m.push a with
      | (none, m) => (none, m :: ms)
      | (some b, m) => ((route ms b).1, m :: (route ms b).2)

theorem route_cons {m : Running σ α} {ms : List (Running σ α)} {a : α} :
    route (m :: ms) a = match (m.push a).1 with
      | none => (none, (m.push a).2 :: ms)
      | some b => ((route ms b).1, (m.push a).2 :: (route ms b).2) := by
  rw [route]
  cases m.push a with
  | mk out m' => cases out <;> rfl

@[simp] theorem length_route {ms : List (Running σ α)} {a : α} : (route ms a).2.length = ms.length := by
  induction ms generalizing a with
  | nil => rfl
  | cons m ms ih =>
      rw [route]
      split
      · rfl
      · rw [List.length_cons, List.length_cons, ih]

/-- The items through the row, one after the other. -/
def routeAll : List (Running σ α) → List α → List α × List (Running σ α)
  | ms, [] => ([], ms)
  | ms, a :: as =>
      ((route ms a).1.toList ++ (routeAll (route ms a).2 as).1, (routeAll (route ms a).2 as).2)

/-- The row is flushed: what one transducer still has goes through those behind. -/
def flushAll : List (Running σ α) → List α
  | [] => []
  | m :: ms =>
      match m.transducer.flush m.state with
      | none => flushAll ms
      | some a => (route ms a).1.toList ++ flushAll (route ms a).2
termination_by ms => ms.length
decreasing_by all_goals simp

theorem routeAll_append {ms : List (Running σ α)} {as bs : List α} :
    routeAll ms (as ++ bs) =
      ((routeAll ms as).1 ++ (routeAll (routeAll ms as).2 bs).1,
        (routeAll (routeAll ms as).2 bs).2) := by
  induction as generalizing ms with
  | nil => rfl
  | cons a as ih => simp only [List.cons_append, routeAll, ih, List.append_assoc]

theorem routeAll_singleton {ms : List (Running σ α)} {a : α} :
    routeAll ms [a] = ((route ms a).1.toList, (route ms a).2) := by
  simp [routeAll]

/-- Without transducers the items come out as they are. -/
theorem routeAll_nil {as : List α} : routeAll ([] : List (Running σ α)) as = (as, []) := by
  induction as with
  | nil => rfl
  | cons a as ih => simp [routeAll, route, ih]

/-- The first transducer works on all items, the others on what it gives. -/
theorem routeAll_cons {m : Running σ α} {ms : List (Running σ α)} {as : List α} :
    routeAll (m :: ms) as =
      ((routeAll ms (m.feed as).1).1, (m.feed as).2 :: (routeAll ms (m.feed as).1).2) := by
  induction as generalizing m ms with
  | nil => rfl
  | cons a as ih =>
      rw [routeAll, Running.feed, route]
      cases hpush : m.push a with
      | mk out m' =>
          cases out with
          | none => simp only [ih, Option.toList_none, List.nil_append]
          | some b =>
              simp only [ih, Option.toList_some, List.singleton_append, routeAll]

/-- Item by item is stage by stage. -/
theorem routeAll_flushAll {ms : List (Running σ α)} {as : List α} :
    (routeAll ms as).1 ++ flushAll (routeAll ms as).2 = staged ms as := by
  induction ms generalizing as with
  | nil => simp [routeAll_nil, flushAll, staged]
  | cons m ms ih =>
      rw [routeAll_cons, staged, ← ih, Running.output, flushAll]
      cases (m.feed as).2.transducer.flush (m.feed as).2.state with
      | none => rw [Option.toList_none, List.append_nil]
      | some a => rw [Option.toList_some, routeAll_append, routeAll_singleton, List.append_assoc]

end Maskura.Lib.Cascade
