import Maskura.Lib.Prog
import Maskura.Iceberg.Names
import Mathlib.Data.List.AList

/-!
The objects of a bucket, and the four requests through which the table layer
reads and changes them. Any request can fail. A change that fails may have
been made all the same: the answer was lost.
-/

namespace Maskura.Iceberg

open Maskura.Lib
open Maskura.Persistence (Bytes)

abbrev Objects := AList fun _ : Key => Bytes

inductive StoreRequest
  | get (key : Key)
  | put (key : Key) (bytes : Bytes) (contentType : String)
  | delete (key : Key)
  | list (keyPrefix : Key)

abbrev StoreAnswer : StoreRequest → Type
  | .get _ => Except MaskuraError (Option Bytes)
  | .put _ _ _ => Except MaskuraError Unit
  | .delete _ => Except MaskuraError Bool
  | .list _ => Except MaskuraError (List Key)

structure Choice where
  failure : Option MaskuraError := none
  /-- Whether a change that fails is made nevertheless. -/
  applied : Bool := false

/-- An answer that the failure of a choice replaces. -/
def Choice.orFail {α : Type} (choice : Choice) (a : α) : Except MaskuraError α :=
  match choice.failure with
  | some error => .error error
  | none => .ok a

theorem Choice.orFail_cases {α : Type} (choice : Choice) (a : α) :
    choice.orFail a = .ok a ∨ ∃ e, choice.orFail a = .error e := by
  unfold orFail
  cases choice.failure with
  | none => exact .inl rfl
  | some e => exact .inr ⟨e, rfl⟩

/-- The objects a change leaves. -/
def Choice.change (choice : Choice) (objects changed : Objects) : Objects :=
  if choice.failure.isSome ∧ ¬choice.applied then objects else changed

/-- The keys below a prefix. -/
def Objects.listing (objects : Objects) (keyPrefix : Key) : List Key :=
  objects.keys.filter fun key => keyPrefix.isPrefixOf key

def answer : Prog.Handler StoreRequest StoreAnswer Objects Choice
  | objects, .get key, choice => (choice.orFail (objects.lookup key), objects)
  | objects, .put key bytes _, choice =>
      (choice.orFail (), choice.change objects (objects.insert key bytes))
  | objects, .delete key, choice =>
      (choice.orFail (decide (key ∈ objects)), choice.change objects (objects.erase key))
  | objects, .list keyPrefix, choice => (choice.orFail (objects.listing keyPrefix), objects)

theorem mem_listing {objects : Objects} {keyPrefix key : Key} :
    key ∈ objects.listing keyPrefix ↔ key ∈ objects ∧ keyPrefix <+: key := by
  simp [Objects.listing, AList.mem_keys]

abbrev TableStore := ExceptT MaskuraError (Prog StoreRequest StoreAnswer)

namespace TableStore

def list (keyPrefix : Key) : TableStore (List Key) :=
  ExceptT.mk (Prog.request (StoreRequest.list keyPrefix))

end TableStore

/-! ### Programs that only read

On given objects such a program has one result. A run of it ends with that
result, or with an error because a request failed. -/

/-- Started on these objects the program leaves them alone and ends with this
result or an error; if no request fails it ends with the result. -/
structure Reads {α : Type} (m : TableStore α) (objects : Objects)
    (result : Except MaskuraError α) : Prop where
  runs : Prog.Holds answer (· = objects)
    (fun r t => (r = result ∨ ∃ e, r = .error e) ∧ t = objects) m.run objects
  quiet : m.run.always answer {} objects = (result, objects)

namespace Reads

variable {α β : Type} {objects : Objects}

theorem ofExcept (x : Except MaskuraError α) : Reads (Prog.ofExcept x) objects x :=
  ⟨⟨.inl rfl, rfl⟩, rfl⟩

theorem pure (a : α) : Reads (Pure.pure a) objects (.ok a) := ⟨⟨.inl rfl, rfl⟩, rfl⟩

theorem list (keyPrefix : Key) :
    Reads (TableStore.list keyPrefix) objects (.ok (objects.listing keyPrefix)) :=
  ⟨⟨rfl, fun choice => ⟨choice.orFail_cases _, rfl⟩⟩, rfl⟩

theorem bind {m : TableStore α} {f : α → TableStore β} {x : Except MaskuraError α}
    {g : α → Except MaskuraError β} (hm : Reads m objects x)
    (hf : ∀ a, x = .ok a → Reads (f a) objects (g a)) : Reads (m >>= f) objects (x >>= g) := by
  constructor
  · rw [ExceptT.run_bind, Prog.holds_bind]
    refine hm.runs.mono ?_
    rintro r t ⟨hr, rfl⟩
    cases r with
    | error e =>
        rcases hr with rfl | -
        · exact ⟨.inl rfl, rfl⟩
        · exact ⟨.inr ⟨e, rfl⟩, rfl⟩
    | ok a =>
        obtain rfl : x = .ok a := by
          rcases hr with rfl | ⟨e, he⟩
          · rfl
          · cases he
        exact (hf a rfl).runs
  · rw [ExceptT.run_bind, Prog.always_bind, hm.quiet]
    cases x with
    | error e => rfl
    | ok a => exact (hf a rfl).quiet

/-- The result of a run that finishes. -/
theorem result {m : TableStore α} {x r : Except MaskuraError α} (h : Reads m objects x)
    {choices : List Choice} (hrun : (m.run.run answer choices objects).1 = some r) :
    r = x ∨ ∃ e, r = .error e :=
  (h.runs.result hrun).1

theorem exists_run {m : TableStore α} {x : Except MaskuraError α} (h : Reads m objects x) :
    ∃ choices, (m.run.run answer choices objects).1 = some x := by
  obtain ⟨choices, hrun⟩ := Prog.exists_run_always answer {} m.run objects
  exact ⟨choices, by rw [hrun, h.quiet]⟩

end Reads

end Maskura.Iceberg
