import Maskura.Lib.Result
import Mathlib.Data.List.Nodup
import Mathlib.Data.List.Pairwise

/-!
Schemas of the intermediate representation. A node says whether it may be null
and what it is; the children of a node are reached by path segments.

The kinds without children are one type of their own, so that what is said of
trees has one case for them.
-/

namespace Maskura.BinaryIr

open Lib

/-- The kinds of `SchemaKind` that have no children. -/
inductive ScalarKind
  | null
  | boolean
  | i32
  | i64
  | f32
  | f64
  | string
  | bytes
  | date
  | time
  | timestamp
  | uuid
  | decimal (precision scale : UInt32)
  deriving DecidableEq, Repr

mutual

structure SchemaNode where
  nullable : Bool
  kind : SchemaKind

inductive SchemaKind
  | scalar (kind : ScalarKind)
  | array (items : SchemaNode)
  | map (values : SchemaNode)
  | record (fields : List SchemaField)
  | custom (typeId : String) (value : SchemaNode)

structure SchemaField where
  name : String
  schema : SchemaNode

end

namespace SchemaNode

/-- Two nodes decided equal from their parts. -/
def decEqMk {n n' : Bool} {k k' : SchemaKind} :
    Decidable (n = n') → Decidable (k = k') → Decidable (SchemaNode.mk n k = ⟨n', k'⟩)
  | isTrue h, isTrue h' => isTrue (by rw [h, h'])
  | isFalse h, _ => isFalse fun heq => h (SchemaNode.mk.inj heq).1
  | _, isFalse h => isFalse fun heq => h (SchemaNode.mk.inj heq).2

end SchemaNode

mutual

def SchemaNode.decEq : (a b : SchemaNode) → Decidable (a = b)
  | ⟨n, k⟩, ⟨n', k'⟩ => SchemaNode.decEqMk (instDecidableEqBool n n') (k.decEq k')

def SchemaKind.decEq : (a b : SchemaKind) → Decidable (a = b)
  | .scalar k, b => match b with
    | .scalar k' => decidable_of_iff (k = k') ⟨fun h => h ▸ rfl, fun h => SchemaKind.scalar.inj h⟩
    | .array _ | .map _ | .record _ | .custom _ _ => isFalse nofun
  | .array items, b => match b with
    | .array items' => match items.decEq items' with
      | isTrue h => isTrue (h ▸ rfl)
      | isFalse h => isFalse fun heq => h (SchemaKind.array.inj heq)
    | .scalar _ | .map _ | .record _ | .custom _ _ => isFalse nofun
  | .map values, b => match b with
    | .map values' => match values.decEq values' with
      | isTrue h => isTrue (h ▸ rfl)
      | isFalse h => isFalse fun heq => h (SchemaKind.map.inj heq)
    | .scalar _ | .array _ | .record _ | .custom _ _ => isFalse nofun
  | .record fields, b => match b with
    | .record fields' => match fieldsDecEq fields fields' with
      | isTrue h => isTrue (h ▸ rfl)
      | isFalse h => isFalse fun heq => h (SchemaKind.record.inj heq)
    | .scalar _ | .array _ | .map _ | .custom _ _ => isFalse nofun
  | .custom typeId value, b => match b with
    | .custom typeId' value' => match decEq typeId typeId', value.decEq value' with
      | isTrue h, isTrue h' => isTrue (by rw [h, h'])
      | isFalse h, _ => isFalse fun heq => h (SchemaKind.custom.inj heq).1
      | _, isFalse h => isFalse fun heq => h (SchemaKind.custom.inj heq).2
    | .scalar _ | .array _ | .map _ | .record _ => isFalse nofun

def fieldsDecEq : (a b : List SchemaField) → Decidable (a = b)
  | [], [] => isTrue rfl
  | [], _ :: _ => isFalse nofun
  | _ :: _, [] => isFalse nofun
  | ⟨name, schema⟩ :: fields, ⟨name', schema'⟩ :: fields' =>
    match decEq name name', schema.decEq schema', fieldsDecEq fields fields' with
    | isTrue h, isTrue h', isTrue h'' => isTrue (by rw [h, h', h''])
    | isFalse h, _, _ => isFalse fun heq => h (SchemaField.mk.inj (List.cons.inj heq).1).1
    | _, isFalse h, _ => isFalse fun heq => h (SchemaField.mk.inj (List.cons.inj heq).1).2
    | _, _, isFalse h => isFalse fun heq => h (List.cons.inj heq).2

end

instance : DecidableEq SchemaNode := SchemaNode.decEq

instance : DecidableEq SchemaKind := SchemaKind.decEq

structure SchemaIr where
  version : UInt32
  root : SchemaNode
  deriving DecidableEq

def schemaIrVersion : UInt32 := 1

def SchemaIr.new (root : SchemaNode) : SchemaIr := ⟨schemaIrVersion, root⟩

inductive SchemaPathSegment
  | field (name : String)
  | arrayElement
  | mapValue
  | logicalValue
  deriving DecidableEq, Repr

abbrev SchemaPath := List SchemaPathSegment

end Maskura.BinaryIr
