import Maskura.Lib.Text
import Maskura.Persistence.Frame
import Mathlib.Data.List.DropRight

/-!
How the objects of a table are named. A table is a directory, its root, with
the documents, the pointer and the manifests under `metadata/`. Keys are taken
as sequences of characters. What a name says about the object is read off the
key alone.
-/

namespace Maskura.Iceberg

open Maskura.Lib Maskura.Lib.Text
open Maskura.Persistence (Bytes u64Bound)

/-- A key or another text, as its characters. -/
abbrev Key := List Char

inductive ErrorCode
  | unsupportedFormat | unsupportedTableOperation | limitInputBytes | limitOutputBytes | internal
  deriving DecidableEq, Repr

structure MaskuraError where
  code : ErrorCode
  message : String
  deriving DecidableEq, Repr

def unsupportedTableOperation (message : String) : MaskuraError :=
  ⟨.unsupportedTableOperation, message⟩

def unsupportedFormat (message : String) : MaskuraError := ⟨.unsupportedFormat, message⟩

/-- A text between quotes, for messages: the debug form of a text in which
nothing has to be escaped. -/
def quoted (text : Key) : String := "\"" ++ String.ofList text ++ "\""

/-- A table root: the bucket, and the key up to the table's own objects. -/
structure TableRoot where
  bucket : Key
  keyPrefix : Key
  deriving DecidableEq, Repr

def metadataDir : Key := "metadata/".toList

def metadataSuffix : Key := ".metadata.json".toList

def versionHintName : Key := "version-hint.text".toList

/-- `key.rsplit('/').next()`. -/
def baseName (key : Key) : Key := lastPart '/' key

/-! ### Numbers -/

/-- A nonempty run of digits below `2^64`. -/
def parseDigits (text : Key) : Option ℕ :=
  if text ≠ [] ∧ text.all Char.isDigit ∧ Nat.ofDigitChars 10 text 0 < u64Bound then
    some (Nat.ofDigitChars 10 text 0)
  else none

/-- `str::parse::<u64>`, which allows one plus sign. -/
def parseU64 : Key → Option ℕ
  | '+' :: rest => parseDigits rest
  | text => parseDigits text

/-! ### Documents and roots -/

def metadataFileVersion (key : Key) : Option ℕ := do
  let rest ← (baseName key).dropSuffix? metadataSuffix
  let (version, token) ← splitOnce '-' rest
  guard (version ≠ [] ∧ version.all Char.isDigit ∧ token ≠ [])
  parseU64 version

def tableRootForMetadataKey (bucket key : Key) : Option TableRoot := do
  -- The text `metadata/` is looked for anywhere, also behind other letters.
  let (keyPrefix, rest) ← rsplitAt metadataDir key
  guard (rest ≠ [] ∧ '/' ∉ rest)
  return ⟨bucket, keyPrefix⟩

theorem tableRootForMetadataKey_eq_some {bucket key : Key} {root : TableRoot}
    (h : tableRootForMetadataKey bucket key = some root) :
    root.bucket = bucket ∧ root.keyPrefix <+: key := by
  obtain ⟨⟨keyPrefix, rest⟩, hcut, hrest⟩ := Option.bind_eq_some_iff.mp h
  obtain ⟨-, -, hroot⟩ := Option.bind_eq_some_iff.mp hrest
  obtain rfl := Option.some.inj hroot
  exact ⟨rfl, metadataDir ++ rest, by rw [rsplitAt_eq_some hcut, List.append_assoc]⟩

/-! ### Shapes -/

structure KeyShape where
  metadataDir : Bool := false
  versionHint : Bool := false
  metadataJsonName : Bool := false
  deltaLogDir : Bool := false
  hivePartitionSegment : Bool := false
  tableFormatExtension : Bool := false
  deriving DecidableEq, Repr

def tableFormatExtensions : List Key := ["avro".toList, "orc".toList, "parquet".toList]

/-- A directory of the form `field=value`. -/
def isHivePartition (segment : Key) : Bool := '=' ∈ segment ∧ segment.head? ≠ some '='

def keyShape (key : Key) : KeyShape :=
  let segments := key.splitOn '/'
  let name := segments.getLast?.getD []
  let extension := (rsplitOnce '.' name).map fun (_, extension) => extension.map Char.toLower
  let metadataDir := "metadata".toList ∈ segments
  { metadataDir := metadataDir
    versionHint := name = versionHintName
    metadataJsonName :=
      metadataDir ∧ metadataSuffix <:+ name ∧ (metadataFileVersion key).isSome
    deltaLogDir := "_delta_log".toList ∈ segments
    hivePartitionSegment := segments.dropLast.any isHivePartition
    tableFormatExtension := extension.any (tableFormatExtensions.contains ·) }

example : keyShape "t/metadata/00003-abc.metadata.json".toList =
    { metadataDir := true, metadataJsonName := true } := by decide

example : keyShape "t/data/category=alpha/00000-0-x.parquet".toList =
    { hivePartitionSegment := true, tableFormatExtension := true } := by decide

end Maskura.Iceberg
