import Mathlib.Data.List.Nodup
import Maskura.Policy.Canonical

/-!
The deterministic encryption filter. The fields of a record that the header names
are encrypted in place, one after the other.

AES-SIV with its key and base64 are one function from texts to texts. Of the
JSON library it is known that a record which it read is read again with its texts
when it is printed with other texts in it. A number may be read as a neighbour of
the number that was printed.
-/

namespace Maskura.Redaction.Deterministic

open Maskura.Lib Maskura.Lib.Utf8
open Maskura.Persistence (Bytes)
open Maskura.Policy (trim)

abbrev Text := List Char

/-- A value of the record. The filter looks only at strings. -/
inductive Value (α : Type)
  | string (text : Text)
  | other (value : α)
  deriving DecidableEq

/-- A JSON object. -/
structure Object (α : Type) where
  entries : List (Text × Value α)
  distinct : (entries.map Prod.fst).Nodup

inductive Document (α : Type)
  | object (fields : Object α)
  | other (value : α)

variable {α : Type}

def Value.text : Value α → Option Text
  | .string text => some text
  | .other _ => none

/-- The value with its text encrypted. -/
def Value.encrypt (encryptValue : Text → Text) : Value α → Value α
  | .string text => .string (encryptValue text)
  | .other value => .other value

namespace Object

@[ext] theorem ext {a b : Object α} (h : a.entries = b.entries) : a = b := by
  cases a
  cases b
  cases h
  rfl

def get (fields : Object α) (name : Text) : Option (Value α) :=
  (fields.entries.find? (·.1 = name)).map Prod.snd

/-- The text of a field that is a string. -/
def text (fields : Object α) (name : Text) : Option Text := (fields.get name).bind Value.text

/-- A change of the values; the names stay. -/
def change (fields : Object α) (f : Text → Value α → Value α) : Object α where
  entries := fields.entries.map fun entry => (entry.1, f entry.1 entry.2)
  distinct := by
    rw [List.map_map]
    exact fields.distinct

/-- `*value = …` for the value of `name`. -/
def set (fields : Object α) (name : Text) (value : Value α) : Object α :=
  fields.change fun key old => if key = name then value else old

theorem get_eq_some {fields : Object α} {name : Text} {value : Value α} :
    fields.get name = some value ↔ (name, value) ∈ fields.entries := by
  constructor
  · intro h
    obtain ⟨⟨key, found⟩, hfind, rfl⟩ := Option.map_eq_some_iff.mp h
    obtain rfl : key = name := by simpa using List.find?_some hfind
    exact List.mem_of_find?_eq_some hfind
  · intro hmem
    have hfound : (fields.entries.find? (·.1 = name)).isSome :=
      List.find?_isSome.mpr ⟨_, hmem, by simp⟩
    obtain ⟨⟨key, found⟩, hfind⟩ := Option.isSome_iff_exists.mp hfound
    have hkey : key = name := by simpa using List.find?_some hfind
    have heq := List.inj_on_of_nodup_map fields.distinct (List.mem_of_find?_eq_some hfind) hmem hkey
    rw [get, hfind, heq]
    rfl

theorem get_change {fields : Object α} {f : Text → Value α → Value α} {name : Text} :
    (fields.change f).get name = (fields.get name).map (f name) := by
  unfold get change
  rw [List.find?_map, Option.map_map, Option.map_map]
  refine Option.map_congr fun entry hentry => ?_
  have hkey : entry.1 = name := by simpa using List.find?_some hentry
  simp [hkey]

theorem text_change {fields : Object α} {f : Text → Text → Text} {name : Text} :
    (fields.change fun name => Value.encrypt (f name)).text name =
      (fields.text name).map (f name) := by
  rw [text, text, get_change]
  cases fields.get name with
  | none => rfl
  | some value => cases value <;> rfl

/-- Changes that agree on the fields there are. -/
theorem change_congr {fields : Object α} {f g : Text → Value α → Value α}
    (h : ∀ name value, fields.get name = some value → f name value = g name value) :
    fields.change f = fields.change g := by
  refine Object.ext (List.map_congr_left fun entry hentry => ?_)
  rw [h entry.1 entry.2 (get_eq_some.mpr hentry)]

end Object

/-- `serde_json`. -/
structure Json (α : Type) where
  fromStr : Bytes → Option (Document α)
  toVec : Object α → Bytes
  fromStr_toVec : ∀ payload fields (f : Text → Text → Text),
    fromStr payload = some (.object fields) →
    ∃ again, fromStr (toVec (fields.change fun name => Value.encrypt (f name))) =
      some (.object again) ∧ ∀ name, again.text name = (fields.text name).map (f name)

structure Context where
  stableKey : Option Bytes
  stableFields : Option Text

/-- What `begin` leaves in `KEY` and `FIELDS`. -/
structure State where
  key : Option Bytes
  fields : List Text

/-- The names in the header. -/
def headerFields (header : Text) : List Text :=
  ((header.splitOn ',').map trim).filter (· ≠ [])

def StableEncrypt.begin (context : Context) : State where
  key := match context.stableKey with
    | some bytes => if 64 ≤ bytes.length then some (bytes.take 64) else none
    | none => none
  fields := headerFields (context.stableFields.getD [])

/-- One round of the loop: the object, and whether it was changed. -/
def encryptField (encryptValue : Text → Text) (state : Object α × Bool) (field : Text) :
    Object α × Bool :=
  match state.1.get field with
  | some (.string text) => (state.1.set field (.string (encryptValue text)), true)
  | _ => state

/-- `transform_record`; `encryptValue` is `stable_encrypt_value` for each key. -/
def transformRecord (J : Json α) (encryptValue : Bytes → Text → Text) (state : State)
    (payload : Bytes) : Except String Bytes :=
  match state.key with
  | none => .ok payload
  | some key =>
      if state.fields.isEmpty then .ok payload
      else if isUtf8 payload then
        match J.fromStr payload with
        | some (.object fields) =>
            let result := state.fields.foldl (encryptField (encryptValue key)) (fields, false)
            if result.2 then .ok (J.toVec result.1) else .ok payload
        | _ => .ok payload
      else .error "invalid utf-8"

/-- The object with the tagged strings encrypted once. -/
def encryptTagged (encryptValue : Text → Text) (tagged : List Text) (fields : Object α) : Object α :=
  fields.change fun name value => if tagged.contains name then value.encrypt encryptValue else value

/-- The tagged fields have a string among them. -/
def hasTagged (tagged : List Text) (fields : Object α) : Bool :=
  tagged.any fun name => (fields.text name).isSome

/-! ### The loop -/

section Loop

variable {encryptValue : Text → Text}

theorem encrypt_encrypt (f g : Text → Text) (value : Value α) :
    (value.encrypt g).encrypt f = value.encrypt (f ∘ g) := by
  cases value <;> rfl

@[simp] theorem encrypt_id (value : Value α) : value.encrypt id = value := by cases value <;> rfl

/-- A round encrypts the field it is for, and no other. -/
theorem encryptField_eq (state : Object α × Bool) (field : Text) :
    encryptField encryptValue state field =
      (state.1.change fun name => Value.encrypt encryptValue^[[field].count name],
        state.2 || (state.1.text field).isSome) := by
  obtain ⟨fields, changed⟩ := state
  rw [encryptField]
  split
  next text htext =>
    refine Prod.ext ?_ (by simp [Object.text, htext, Value.text])
    dsimp only [Object.set]
    refine Object.change_congr fun name value hvalue => ?_
    by_cases hname : name = field
    · subst hname
      obtain rfl : Value.string text = value := Option.some.inj (htext.symm.trans hvalue)
      simp [Value.encrypt]
    · simp [hname, Ne.symm hname]
  next hnone =>
    have htext : fields.text field = none := by
      rw [Object.text]
      cases hget : fields.get field with
      | none => rfl
      | some value =>
          cases value with
          | string text => exact absurd hget (hnone text)
          | other value => rfl
    refine Prod.ext ?_ (by simp [htext])
    have hself : fields = fields.change fun _ value => value := Object.ext (List.map_id' _).symm
    dsimp only
    conv_lhs => rw [hself]
    refine Object.change_congr fun name value hvalue => ?_
    by_cases hname : name = field
    · subst hname
      -- the field is there, so it is no string
      cases value with
      | string text => exact absurd hvalue (hnone text)
      | other value => rfl
    · simp [Ne.symm hname]

/-- Each entry is encrypted as often as its name is in the list. -/
theorem foldl_encryptField (names : List Text) (state : Object α × Bool) :
    names.foldl (encryptField encryptValue) state =
      (state.1.change fun name => Value.encrypt encryptValue^[names.count name],
        state.2 || hasTagged names state.1) := by
  induction names generalizing state with
  | nil => exact Prod.ext (Object.ext (by simp [Object.change])) (by simp [hasTagged])
  | cons field names ih =>
      rw [List.foldl_cons, ih, encryptField_eq]
      refine Prod.ext (Object.ext ?_) ?_
      · simp only [Object.change, List.map_map]
        refine List.map_congr_left fun entry _ => ?_
        rw [Function.comp_apply, encrypt_encrypt, ← Function.iterate_add, Nat.add_comm,
          ← List.count_append]
        rfl
      · simp [hasTagged, Object.text_change, Bool.or_assoc]

end Loop

/-- What `transform_record` does to an object when there is a key. -/
theorem transformRecord_eq {J : Json α} {encryptValue : Bytes → Text → Text} {key payload : Bytes}
    {names : List Text} {fields : Object α} (hutf8 : isUtf8 payload = true)
    (hrecord : J.fromStr payload = some (.object fields)) :
    transformRecord J encryptValue ⟨some key, names⟩ payload =
      .ok (if hasTagged names fields then
        J.toVec (fields.change fun name => Value.encrypt (encryptValue key)^[names.count name])
      else payload) := by
  cases names with
  | nil => rfl
  | cons name names =>
      simp only [transformRecord, hutf8, hrecord, List.isEmpty_cons, if_true, Bool.false_eq_true,
        if_false, foldl_encryptField, Bool.false_or]
      split <;> rfl

/-- No name that the header repeats is a string field of the record. -/
def NamedOnce (header : Text) (fields : Object α) : Prop :=
  ∀ name, 2 ≤ (headerFields header).count name → fields.text name = none

/-- The answer is the record with its tagged strings encrypted once, printed again; a record
without tagged strings is passed on as it is. -/
def EncryptsOnce (J : Json α) (encryptValue : Bytes → Text → Text) (key : Bytes) (header : Text)
    (payload : Bytes) (fields : Object α) : Prop :=
  transformRecord J encryptValue (StableEncrypt.begin ⟨some key, some header⟩) payload =
    .ok (if hasTagged (headerFields header) fields then
      J.toVec (encryptTagged (encryptValue (key.take 64)) (headerFields header) fields)
    else payload)

/-- The record that the answer is read as. -/
def Answers (J : Json α) (encryptValue : Bytes → Text → Text) (key : Bytes) (header : Text)
    (payload : Bytes) (result : Object α) : Prop :=
  ∃ out, transformRecord J encryptValue (StableEncrypt.begin ⟨some key, some header⟩) payload =
    .ok out ∧ J.fromStr out = some (.object result)

section Header

variable {J : Json α} {encryptValue : Bytes → Text → Text} {key payload : Bytes} {header : Text}
  {fields : Object α}

theorem begin_eq (hkey : 64 ≤ key.length) (header : Text) :
    StableEncrypt.begin ⟨some key, some header⟩ = ⟨some (key.take 64), headerFields header⟩ := by
  simp [StableEncrypt.begin, hkey]

theorem encryptTagged_eq (encryptValue : Text → Text) (tagged : List Text) :
    encryptTagged encryptValue tagged fields =
      fields.change fun name => Value.encrypt (if tagged.contains name then encryptValue else id) := by
  refine Object.change_congr fun name value _ => ?_
  split
  · rfl
  · exact (encrypt_id value).symm

theorem change_eq_encryptTagged (h : NamedOnce header fields) (encryptValue : Text → Text) :
    (fields.change fun name => Value.encrypt encryptValue^[(headerFields header).count name]) =
      encryptTagged encryptValue (headerFields header) fields := by
  refine Object.change_congr fun name value hvalue => ?_
  by_cases htagged : name ∈ headerFields header
  · rw [if_pos (List.contains_iff_mem.mpr htagged)]
    cases value with
    | other value => rfl
    | string text =>
        have hcount : (headerFields header).count name < 2 := Nat.not_le.mp fun hle => by
          have htext := h name hle
          simp [Object.text, hvalue, Value.text] at htext
        have hpos := List.count_pos_iff.mpr htagged
        rw [show (headerFields header).count name = 1 by omega, Function.iterate_one]
  · rw [if_neg (mt List.contains_iff_mem.mp htagged), List.count_eq_zero.mpr htagged,
      Function.iterate_zero, encrypt_id]

/-- What the tagged fields of the answer are. -/
theorem answers_of_namedOnce (hkey : 64 ≤ key.length) (hutf8 : isUtf8 payload = true)
    (hrecord : J.fromStr payload = some (.object fields)) (h : NamedOnce header fields) :
    ∃ result, Answers J encryptValue key header payload result ∧ ∀ name ∈ headerFields header,
      result.text name = (fields.text name).map (encryptValue (key.take 64)) := by
  unfold Answers
  rw [begin_eq hkey, transformRecord_eq hutf8 hrecord, change_eq_encryptTagged h,
    encryptTagged_eq]
  split
  next htagged =>
    obtain ⟨again, hread, htext⟩ := J.fromStr_toVec payload fields _ hrecord
    refine ⟨again, ⟨_, rfl, hread⟩, fun name hname => ?_⟩
    rw [htext, if_pos (List.contains_iff_mem.mpr hname)]
  next htagged =>
    refine ⟨fields, ⟨_, rfl, hrecord⟩, fun name hname => ?_⟩
    have hnone := List.any_eq_false.mp (Bool.not_eq_true _ ▸ htagged) name hname
    rw [Option.not_isSome_iff_eq_none.mp hnone]
    rfl

end Header

/-- An injective function that makes every text longer. -/
def lengthen (text : Text) : Text := text ++ ['=']

theorem lengthen_injective : Function.Injective lengthen := fun _ _ h => List.append_cancel_right h

theorem length_iterate_lengthen (n : ℕ) (text : Text) :
    (lengthen^[n] text).length = text.length + n := by
  induction n generalizing text with
  | zero => rfl
  | succ n ih =>
      rw [Function.iterate_succ_apply, ih, lengthen, List.length_append, List.length_singleton]
      omega

/-- The filter encrypts each tagged string once, whatever the injective
encryption is, exactly when no string field is named twice. Then headers with
the same names give the same answer, and two records agree in a tagged text
after the encryption exactly when they did before. -/
theorem encrypts_once_iff (J : Json α) (header : Text) (payload : Bytes) (fields : Object α)
    (hutf8 : isUtf8 payload = true) (hrecord : J.fromStr payload = some (.object fields)) :
    ((∀ (encryptValue : Bytes → Text → Text) (key : Bytes), 64 ≤ key.length →
        (∀ k, Function.Injective (encryptValue k)) →
        EncryptsOnce J encryptValue key header payload fields) ↔ NamedOnce header fields) ∧
    (NamedOnce header fields →
      (∀ header', NamedOnce header' fields →
        (∀ name, name ∈ headerFields header ↔ name ∈ headerFields header') →
        ∀ (encryptValue : Bytes → Text → Text) (key : Bytes),
          transformRecord J encryptValue (StableEncrypt.begin ⟨some key, some header⟩) payload =
            transformRecord J encryptValue (StableEncrypt.begin ⟨some key, some header'⟩) payload) ∧
      ∀ (encryptValue : Bytes → Text → Text) (key : Bytes), 64 ≤ key.length →
        (∀ k, Function.Injective (encryptValue k)) →
        ∀ (payload' : Bytes) (fields' : Object α), isUtf8 payload' = true →
          J.fromStr payload' = some (.object fields') → NamedOnce header fields' →
          ∃ result result', Answers J encryptValue key header payload result ∧
            Answers J encryptValue key header payload' result' ∧
            ∀ name ∈ headerFields header,
              result.text name = result'.text name ↔ fields.text name = fields'.text name) := by
  refine ⟨⟨fun h name hcount => ?_, fun h encryptValue key hkey _ => ?_⟩, fun h => ⟨?_, ?_⟩⟩
  · -- a function that lengthens tells one encryption from more
    let key : Bytes := List.replicate 64 0
    have hkey : 64 ≤ key.length := by simp [key]
    have honce := h (fun _ => lengthen) key hkey fun _ => lengthen_injective
    rw [EncryptsOnce, begin_eq hkey, transformRecord_eq hutf8 hrecord] at honce
    have hname : name ∈ headerFields header := List.count_pos_iff.mp (by omega)
    by_contra hsome
    obtain ⟨text, htext⟩ := Option.ne_none_iff_exists'.mp hsome
    have htagged : hasTagged (headerFields header) fields = true :=
      List.any_eq_true.mpr ⟨name, hname, by rw [htext]; rfl⟩
    rw [if_pos htagged, if_pos htagged, encryptTagged_eq, Except.ok.injEq] at honce
    obtain ⟨again, hread, hmany⟩ := J.fromStr_toVec payload fields _ hrecord
    obtain ⟨again', hread', hone⟩ := J.fromStr_toVec payload fields _ hrecord
    rw [honce, hread'] at hread
    obtain rfl := Document.object.inj (Option.some.inj hread)
    have hlength := congrArg (Option.map List.length) ((hmany name).symm.trans (hone name))
    simp only [htext, if_pos (List.contains_iff_mem.mpr hname), Option.map_some,
      length_iterate_lengthen, lengthen, List.length_append, List.length_singleton,
      Option.some.injEq] at hlength
    omega
  · rw [EncryptsOnce, begin_eq hkey, transformRecord_eq hutf8 hrecord, change_eq_encryptTagged h]
  · intro header' h' hnames encryptValue key
    by_cases hkey : 64 ≤ key.length
    · rw [begin_eq hkey, begin_eq hkey, transformRecord_eq hutf8 hrecord,
        transformRecord_eq hutf8 hrecord, change_eq_encryptTagged h, change_eq_encryptTagged h']
      have htagged : hasTagged (headerFields header) fields = hasTagged (headerFields header') fields := by
        rw [Bool.eq_iff_iff, hasTagged, hasTagged, List.any_eq_true, List.any_eq_true]
        simp only [hnames]
      simp only [htagged, encryptTagged, List.contains_iff_mem, hnames]
    · -- without a key nothing happens
      simp [StableEncrypt.begin, hkey, transformRecord]
  · intro encryptValue key hkey hinjective payload' fields' hutf8' hrecord' h'
    obtain ⟨result, hanswer, htext⟩ := answers_of_namedOnce hkey hutf8 hrecord h
    obtain ⟨result', hanswer', htext'⟩ := answers_of_namedOnce hkey hutf8' hrecord' h'
    refine ⟨result, result', hanswer, hanswer', fun name hname => ?_⟩
    rw [htext name hname, htext' name hname]
    exact (Option.map_injective (hinjective _)).eq_iff

/-- The record with the one field `id`. -/
def idRecord (text : Text) : Object Empty := ⟨[(['i', 'd'], .string text)], by simp⟩

/-- `{"id":"…"}`, as it is printed where the text needs no escapes. -/
def printId (text : Text) : Bytes :=
  (['{', '"', 'i', 'd', '"', ':', '"'] ++ text ++ ['"', '}']).flatMap String.utf8EncodeChar

theorem printId_injective : Function.Injective printId := fun _ _ h =>
  List.append_cancel_left (List.append_cancel_right (utf8_injective h))

/-- A library for records with that field. -/
noncomputable def sampleJson : Json Empty where
  fromStr bytes := (Function.partialInv printId bytes).map fun text => .object (idRecord text)
  toVec fields := printId ((fields.text ['i', 'd']).getD [])
  fromStr_toVec payload fields f h := by
    obtain ⟨text, -, heq⟩ := Option.map_eq_some_iff.mp h
    obtain rfl := Document.object.inj heq
    refine ⟨idRecord (f ['i', 'd'] text), ?_, fun name => ?_⟩
    · rw [Object.text_change]
      exact congrArg _ (Function.partialInv_left printId_injective _)
    · rw [← Object.text_change]
      rfl

theorem sampleJson_printId (text : Text) :
    sampleJson.fromStr (printId text) = some (.object (idRecord text)) :=
  congrArg (Option.map fun text => Document.object (idRecord text))
    (Function.partialInv_left printId_injective text)

/-- A header that names the field once, with blanks and an empty entry. -/
theorem encrypts_once_spaced_header :
    isUtf8 (printId ['7']) = true ∧
      EncryptsOnce sampleJson (fun _ => lengthen) (List.replicate 64 0) " id ,".toList
        (printId ['7']) (idRecord ['7']) := by
  have hutf8 : isUtf8 (printId ['7']) = true := by decide +kernel
  have honce : NamedOnce " id ,".toList (idRecord ['7']) := by
    have hnames : headerFields " id ,".toList = [['i', 'd']] := by decide +kernel
    intro name hcount
    have := hnames ▸ hcount
    have := @List.count_le_length _ _ name [['i', 'd']]
    simp only [List.length_singleton] at this
    omega
  exact ⟨hutf8, (encrypts_once_iff sampleJson _ _ _ hutf8 (sampleJson_printId _)).1.mpr honce _ _
    (by simp) fun _ => lengthen_injective⟩

/-- Named twice, the field is encrypted twice. -/
theorem encrypted_twice_for_repeated_name :
    ¬ EncryptsOnce sampleJson (fun _ => lengthen) (List.replicate 64 0) "id,id".toList
      (printId ['7']) (idRecord ['7']) := by
  have hnames : headerFields "id,id".toList = [['i', 'd'], ['i', 'd']] := by decide +kernel
  rw [EncryptsOnce, begin_eq (by simp), hnames, transformRecord_eq (by decide +kernel)
    (sampleJson_printId _)]
  intro h
  have htext := printId_injective (Except.ok.inj h)
  revert htext
  decide +kernel

end Maskura.Redaction.Deterministic
