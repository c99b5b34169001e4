import Maskura.Lib.Fold
import Maskura.Policy.Canonical

/-!
References to pipeline components: a source, a name and a version, written with
colons between them. A source is a URL and has colons of its own; a guess decides
whether the last part is a version.

The parsers of URLs and of version requirements are given. Of URLs it is assumed
that what the parser wrote it reads as the same URL, that it writes the scheme in
front, and what becomes of a URL that loses its last slash.
-/

namespace Maskura.Policy

open Maskura.Lib Maskura.Lib.Text

abbrev Text := List Char

/-- A parsed URL: as it is written, with its scheme and its host. -/
@[ext]
structure RefUrl where
  serialized : Text
  scheme : Text
  hostStr : Option Text
  deriving DecidableEq

def fileScheme : Text := "file".toList

def httpsScheme : Text := "https".toList

def schemeEnd : Text := "://".toList

/-- `file:///`. -/
def fileRoot : Text := fileScheme ++ schemeEnd ++ ['/']

/-- The schemes that are supported. -/
def RefUrl.Supported (url : RefUrl) : Prop := url.scheme = fileScheme ∨ url.scheme = httpsScheme

instance (url : RefUrl) : Decidable url.Supported := instDecidableOr

/-- The libraries that reading a reference calls, for requirements of type `ρ`. -/
structure RefLibraries (ρ : Type) where
  parseUrl : Text → Except String RefUrl
  /-- `semver::VersionReq::parse`. -/
  parseReq : Text → Except String ρ
  /-- What `\x7b:?\x7d` prints. -/
  debug : Text → String
  /-- The parser reads what it wrote as the same URL. -/
  parseUrl_serialized : ∀ {text url}, parseUrl text = .ok url → parseUrl url.serialized = .ok url
  serialized_scheme : ∀ {text url}, parseUrl text = .ok url → url.Supported →
    url.scheme ++ schemeEnd <+: url.serialized
  /-- Without its last slash a URL is read as it stands, or gets the slash back
  when nothing is left of its path. -/
  parseUrl_pop : ∀ {text url rest}, parseUrl text = .ok url → url.Supported →
    url.serialized = rest ++ ['/'] → url.serialized ≠ fileRoot →
    ∃ popped, parseUrl rest = .ok popped ∧ popped.scheme = url.scheme ∧
      popped.hostStr = url.hostStr ∧
      (popped.serialized = rest ∨
        popped.serialized = url.serialized ∧ rest.getLast? ≠ some '/')

structure PluginRef where
  source : Option Text
  name : Text
  version : Option Text
  deriving DecidableEq

namespace PluginRef

/-- `Display`. -/
def display (reference : PluginRef) : Text :=
  (reference.source.elim [] fun source => source ++ [':']) ++ reference.name ++
    (reference.version.elim [] fun version => ':' :: version)

end PluginRef

/-- `str::len`. -/
def byteLength (text : Text) : ℕ := (text.map Char.utf8Size).sum

def maxNameLen : ℕ := 128

def digestLen : ℕ := 64

def isAsciiHexDigit (c : Char) : Bool :=
  c.isDigit || c ∈ ['a', 'b', 'c', 'd', 'e', 'f', 'A', 'B', 'C', 'D', 'E', 'F']

def isDigest (name : Text) : Bool := byteLength name = digestLen ∧ name.all isAsciiHexDigit

/-- `[A-Za-z0-9_-]`. -/
def isNameChar (c : Char) : Bool := c.isAlphanum || c = '-' || c = '_'

def looksLikeVersion (candidate : Text) : Bool :=
  if candidate = [] then false
  else if candidate = ['*'] then true
  else if candidate.any Char.isDigit = false then false
  else if candidate.all Char.isDigit then true
  else candidate.any fun c => c ∈ ['.', '*', '^', '~', '<', '>', '=']

def splitScheme (input : Text) : Option (Text × Text) := do
  let (scheme, rest) ← splitAtFirst schemeEnd input
  match scheme with
  | [] => none
  | c :: cs =>
      if c.isAlpha = false then none
      else if cs.all (fun c => c.isAlphanum || c = '+' || c = '-' || c = '.') = false then none
      else some (scheme, rest)

section Parse

variable {ρ : Type} (L : RefLibraries ρ)

/-- `format!("\x7bscheme\x7d://\x7b\x7d", segments.join(":"))`. -/
def sourceText (scheme : Text) (segments : List Text) : Text :=
  scheme ++ schemeEnd ++ [':'].intercalate segments

@[simp] theorem sourceText_singleton (scheme segment : Text) :
    sourceText scheme [segment] = scheme ++ schemeEnd ++ segment := by
  simp [sourceText, List.intercalate]

/-- The parts of a reference as they are written. -/
structure RefParts where
  source : Option Text
  name : Text
  version : Option Text
  deriving DecidableEq

def parseQualified (scheme tail input : Text) : Except ConfigError RefParts :=
  let segments := tail.splitOn ':'
  match segments.reverse with
  | [] | [_] =>
      .error (.invalid ("plugin reference " ++ L.debug input ++ " is missing a plugin name"))
  | [name, before] => .ok ⟨some (sourceText scheme [before]), name, none⟩
  | candidateVersion :: candidateName :: before =>
      if looksLikeVersion candidateVersion then
        .ok ⟨some (sourceText scheme before.reverse), candidateName, some candidateVersion⟩
      else .ok ⟨some (sourceText scheme (candidateName :: before).reverse), candidateVersion, none⟩

def parseUnqualified (input : Text) : Except ConfigError RefParts :=
  match input.splitOn ':' with
  | [name] => .ok ⟨none, name, none⟩
  | [name, version] =>
      if looksLikeVersion version then .ok ⟨none, name, some version⟩
      else .error (.invalid ("plugin reference " ++ L.debug input ++
        " is ambiguous; qualify the source with a URI"))
  | _ => .error (.invalid ("plugin reference " ++ L.debug input ++
      " has multiple version segments; qualify the source with a URI"))

def validateName (name : Text) : Except ConfigError Unit := do
  rejectIf (name = [] ∨ maxNameLen < byteLength name)
    (.invalid ("plugin name " ++ L.debug name ++ " must be 1..=128 characters"))
  rejectIf (isDigest name = false ∧ name.all isNameChar = false)
    (.invalid ("plugin name " ++ L.debug name ++
      " must match [A-Za-z0-9_-] or be a 64-hex digest"))

/-- The URL of a source, when it is one that may be used. -/
def sourceUrl (source : Text) : Except ConfigError RefUrl := do
  let url ← (L.parseUrl source).mapError fun error =>
    .invalid ("plugin source " ++ L.debug source ++ " is not an absolute URI: " ++ error)
  rejectIf (¬ url.Supported)
    (.invalid ("plugin source " ++ L.debug source ++ " uses unsupported scheme " ++
      L.debug url.scheme ++ "; expected file or https"))
  rejectIf (url.scheme = fileScheme ∧ ∃ host ∈ url.hostStr, host ≠ [])
    (.invalid ("plugin source " ++ L.debug source ++
      " must use an absolute file:/// URI without a host"))
  rejectIf (url.scheme = httpsScheme ∧ url.hostStr = none)
    (.invalid ("plugin source " ++ L.debug source ++ " must include a host"))
  return url

/-- Without the last slash, the root of the files apart. -/
def dropLastSlash (canonical : Text) : Text :=
  if canonical.getLast? = some '/' ∧ canonical ≠ fileRoot then canonical.dropLast else canonical

def canonicalizeSource (source : Text) : Except ConfigError Text := do
  let url ← sourceUrl L source
  return dropLastSlash url.serialized

/-- One `replace(".*.*", ".*")`. -/
def replaceStars : Text → Text
  | '.' :: '*' :: '.' :: '*' :: rest => '.' :: '*' :: replaceStars rest
  | c :: rest => c :: replaceStars rest
  | [] => []

/-- The loop of `parse_version_req`; every round shortens the text. -/
def collapseStars : ℕ → Text → Text
  | 0, text => text
  | rounds + 1, text =>
      if ['.', '*', '.', '*'] <:+: text then collapseStars rounds (replaceStars text) else text

def normalizeReq (version : Text) : Text :=
  let starred := version.map fun c => if c ∈ ['x', 'X', 'y', 'Y'] then '*' else c
  collapseStars starred.length starred

def parseVersionReq (version : Text) : Except ConfigError ρ :=
  match L.parseReq version with
  | .ok requirement => .ok requirement
  | .error _ => (L.parseReq (normalizeReq version)).mapError fun error =>
      .invalid ("version requirement " ++ L.debug version ++ " is invalid: " ++ error)

/-- The source, the name and the version in a text without blanks around it. -/
def refParts (input : Text) : Except ConfigError RefParts :=
  match splitScheme input with
  | some (scheme, tail) => parseQualified L scheme tail input
  | none => parseUnqualified L input

/-- `source.map(canonicalize_source).transpose()`. -/
def canonicalSource : Option Text → Except ConfigError (Option Text)
  | some source => do
      let canonical ← canonicalizeSource L source
      return some canonical
  | none => return none

def checkVersion : Option Text → Except ConfigError Unit
  | some version => do
      let _ ← parseVersionReq L version
      return ()
  | none => return ()

/-- The checks of the parts. The source becomes the URL it stands for. -/
def checkParts (parts : RefParts) : Except ConfigError PluginRef := do
  validateName L parts.name
  let source ← canonicalSource L parts.source
  checkVersion L parts.version
  return ⟨source, parts.name, parts.version⟩

def PluginRef.parse (input : Text) : Except ConfigError PluginRef := do
  let input := trim input
  rejectIf (input = []) (.invalid "plugin reference is empty")
  let parts ← refParts L input
  checkParts L parts

end Parse

/-! ### Blanks -/

theorem trim_eq_self {text : Text} (hhead : ∀ c ∈ text.head?, isWhitespace c = false)
    (hlast : ∀ c ∈ text.getLast?, isWhitespace c = false) : trim text = text := by
  have hfront : text.dropWhile isWhitespace = text := by
    cases text with
    | nil => rfl
    | cons c text => simp [hhead c rfl]
  rw [trim, hfront]
  refine List.rdropWhile_eq_self_iff.mpr fun hne => ?_
  simp [hlast _ (List.getLast?_eq_some_getLast hne)]

theorem head_trim {text : Text} {c : Char} (h : c ∈ (trim text).head?) : isWhitespace c = false := by
  obtain ⟨back, hback⟩ : trim text <+: text.dropWhile isWhitespace := List.rdropWhile_prefix _ _
  have hhead : c ∈ (text.dropWhile isWhitespace).head? := by
    rw [← hback, List.head?_append, Option.mem_def.mp h]
    rfl
  have := List.head?_dropWhile_not isWhitespace text
  rw [Option.mem_def] at hhead
  rw [hhead] at this
  simpa using this

theorem last_trim {text : Text} {c : Char} (h : c ∈ (trim text).getLast?) : isWhitespace c = false := by
  have hne : trim text ≠ [] := by
    rintro hnil
    simp [hnil] at h
  have hlast := List.rdropWhile_last_not isWhitespace (text.dropWhile isWhitespace) hne
  have heq : c = (trim text).getLast hne :=
    Option.some.inj (h.symm.trans (List.getLast?_eq_some_getLast hne))
  rw [heq]
  exact Bool.eq_false_iff.mpr hlast

theorem trim_trim (text : Text) : trim (trim text) = trim text :=
  trim_eq_self (fun _ h => head_trim h) fun _ h => last_trim h

/-! ### Names and sources -/

theorem isNameChar_of_hex {c : Char} (h : isAsciiHexDigit c = true) : isNameChar c = true := by
  simp only [isAsciiHexDigit, Bool.or_eq_true, decide_eq_true_eq] at h
  obtain h | h := h
  · simp [isNameChar, Char.isAlphanum, h]
  · simp only [List.mem_cons, List.not_mem_nil, or_false] at h
    obtain rfl | rfl | rfl | rfl | rfl | rfl | rfl | rfl | rfl | rfl | rfl | rfl := h <;> decide

/-- A name is not empty and has no colon and no blank. -/
structure IsName (name : Text) : Prop where
  ne_nil : name ≠ []
  chars : ∀ c ∈ name, isNameChar c = true

theorem IsName.not_mem_colon {name : Text} (h : IsName name) : ':' ∉ name := fun hmem =>
  absurd (h.chars ':' hmem) (by decide)

theorem not_isWhitespace_of_isNameChar {c : Char} (h : isNameChar c = true) :
    isWhitespace c = false := by
  have hrange : 33 ≤ c.toNat ∧ c.toNat ≤ 126 := by
    simp only [isNameChar, Char.isAlphanum, Bool.or_eq_true, decide_eq_true_eq] at h
    obtain ((h | h) | rfl) | rfl := h
    · change (decide (65 ≤ c.val ∧ c.val ≤ 90) ||
        decide (97 ≤ c.val) && decide (c.val ≤ 122)) = true at h
      simp only [Bool.or_eq_true, Bool.and_eq_true, decide_eq_true_eq, UInt32.le_iff_toNat_le] at h
      change (65 ≤ c.toNat ∧ c.toNat ≤ 90) ∨ (97 ≤ c.toNat ∧ c.toNat ≤ 122) at h
      omega
    · obtain ⟨hlow, hhigh⟩ := Char.isDigit_iff_toNat.mp h
      change 48 ≤ c.toNat at hlow
      change c.toNat ≤ 57 at hhigh
      omega
    · decide
    · decide
  rw [isWhitespace, decide_eq_false_iff_not]
  simp only [UInt32.le_iff_toNat_le, ← UInt32.toNat_inj]
  change ¬ ((9 ≤ c.toNat ∧ c.toNat ≤ 13) ∨ c.toNat = 32 ∨ c.toNat = 133 ∨ c.toNat = 160 ∨
    c.toNat = 5760 ∨ (8192 ≤ c.toNat ∧ c.toNat ≤ 8202) ∨ c.toNat = 8232 ∨ c.toNat = 8233 ∨
    c.toNat = 8239 ∨ c.toNat = 8287 ∨ c.toNat = 12288)
  omega

section Reading

variable {ρ : Type} {L : RefLibraries ρ}

theorem isName_of_validateName {name : Text} (h : validateName L name = .ok ()) : IsName name := by
  simp only [validateName, bind_eq_ok, rejectIf_eq_ok, exists_const, not_or, not_and,
    Bool.not_eq_false] at h
  obtain ⟨⟨hne, -⟩, hchars⟩ := h
  refine ⟨hne, fun c hc => ?_⟩
  by_cases hdigest : isDigest name = false
  · exact List.all_eq_true.mp (hchars hdigest) c hc
  · rw [Bool.not_eq_false, isDigest, decide_eq_true_eq] at hdigest
    exact isNameChar_of_hex (List.all_eq_true.mp hdigest.2 c hc)

theorem sourceUrl_eq_ok {source : Text} {url : RefUrl} :
    sourceUrl L source = .ok url ↔ L.parseUrl source = .ok url ∧ url.Supported ∧
      ¬(url.scheme = fileScheme ∧ ∃ host ∈ url.hostStr, host ≠ []) ∧
      ¬(url.scheme = httpsScheme ∧ url.hostStr = none) := by
  unfold sourceUrl
  cases hparse : L.parseUrl source with
  | error error =>
      simp only [mapError_error, error_bind, reduceCtorEq, false_and]
  | ok parsed =>
      simp only [mapError_ok, ok_bind, bind_eq_ok, rejectIf_eq_ok, exists_const, pure_eq_ok,
        Except.ok.injEq, not_not]
      constructor
      · rintro ⟨hsupported, hfile, hhttps, rfl⟩
        exact ⟨rfl, hsupported, hfile, hhttps⟩
      · rintro ⟨rfl, hsupported, hfile, hhttps⟩
        exact ⟨hsupported, hfile, hhttps, rfl⟩

theorem canonicalizeSource_eq_ok {source canonical : Text} :
    canonicalizeSource L source = .ok canonical ↔
      ∃ url, sourceUrl L source = .ok url ∧ dropLastSlash url.serialized = canonical := by
  simp only [canonicalizeSource, bind_eq_ok, pure_eq_ok]

/-- What drops its last slash ends in one and is not the root of the files. -/
theorem dropLastSlash_cases (text : Text) :
    dropLastSlash text = text ∧ (text.getLast? = some '/' → text = fileRoot) ∨
      text ≠ fileRoot ∧ ∃ rest, text = rest ++ ['/'] ∧ dropLastSlash text = rest := by
  by_cases h : text.getLast? = some '/' ∧ text ≠ fileRoot
  · obtain ⟨rest, rfl⟩ := List.getLast?_eq_some_iff.mp h.1
    exact .inr ⟨h.2, rest, rfl, by rw [dropLastSlash, if_pos h, List.dropLast_concat]⟩
  · refine .inl ⟨if_neg h, fun hlast => ?_⟩
    by_contra hroot
    exact h ⟨hlast, hroot⟩

/-- The URL would lose another slash if it were read again. -/
def EndsInTwoSlashes (serialized : Text) : Prop :=
  ['/', '/'] <:+ serialized ∧ serialized ≠ fileRoot ∧ serialized ≠ fileRoot ++ ['/']

instance (serialized : Text) : Decidable (EndsInTwoSlashes serialized) := instDecidableAnd

theorem endsInTwoSlashes_concat {rest : Text} :
    EndsInTwoSlashes (rest ++ ['/']) ↔
      rest.getLast? = some '/' ∧ rest ++ ['/'] ≠ fileRoot ∧ rest ≠ fileRoot := by
  have hslash : ['/', '/'] <:+ rest ++ ['/'] ↔ rest.getLast? = some '/' := by
    rw [List.getLast?_eq_some_iff]
    constructor
    · rintro ⟨front, hfront⟩
      refine ⟨front, (List.append_left_inj ['/']).mp ?_⟩
      rw [← hfront, List.append_assoc]
      rfl
    · rintro ⟨front, rfl⟩
      exact ⟨front, by simp⟩
  rw [EndsInTwoSlashes, hslash, Ne, Ne, List.append_left_inj]

/-- A canonical source is read as itself unless its URL ended in two slashes. -/
theorem canonicalizeSource_canonical {source : Text} {url : RefUrl}
    (h : sourceUrl L source = .ok url) :
    canonicalizeSource L (dropLastSlash url.serialized) = .ok (dropLastSlash url.serialized) ↔
      ¬ EndsInTwoSlashes url.serialized := by
  obtain ⟨hparse, hsupported, hfile, hhttps⟩ := sourceUrl_eq_ok.mp h
  obtain ⟨hsame, hroot⟩ | ⟨hroot, rest, hrest, hdrop⟩ := dropLastSlash_cases url.serialized
  · have hagain : sourceUrl L url.serialized = .ok url :=
      sourceUrl_eq_ok.mpr ⟨L.parseUrl_serialized hparse, hsupported, hfile, hhttps⟩
    refine iff_of_true ?_ ?_
    · rw [hsame]
      exact canonicalizeSource_eq_ok.mpr ⟨url, hagain, hsame⟩
    · rintro ⟨⟨front, hfront⟩, hne, -⟩
      exact hne (hroot (by simp [← hfront]))
  · obtain ⟨popped, hpopped, hscheme, hhost, hserialized⟩ :=
      L.parseUrl_pop hparse hsupported hrest hroot
    have hagain : sourceUrl L rest = .ok popped := by
      refine sourceUrl_eq_ok.mpr ⟨hpopped, ?_, ?_, ?_⟩
      · rwa [RefUrl.Supported, hscheme]
      · rwa [hscheme, hhost]
      · rwa [hscheme, hhost]
    have hread : canonicalizeSource L rest = .ok rest ↔ dropLastSlash popped.serialized = rest := by
      rw [canonicalizeSource, hagain, ok_bind]
      exact ⟨fun heq => Except.ok.inj heq, fun heq => congrArg Except.ok heq⟩
    rw [hdrop, hread, hrest, endsInTwoSlashes_concat, ← hrest]
    obtain hstands | ⟨hback, hlast⟩ := hserialized
    · -- The shorter URL stands as it is: it must not end in a slash itself.
      rw [hstands, dropLastSlash]
      by_cases hslash : rest.getLast? = some '/' ∧ rest ≠ fileRoot
      · rw [if_pos hslash]
        refine iff_of_false (fun heq => ?_) (not_not.mpr ⟨hslash.1, hroot, hslash.2⟩)
        obtain ⟨front, rfl⟩ := List.getLast?_eq_some_iff.mp hslash.1
        simpa using congrArg List.length heq
      · rw [if_neg hslash]
        exact iff_of_true rfl fun hboth => hslash ⟨hboth.1, hboth.2.2⟩
    · -- The slash comes back and is dropped once more.
      rw [hback]
      exact iff_of_true hdrop fun hboth => hlast hboth.1

/-- What follows the scheme in the text of a URL. -/
def RefUrl.behindScheme (url : RefUrl) : Text :=
  url.serialized.drop (url.scheme.length + schemeEnd.length)

/-- A canonical source starts with its scheme, and has the colons of its URL. -/
theorem canonical_scheme {source : Text} {url : RefUrl} (h : sourceUrl L source = .ok url) :
    ∃ rest, dropLastSlash url.serialized = url.scheme ++ schemeEnd ++ rest ∧
      (':' ∈ rest ↔ ':' ∈ url.behindScheme) := by
  obtain ⟨hparse, hsupported, -, -⟩ := sourceUrl_eq_ok.mp h
  obtain ⟨behind, hbehind⟩ := L.serialized_scheme hparse hsupported
  have hdropped : url.behindScheme = behind := by
    rw [RefUrl.behindScheme, ← hbehind, ← List.length_append, List.drop_left]
  obtain ⟨hsame, -⟩ | ⟨hroot, rest, hrest, hdrop⟩ := dropLastSlash_cases url.serialized
  · exact ⟨behind, by rw [hsame, hbehind], by rw [hdropped]⟩
  · obtain ⟨popped, hpopped, hscheme, -, hserialized⟩ :=
      L.parseUrl_pop hparse hsupported hrest hroot
    cases behind using List.reverseRecOn with
    | nil =>
        -- The slash that is dropped would be one of the scheme's own.
        exfalso
        have hends : rest = url.scheme ++ [':', '/'] := by
          refine (List.append_left_inj ['/']).mp ?_
          rw [← hrest, ← hbehind]
          simp [schemeEnd]
        obtain hstands | ⟨-, hlast⟩ := hserialized
        · have hbegins := L.serialized_scheme hpopped (by rwa [RefUrl.Supported, hscheme])
          rw [hstands, hends, hscheme] at hbegins
          have := hbegins.length_le
          simp [schemeEnd] at this
        · exact hlast (by simp [hends])
    | append_singleton behind c =>
        rw [← List.append_assoc, hrest] at hbehind
        obtain ⟨hfront, hc⟩ := List.append_inj' hbehind rfl
        refine ⟨behind, by rw [hdrop, hfront], ?_⟩
        rw [hdropped]
        simp [List.cons.inj hc]

end Reading

/-! ### Splitting at colons -/

theorem splitOn_of_not_mem {text : Text} (h : ':' ∉ text) : text.splitOn ':' = [text] := by
  refine List.splitOnP_eq_singleton fun c hc => ?_
  rw [beq_eq_false_iff_ne]
  rintro rfl
  exact h hc

theorem splitOn_snoc {back : Text} (h : ':' ∉ back) (front : Text) :
    (front ++ ':' :: back).splitOn ':' = front.splitOn ':' ++ [back] := by
  rw [List.splitOn, List.splitOnP_append_cons (p := (· == ':')) front back (beq_self_eq_true ':')]
  exact congrArg (front.splitOn ':' ++ ·) (splitOn_of_not_mem h)

theorem splitOn_inj {text other : Text} (h : text.splitOn ':' = other.splitOn ':') :
    text = other := by
  have hjoin := congrArg ([':'].intercalate) h
  rwa [List.intercalate_splitOn, List.intercalate_splitOn] at hjoin

/-- The parts of a text but the last make up the text before its last colon. -/
theorem eq_of_splitOn_eq_concat {text back : Text} {parts : List Text} (hne : parts ≠ [])
    (h : text.splitOn ':' = parts ++ [back]) :
    text = [':'].intercalate parts ++ ':' :: back ∧
      ([':'].intercalate parts).splitOn ':' = parts := by
  have hclosed : ∀ part ∈ text.splitOn ':', ':' ∉ part := fun _ hpart => not_mem_of_mem_splitOn hpart
  rw [h] at hclosed
  have hparts : ([':'].intercalate parts).splitOn ':' = parts :=
    List.splitOn_intercalate ':' (fun part hpart => hclosed part (List.mem_append_left _ hpart)) hne
  refine ⟨splitOn_inj ?_, hparts⟩
  rw [h, splitOn_snoc (hclosed back (by simp)), hparts]

section Parts

variable {ρ : Type} {L : RefLibraries ρ} {parts : RefParts} {url : RefUrl}

/-- What stands behind a source. -/
def PluginRef.behindSource (name : Text) (version : Option Text) : Text :=
  name ++ version.elim [] fun version => ':' :: version

/-- A version in a reference. -/
structure IsVersion (version : Text) : Prop where
  looks : looksLikeVersion version = true
  closed : ':' ∉ version

theorem parseQualified_eq_ok {scheme tail input : Text}
    (h : parseQualified L scheme tail input = .ok parts) :
    ∃ before, parts.source = some (scheme ++ schemeEnd ++ before) ∧
      tail = before ++ ':' :: PluginRef.behindSource parts.name parts.version ∧
      ∀ version ∈ parts.version, IsVersion version := by
  unfold parseQualified at h
  have hback : tail.splitOn ':' = (tail.splitOn ':').reverse.reverse := (List.reverse_reverse _).symm
  dsimp only at h
  cases hsegments : (tail.splitOn ':').reverse with
  | nil => simp [hsegments] at h
  | cons last front =>
      rw [hsegments, List.reverse_cons] at hback
      cases front with
      | nil => simp [hsegments] at h
      | cons next before =>
          obtain ⟨htail, hfront⟩ := eq_of_splitOn_eq_concat (by simp) hback
          cases before with
          | nil =>
              rw [hsegments] at h
              cases h
              exact ⟨next, by simp, by simpa [PluginRef.behindSource] using htail, by simp⟩
          | cons other before =>
              rw [hsegments] at h
              dsimp only at h
              split at h
              · next hlooks =>
                cases h
                rw [List.reverse_cons] at hfront
                have hfront' := (eq_of_splitOn_eq_concat (by simp) hfront).1
                refine ⟨_, rfl, ?_, fun version hversion => ?_⟩
                · rw [htail, List.reverse_cons, hfront']
                  simp [PluginRef.behindSource]
                · obtain rfl := Option.mem_some.mp hversion
                  have hmem : last ∈ tail.splitOn ':' := by simp [hback]
                  exact ⟨hlooks, not_mem_of_mem_splitOn hmem⟩
              · cases h
                exact ⟨_, rfl, by simpa [PluginRef.behindSource] using htail, by simp⟩

theorem parseUnqualified_eq_ok {input : Text} (h : parseUnqualified L input = .ok parts) :
    parts.source = none ∧ input = PluginRef.behindSource parts.name parts.version := by
  unfold parseUnqualified at h
  have hjoin : [':'].intercalate (input.splitOn ':') = input := List.intercalate_splitOn ':'
  split at h
  · next name hsegments =>
    cases h
    exact ⟨rfl, by simpa [hsegments, PluginRef.behindSource, List.intercalate] using hjoin.symm⟩
  · next name version hsegments =>
    split at h
    · cases h
      exact ⟨rfl, by simpa [hsegments, PluginRef.behindSource, List.intercalate] using hjoin.symm⟩
    · cases h
  · cases h

/-- A source, a name and a version are read as they were written. -/
theorem parseQualified_version {name version : Text} (hname : ':' ∉ name) (hversion : IsVersion version)
    (scheme rest input : Text) :
    parseQualified L scheme (rest ++ ':' :: PluginRef.behindSource name (some version)) input =
      .ok ⟨some (scheme ++ schemeEnd ++ rest), name, some version⟩ := by
  have htail : rest ++ ':' :: PluginRef.behindSource name (some version) =
      (rest ++ ':' :: name) ++ ':' :: version := by simp [PluginRef.behindSource]
  have hsegments : ((rest ++ ':' :: name) ++ ':' :: version).splitOn ':' =
      rest.splitOn ':' ++ [name] ++ [version] := by
    rw [splitOn_snoc hversion.closed, splitOn_snoc hname]
  rw [parseQualified, htail, hsegments, List.reverse_append, List.reverse_append]
  cases hrest : (rest.splitOn ':').reverse with
  | nil => exact absurd (List.reverse_eq_nil_iff.mp hrest) (List.splitOn_ne_nil ':' rest)
  | cons last before =>
      have hjoin : sourceText scheme (last :: before).reverse = scheme ++ schemeEnd ++ rest := by
        rw [← hrest, List.reverse_reverse, sourceText, List.intercalate_splitOn]
      simp only [List.reverse_singleton, List.singleton_append, hversion.looks, if_true, hjoin]

/-- A source and a name are read as they were written, unless the name could be a
version and the source could end in a name. -/
theorem parseQualified_name {name : Text} (hname : ':' ∉ name) (scheme rest input : Text) :
    parseQualified L scheme (rest ++ ':' :: PluginRef.behindSource name none) input =
      .ok ⟨some (scheme ++ schemeEnd ++ rest), name, none⟩ ↔
        ¬(looksLikeVersion name = true ∧ ':' ∈ rest) := by
  have htail : rest ++ ':' :: PluginRef.behindSource name none = rest ++ ':' :: name := by
    simp [PluginRef.behindSource]
  rw [parseQualified, htail, splitOn_snoc hname, List.reverse_append, List.reverse_singleton,
    List.singleton_append]
  have hjoin : sourceText scheme (rest.splitOn ':') = scheme ++ schemeEnd ++ rest := by
    rw [sourceText, List.intercalate_splitOn]
  by_cases hcolon : ':' ∈ rest
  · -- The source has a colon, so that the name is the third segment or a later one.
    obtain ⟨last, next, before, hrest⟩ :
        ∃ last next before, (rest.splitOn ':').reverse = last :: next :: before := by
      obtain ⟨front, back, hsplit, hback⟩ : ∃ front back, rest = front ++ ':' :: back ∧ ':' ∉ back := by
        cases hcut : rsplitOnce ':' rest with
        | none => exact absurd hcolon (rsplitOnce_eq_none.mp hcut)
        | some cut => exact ⟨cut.1, cut.2, rsplitOnce_eq_some.mp hcut⟩
      obtain ⟨next, before, hfront⟩ := List.exists_cons_of_ne_nil
        (List.reverse_ne_nil_iff.mpr (List.splitOn_ne_nil ':' front))
      exact ⟨back, next, before, by rw [hsplit, splitOn_snoc hback, List.reverse_append, hfront]; rfl⟩
    have hsource : sourceText scheme (last :: next :: before).reverse = scheme ++ schemeEnd ++ rest := by
      rw [← hrest, List.reverse_reverse, hjoin]
    rw [hrest]
    by_cases hlooks : looksLikeVersion name = true
    · simp [hlooks, hcolon]
    · simp only [hlooks, hsource]
      simp
  · rw [splitOn_of_not_mem hcolon]
    simp [hcolon]

theorem splitScheme_eq_some {input scheme tail : Text} (h : splitScheme input = some (scheme, tail)) :
    input = scheme ++ schemeEnd ++ tail := by
  simp only [splitScheme, Option.bind_eq_bind, Option.bind_eq_some_iff] at h
  obtain ⟨⟨first, rest⟩, hcut, h⟩ := h
  split at h
  · cases h
  · split at h
    · cases h
    · split at h
      · cases h
      · cases h
        exact (splitAtFirst_eq_some.mp hcut).1

/-- The scheme of a URL stands in front of its first `://`. -/
theorem splitScheme_supported (h : url.Supported) (rest : Text) :
    splitScheme (url.scheme ++ schemeEnd ++ rest) = some (url.scheme, rest) := by
  obtain h | h := h <;> rw [h] <;> rfl

end Parts

section RoundTrip

variable {ρ : Type} {L : RefLibraries ρ} {reference : PluginRef} {parts : RefParts} {url : RefUrl}

theorem checkParts_eq_ok :
    checkParts L parts = .ok reference ↔
      validateName L parts.name = .ok () ∧ canonicalSource L parts.source = .ok reference.source ∧
        checkVersion L parts.version = .ok () ∧
        reference.name = parts.name ∧ reference.version = parts.version := by
  obtain ⟨canonical, name, version⟩ := reference
  simp only [checkParts, bind_eq_ok, pure_eq_ok, PluginRef.mk.injEq]
  constructor
  · rintro ⟨_, hname, source, hsource, _, hversion, rfl, rfl, rfl⟩
    exact ⟨hname, hsource, hversion, rfl, rfl⟩
  · rintro ⟨hname, hsource, hversion, rfl, rfl⟩
    exact ⟨(), hname, canonical, hsource, (), hversion, rfl, rfl, rfl⟩

theorem canonicalSource_some {source : Text} {canonical : Option Text} :
    canonicalSource L (some source) = .ok canonical ↔
      ∃ url, sourceUrl L source = .ok url ∧ canonical = some (dropLastSlash url.serialized) := by
  simp only [canonicalSource, bind_eq_ok, canonicalizeSource_eq_ok, pure_eq_ok]
  constructor
  · rintro ⟨_, ⟨url, hurl, rfl⟩, rfl⟩
    exact ⟨url, hurl, rfl⟩
  · rintro ⟨url, hurl, rfl⟩
    exact ⟨_, ⟨url, hurl, rfl⟩, rfl⟩

/-- A reference is read as the one it was written for. -/
structure Rereads (url : RefUrl) (parts : RefParts) : Prop where
  slashes : ¬ EndsInTwoSlashes url.serialized
  name : parts.version = none →
    ¬(looksLikeVersion parts.name = true ∧ ':' ∈ url.behindScheme)

theorem display_eq (reference : PluginRef) :
    reference.display = (reference.source.elim [] fun source => source ++ [':']) ++
      PluginRef.behindSource reference.name reference.version := by
  simp [PluginRef.display, PluginRef.behindSource]

/-- The displayed form of a reference with a source has no blanks around it. -/
theorem trim_display {rest : Text} (hname : IsName reference.name)
    (hversion : ∀ version ∈ reference.version, version ≠ [] ∧
      ∀ c ∈ version.getLast?, isWhitespace c = false) (hsupported : url.Supported)
    (hsource : reference.source = some (url.scheme ++ schemeEnd ++ rest)) :
    trim reference.display = reference.display := by
  refine trim_eq_self (fun c hc => ?_) fun c hc => ?_
  · rw [display_eq, hsource] at hc
    obtain h | h := hsupported <;> rw [h] at hc <;> cases hc <;> decide
  · have hbehind : PluginRef.behindSource reference.name reference.version ≠ [] := by
      simp [PluginRef.behindSource, hname.ne_nil]
    rw [display_eq, List.getLast?_append_of_ne_nil _ hbehind] at hc
    cases hread : reference.version with
    | none =>
        rw [hread, PluginRef.behindSource, Option.elim_none, List.append_nil] at hc
        exact not_isWhitespace_of_isNameChar (hname.chars c (List.mem_of_getLast? hc))
    | some version =>
        rw [hread, PluginRef.behindSource, Option.elim_some, List.getLast?_append_cons] at hc
        obtain ⟨hne, hlast⟩ := hversion version hread
        rw [← List.singleton_append, List.getLast?_append_of_ne_nil _ hne] at hc
        exact hlast c hc

theorem ne_nil_of_looksLikeVersion {version : Text} (h : looksLikeVersion version = true) :
    version ≠ [] := by
  rintro rfl
  cases h

/-- A text without a source is displayed as it was written. -/
theorem display_of_unqualified {input : Text} (hparts : parseUnqualified L input = .ok parts)
    (h : checkParts L parts = .ok reference) :
    reference.display = input := by
  obtain ⟨hsource, hinput⟩ := parseUnqualified_eq_ok hparts
  obtain ⟨-, hcanonical, -, hname, hversion⟩ := checkParts_eq_ok.mp h
  rw [hsource] at hcanonical
  have hnone : reference.source = none := (Except.ok.inj hcanonical).symm
  rw [display_eq, hnone, hname, hversion, hinput]
  rfl

theorem parse_eq_ok {input : Text} :
    PluginRef.parse L input = .ok reference ↔ trim input ≠ [] ∧
      ∃ parts, refParts L (trim input) = .ok parts ∧ checkParts L parts = .ok reference := by
  simp only [PluginRef.parse, bind_eq_ok, rejectIf_eq_ok, exists_const]

/-- A reference with a source that was read from a text. -/
structure ReadFrom (L : RefLibraries ρ) (parts : RefParts) (reference : PluginRef) (url : RefUrl) :
    Prop where
  source : ∃ source ∈ parts.source, sourceUrl L source = .ok url
  canonical : reference.source = some (dropLastSlash url.serialized)
  version : ∀ version ∈ reference.version, IsVersion version ∧
    ∀ c ∈ version.getLast?, isWhitespace c = false
  checked : checkParts L parts = .ok reference

theorem ReadFrom.of_qualified {input scheme tail : Text}
    (hsplit : splitScheme (trim input) = some (scheme, tail))
    (hparts : parseQualified L scheme tail (trim input) = .ok parts)
    (h : checkParts L parts = .ok reference) : ∃ url, ReadFrom L parts reference url := by
  obtain ⟨before, hsource, htail, hversions⟩ := parseQualified_eq_ok hparts
  obtain ⟨-, hcanonical, -, hname, hversion⟩ := checkParts_eq_ok.mp h
  rw [hsource, canonicalSource_some] at hcanonical
  obtain ⟨url, hurl, hcanonical⟩ := hcanonical
  refine ⟨url, ⟨_, hsource, hurl⟩, hcanonical, fun version hmem => ?_, h⟩
  rw [hversion] at hmem
  have hne := ne_nil_of_looksLikeVersion (hversions version hmem).looks
  -- The version is what the text ends in.
  have hlast : (trim input).getLast? = version.getLast? := by
    obtain ⟨front, hfront⟩ : version <:+ trim input := by
      rw [splitScheme_eq_some hsplit, htail, PluginRef.behindSource, Option.mem_def.mp hmem]
      exact ⟨scheme ++ schemeEnd ++ before ++ ':' :: parts.name ++ [':'], by simp⟩
    rw [← hfront, List.getLast?_append_of_ne_nil _ hne]
  exact ⟨hversions version hmem, fun c hc => last_trim (hlast ▸ hc)⟩

theorem ReadFrom.isName (h : ReadFrom L parts reference url) : IsName reference.name := by
  obtain ⟨hvalid, -, -, hname, -⟩ := checkParts_eq_ok.mp h.checked
  rw [hname]
  exact isName_of_validateName hvalid

theorem ReadFrom.parse_display (h : ReadFrom L parts reference url) :
    PluginRef.parse L reference.display = .ok reference ↔ Rereads url parts := by
  obtain ⟨source, -, hurl⟩ := h.source
  obtain ⟨hvalid, -, hchecked, hname, hversion⟩ := checkParts_eq_ok.mp h.checked
  obtain ⟨-, hsupported, -, -⟩ := sourceUrl_eq_ok.mp hurl
  obtain ⟨rest, hcanonical, hcolon⟩ := canonical_scheme hurl
  have hdisplay : reference.display = url.scheme ++ schemeEnd ++
      (rest ++ ':' :: PluginRef.behindSource reference.name reference.version) := by
    rw [display_eq, h.canonical, hcanonical]
    simp
  have hclosed := h.isName.not_mem_colon
  have htrim : trim reference.display = reference.display :=
    trim_display h.isName (fun version hmem => ⟨ne_nil_of_looksLikeVersion (h.version version hmem).1.looks,
      (h.version version hmem).2⟩) hsupported (h.canonical.trans (congrArg some hcanonical))
  have hparts : refParts L (trim reference.display) = parseQualified L url.scheme
      (rest ++ ':' :: PluginRef.behindSource reference.name reference.version) reference.display := by
    rw [htrim, refParts, hdisplay, splitScheme_supported hsupported]
  -- The displayed form is read as the same parts, and then the source as itself.
  have hread : PluginRef.parse L reference.display = .ok reference ↔
      parseQualified L url.scheme
        (rest ++ ':' :: PluginRef.behindSource reference.name reference.version) reference.display =
          .ok ⟨some (url.scheme ++ schemeEnd ++ rest), reference.name, reference.version⟩ ∧
      canonicalizeSource L (dropLastSlash url.serialized) = .ok (dropLastSlash url.serialized) := by
    rw [parse_eq_ok, hparts]
    constructor
    · rintro ⟨-, again, hagain, hchecks⟩
      obtain ⟨-, hsource, -, hname', hversion'⟩ := checkParts_eq_ok.mp hchecks
      obtain ⟨before, hbefore, htail, -⟩ := parseQualified_eq_ok hagain
      rw [← hname', ← hversion', List.append_left_inj] at htail
      have hsame : again = ⟨some (url.scheme ++ schemeEnd ++ rest), reference.name,
          reference.version⟩ := by
        rw [htail, ← hbefore, hname', hversion']
      refine ⟨hsame ▸ hagain, ?_⟩
      rw [hsame, ← hcanonical, h.canonical] at hsource
      obtain ⟨canonical, hcanonical', heq⟩ := bind_eq_ok.mp hsource
      cases heq
      exact hcanonical'
    · rintro ⟨hagain, hsource⟩
      refine ⟨by rw [htrim, hdisplay]; simp [schemeEnd], _, hagain, checkParts_eq_ok.mpr ⟨?_, ?_, ?_, rfl, rfl⟩⟩
      · rwa [hname]
      · simp only [← hcanonical, canonicalSource, hsource, h.canonical]
        rfl
      · rwa [hversion]
  rw [hread, canonicalizeSource_canonical hurl]
  cases hwritten : reference.version with
  | none =>
      rw [parseQualified_name hclosed, hcolon, hname]
      exact ⟨fun ⟨hfirst, hsecond⟩ => ⟨hsecond, fun _ => hfirst⟩,
        fun hrereads => ⟨hrereads.name (hversion ▸ hwritten), hrereads.slashes⟩⟩
  | some version =>
      have hversion' := (h.version version hwritten).1
      refine ⟨fun hboth => ⟨hboth.2, fun hnone => ?_⟩,
        fun hrereads => ⟨parseQualified_version hclosed hversion' _ _ _, hrereads.slashes⟩⟩
      rw [← hversion, hwritten] at hnone
      cases hnone

/-- The references whose displayed form is read as they are: those without a source,
and those where the URL of the source does not end in two slashes and does not
bring in a colon that would make a version of the name. -/
def Stable (L : RefLibraries ρ) (input : Text) : Prop :=
  ∀ parts source url, refParts L (trim input) = .ok parts → source ∈ parts.source →
    L.parseUrl source = .ok url → Rereads url parts

theorem parse_display {input : Text} (h : PluginRef.parse L input = .ok reference) :
    PluginRef.parse L reference.display = .ok reference ↔ Stable L input := by
  obtain ⟨hne, parts, hparts, hchecks⟩ := parse_eq_ok.mp h
  have hread := hparts
  rw [refParts] at hread
  cases hsplit : splitScheme (trim input) with
  | none =>
      rw [hsplit] at hread
      refine iff_of_true ?_ ?_
      · rw [display_of_unqualified hread hchecks, parse_eq_ok, trim_trim]
        exact ⟨hne, parts, hparts, hchecks⟩
      · intro parts' source url hparts' hsource
        cases hparts.symm.trans hparts'
        rw [(parseUnqualified_eq_ok hread).1] at hsource
        cases hsource
  | some cut =>
      obtain ⟨scheme, tail⟩ := cut
      rw [hsplit] at hread
      obtain ⟨url, hfrom⟩ := ReadFrom.of_qualified hsplit hread hchecks
      rw [hfrom.parse_display]
      obtain ⟨source, hsource, hurl⟩ := hfrom.source
      have hparse := (sourceUrl_eq_ok.mp hurl).1
      constructor
      · intro hrereads parts' source' url' hparts' hsource' hurl'
        cases hparts.symm.trans hparts'
        obtain rfl := Option.mem_unique hsource hsource'
        cases hparse.symm.trans hurl'
        exact hrereads
      · intro hstable
        exact hstable parts source url hparts hsource hparse

/-- Of an accepted text, the displayed form is read as the same reference exactly when
the text is stable. So stable references with one displayed form are one, and the
references of a file are the same after it is written and read exactly when all
its texts are stable. -/
theorem references_roundTrip_iff (L : RefLibraries ρ) :
    (∀ input reference, PluginRef.parse L input = .ok reference →
      (PluginRef.parse L reference.display = .ok reference ↔ Stable L input)) ∧
    (∀ input input' reference reference', PluginRef.parse L input = .ok reference →
      PluginRef.parse L input' = .ok reference' → Stable L input → Stable L input' →
      reference.display = reference'.display → reference = reference') ∧
    ∀ (inputs : List Text) references, inputs.mapM (PluginRef.parse L) = .ok references →
      ((references.map PluginRef.display).mapM (PluginRef.parse L) = .ok references ↔
        ∀ input ∈ inputs, Stable L input) := by
  refine ⟨fun _ _ h => parse_display h, ?_, ?_⟩
  · intro input input' reference reference' h h' hstable hstable' hdisplay
    have hread := (parse_display h).mpr hstable
    rw [hdisplay, (parse_display h').mpr hstable'] at hread
    exact (Except.ok.inj hread).symm
  · intro inputs references h
    rw [mapM_eq_ok] at h ⊢
    rw [List.forall₂_map_left_iff, List.forall₂_same]
    induction h with
    | nil => simp
    | cons hread _ ih => rw [List.forall_mem_cons, List.forall_mem_cons, ih, parse_display hread]

end RoundTrip

/-! ### A parser of plain URLs -/

/-- A host and perhaps a path, in small letters. -/
def PlainUrl (rest : Text) : Prop :=
  (∀ c ∈ rest, c.isLower = true ∨ c = '/') ∧ ∃ c ∈ rest.head?, c ≠ '/'

instance (rest : Text) : Decidable (PlainUrl rest) :=
  decidable_of_iff
    ((rest.all fun c => c.isLower || c == '/') = true ∧ rest.head?.any (· != '/') = true)
    (and_congr (by simp) (by cases rest <;> simp))

def plainUrl (rest : Text) : RefUrl where
  serialized := httpsScheme ++ schemeEnd ++ (if '/' ∈ rest then rest else rest ++ ['/'])
  scheme := httpsScheme
  hostStr := some (rest.takeWhile (· ≠ '/'))

def parsePlainUrl (text : Text) : Except String RefUrl :=
  let rest := text.drop (httpsScheme ++ schemeEnd).length
  if httpsScheme ++ schemeEnd <+: text ∧ PlainUrl rest then .ok (plainUrl rest)
  else .error "relative URL without a base"

theorem parsePlainUrl_eq_ok {text : Text} {url : RefUrl} :
    parsePlainUrl text = .ok url ↔
      ∃ rest, text = httpsScheme ++ schemeEnd ++ rest ∧ PlainUrl rest ∧ url = plainUrl rest := by
  rw [parsePlainUrl]
  constructor
  · intro h
    split at h
    · next hplain =>
      obtain ⟨⟨rest, rfl⟩, hplain⟩ := hplain
      rw [List.drop_left] at h hplain
      exact ⟨rest, rfl, hplain, (Except.ok.inj h).symm⟩
    · cases h
  · rintro ⟨rest, rfl, hplain, rfl⟩
    rw [List.drop_left, if_pos ⟨List.prefix_append _ _, hplain⟩]

theorem PlainUrl.slash {rest : Text} (h : PlainUrl rest) : PlainUrl (rest ++ ['/']) := by
  obtain ⟨hchars, c, hc, hne⟩ := h
  refine ⟨?_, c, by rw [List.head?_append, Option.mem_def.mp hc]; rfl, hne⟩
  intro d hd
  obtain hd | hd := List.mem_append.mp hd
  · exact hchars d hd
  · exact .inr (List.mem_singleton.mp hd)

theorem hostStr_slash (rest : Text) : (plainUrl (rest ++ ['/'])).hostStr = (plainUrl rest).hostStr := by
  change some ((rest ++ ['/']).takeWhile _) = some (rest.takeWhile _)
  rw [List.takeWhile_append]
  split
  · next hlength =>
    have hwhole := (List.takeWhile_prefix (· ≠ '/')).eq_of_length hlength
    simpa using hwhole.symm
  · rfl

theorem plainUrl_slash {rest : Text} (h : '/' ∉ rest) : plainUrl (rest ++ ['/']) = plainUrl rest := by
  refine RefUrl.ext ?_ rfl (hostStr_slash rest)
  simp [plainUrl, h]

/-- A plain URL is that of a text with a path. -/
theorem PlainUrl.exists_path {rest : Text} (h : PlainUrl rest) :
    ∃ text, PlainUrl text ∧ '/' ∈ text ∧ plainUrl rest = plainUrl text := by
  by_cases hslash : '/' ∈ rest
  · exact ⟨rest, h, hslash, rfl⟩
  · exact ⟨rest ++ ['/'], h.slash, by simp, (plainUrl_slash hslash).symm⟩

theorem serialized_plainUrl {text : Text} (h : '/' ∈ text) :
    (plainUrl text).serialized = httpsScheme ++ schemeEnd ++ text := by
  simp [plainUrl, h]

theorem PlainUrl.last_ne_slash {rest : Text} (h : PlainUrl rest) (hslash : '/' ∉ rest) :
    (httpsScheme ++ schemeEnd ++ rest).getLast? ≠ some '/' := by
  have hne : rest ≠ [] := by
    rintro rfl
    obtain ⟨-, c, hc, -⟩ := h
    cases hc
  rw [List.getLast?_append_of_ne_nil _ hne]
  exact fun hlast => hslash (List.mem_of_getLast? hlast)

/-- A plain URL without its last slash. -/
theorem PlainUrl.pop {front : Text} (h : PlainUrl (front ++ ['/'])) : PlainUrl front := by
  obtain ⟨hchars, c, hc, hne⟩ := h
  refine ⟨fun d hd => hchars d (List.mem_append_left _ hd), c, ?_, hne⟩
  cases front with
  | nil => exact absurd (Option.mem_some.mp hc).symm hne
  | cons d front => exact hc

def plainLibraries : RefLibraries Unit where
  parseUrl := parsePlainUrl
  parseReq text :=
    if text ≠ [] ∧ text.all (fun c => c.isDigit || c = '.') then .ok ()
    else .error "unexpected character"
  debug text := "\"" ++ String.ofList text ++ "\""
  parseUrl_serialized {text url} h := by
    obtain ⟨rest, rfl, hplain, rfl⟩ := parsePlainUrl_eq_ok.mp h
    obtain ⟨path, hpath, hslash, hsame⟩ := hplain.exists_path
    rw [hsame, serialized_plainUrl hslash]
    exact parsePlainUrl_eq_ok.mpr ⟨path, rfl, hpath, rfl⟩
  serialized_scheme {text url} h _ := by
    obtain ⟨rest, rfl, -, rfl⟩ := parsePlainUrl_eq_ok.mp h
    exact List.prefix_append _ _
  parseUrl_pop {text url popped} h _ hpop _ := by
    obtain ⟨rest, rfl, hplain, rfl⟩ := parsePlainUrl_eq_ok.mp h
    obtain ⟨path, hpath, hslash, hsame⟩ := hplain.exists_path
    rw [hsame] at hpop ⊢
    rw [serialized_plainUrl hslash] at hpop
    cases path using List.reverseRecOn with
    | nil => cases hslash
    | append_singleton front c =>
        rw [← List.append_assoc] at hpop
        obtain ⟨rfl, hc⟩ := List.append_inj' hpop rfl
        obtain rfl := List.singleton_injective hc
        refine ⟨plainUrl front, parsePlainUrl_eq_ok.mpr ⟨front, rfl, hpath.pop, rfl⟩, rfl,
          (hostStr_slash front).symm, ?_⟩
        by_cases hfront : '/' ∈ front
        · exact .inl (serialized_plainUrl hfront)
        · exact .inr ⟨by rw [plainUrl_slash hfront], hpath.pop.last_ne_slash hfront⟩

/-- A reference with a source and a version. -/
theorem reference_roundTrip_versioned :
    PluginRef.parse plainLibraries "https://h/x:n:1.0".toList =
        .ok ⟨some "https://h/x".toList, ['n'], some "1.0".toList⟩ ∧
      PluginRef.parse plainLibraries
          (PluginRef.display ⟨some "https://h/x".toList, ['n'], some "1.0".toList⟩) =
        .ok ⟨some "https://h/x".toList, ['n'], some "1.0".toList⟩ := by
  have hread : PluginRef.parse plainLibraries "https://h/x:n:1.0".toList =
      .ok ⟨some "https://h/x".toList, ['n'], some "1.0".toList⟩ := by decide +kernel
  refine ⟨hread, ((references_roundTrip_iff plainLibraries).1 _ _ hread).mpr ?_⟩
  intro parts source url hparts hsource hurl
  have hwritten : refParts plainLibraries (trim "https://h/x:n:1.0".toList) =
      .ok ⟨some "https://h/x".toList, ['n'], some "1.0".toList⟩ := by decide +kernel
  cases hwritten.symm.trans hparts
  cases hsource
  have hparsed : plainLibraries.parseUrl "https://h/x".toList =
      .ok ⟨"https://h/x".toList, httpsScheme, some ['h']⟩ := by decide +kernel
  cases hparsed.symm.trans hurl
  exact ⟨by decide +kernel, fun hnone => by cases hnone⟩

/-- One slash of two is dropped when the reference is read, the other when its
displayed form is. -/
theorem second_slash_dropped :
    PluginRef.parse plainLibraries "https://h/x//:n".toList =
        .ok ⟨some "https://h/x/".toList, ['n'], none⟩ ∧
      PluginRef.parse plainLibraries
          (PluginRef.display ⟨some "https://h/x/".toList, ['n'], none⟩) =
        .ok ⟨some "https://h/x".toList, ['n'], none⟩ := by
  decide +kernel

end Maskura.Policy
