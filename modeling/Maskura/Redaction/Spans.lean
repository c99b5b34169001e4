import Mathlib.Algebra.Order.BigOperators.Group.List
import Mathlib.Algebra.Order.Ring.Nat
import Maskura.Lib.Bytes
import Maskura.Lib.Run
import Maskura.Lib.Scan
import Mathlib.Data.List.Sort

/-!
Detection and redaction of personal data in text: e-mail addresses, payment
cards and social security numbers.

A text is its bytes. Every byte the code looks at is an ASCII byte, and it cuts
the text only next to one, so the byte positions here are the `usize` indices of
the code.
-/

namespace Maskura.Redaction

open Lib Lib.Run Lib.Scan

abbrev Bytes := List UInt8

inductive PiiKind
  | email
  | card
  | ssn
  deriving DecidableEq, Repr

def PiiKind.marker : PiiKind → Bytes
  | .email => utf8Bytes "[REDACTED_EMAIL]"
  | .card => utf8Bytes "[REDACTED_CARD]"
  | .ssn => utf8Bytes "[REDACTED_SSN]"

/-- A stretch of the text with its kind; the code keeps the kind's marker. -/
structure Span where
  start : ℕ
  stop : ℕ
  kind : PiiKind
  deriving DecidableEq, Repr

def isAsciiDigit (byte : UInt8) : Bool := '0'.toUInt8 ≤ byte && byte ≤ '9'.toUInt8

/-- The bytes a number may be written with. -/
def isTokenByte (byte : UInt8) : Bool :=
  isAsciiDigit byte || byte == ' '.toUInt8 || byte == '-'.toUInt8

/-- The bytes an e-mail address ends at. -/
def isBoundary (byte : UInt8) : Bool :=
  byte == ' '.toUInt8 || byte == '\n'.toUInt8 || byte == '\r'.toUInt8 || byte == '\t'.toUInt8 ||
    byte == ','.toUInt8 || byte == '\x22'.toUInt8 || byte == '&'.toUInt8

def isWordByte (byte : UInt8) : Bool := !isBoundary byte

def isAt (byte : UInt8) : Bool := byte == '@'.toUInt8

def isDot (byte : UInt8) : Bool := byte == '.'.toUInt8

/-! ### Candidates -/

def findDigitToken (bytes : Bytes) (start : ℕ) : Option (ℕ × ℕ) :=
  let s := backWhile isTokenByte bytes 0 start
  let e := onWhile isTokenByte bytes bytes.length start
  if e ≤ s then none
  else if (slice bytes s e).countP isAsciiDigit = 0 then none
  else some (s, e)

def findEmailBoundary (bytes : Bytes) (atPos : ℕ) : Option (ℕ × ℕ) :=
  let s := backWhile isWordByte bytes 0 atPos
  let e := onWhile isWordByte bytes bytes.length (atPos + 1)
  if s < atPos ∧ atPos + 1 < e then some (s, e) else none

def isValidEmail (s : Bytes) : Bool :=
  !s.isEmpty && s.any isAt && s.any isDot && s.length ≤ 254

/-- `to_digit(10)`, with 0 for what is no digit. -/
def toDigit (byte : UInt8) : ℕ := if isAsciiDigit byte then byte.toNat - '0'.toNat else 0

/-- Every second digit from the right is doubled, with its digits added. -/
def luhnCheck (s : Bytes) : Bool :=
  (s.reverse.mapIdx fun i c =>
    let d := toDigit c
    if i % 2 = 1 then
      let doubled := d * 2
      if 9 < doubled then doubled - 9 else doubled
    else d).sum % 10 == 0

def isValidCard (digits : Bytes) : Bool :=
  if digits.length < 13 || 19 < digits.length || !digits.all isAsciiDigit then false
  else luhnCheck digits

def isValidSsnFormat (s : Bytes) : Bool :=
  (s.length == 9 && s.all isAsciiDigit) ||
    (s.length == 11 && s[3]? == some '-'.toUInt8 && s[6]? == some '-'.toUInt8 &&
      (slice s 0 3).all isAsciiDigit && (slice s 4 6).all isAsciiDigit &&
      (slice s 7 s.length).all isAsciiDigit)

/-- `parse::<u32>` of at most four bytes. -/
def parseNumber (digits : Bytes) : Option ℕ :=
  if digits.isEmpty || !digits.all isAsciiDigit then none
  else some (digits.foldl (fun n c => 10 * n + toDigit c) 0)

def isValidSsn (digits : Bytes) : Bool :=
  if digits.length != 9 || !digits.all isAsciiDigit then false
  else
    let area := (parseNumber (slice digits 0 3)).getD 999
    let group := (parseNumber (slice digits 3 5)).getD 99
    let serial := (parseNumber (slice digits 5 digits.length)).getD 9999
    !(area == 0 || area == 666 || 899 < area || group == 0 || serial == 0)

/-- The number around a digit: the run of digits, blanks and dashes it stands
in, cut down to its first and last digit. -/
def digitCandidate (bytes : Bytes) (i : ℕ) : Option (ℕ × ℕ) :=
  if holdsAt isAsciiDigit bytes i then
    (findDigitToken bytes i).bind fun (start, stop) =>
      let s := onWhile (fun c => !isAsciiDigit c) bytes stop start
      let e := backWhile (fun c => !isAsciiDigit c) bytes s stop
      if e ≤ s then none else some (s, e)
  else none

/-- The e-mail branch of both scans. -/
def emailAt (input : Bytes) (i : ℕ) : Option Span :=
  if holdsAt isAt input i then
    (findEmailBoundary input i).bind fun (start, stop) =>
      if isValidEmail (slice input start stop) then some ⟨start, stop, .email⟩ else none
  else none

def isCardCandidate (candidate : Bytes) : Bool :=
  let digitsOnly := candidate.filter isAsciiDigit
  (13 ≤ digitsOnly.length && digitsOnly.length ≤ 19) && isValidCard digitsOnly

def isSsnCandidate (candidate : Bytes) : Bool :=
  let digitsOnly := candidate.filter isAsciiDigit
  (digitsOnly.length == 9 && isValidSsnFormat candidate) && isValidSsn digitsOnly

/-- The card branch of both scans. -/
def cardAt (input : Bytes) (i : ℕ) : Option Span :=
  (digitCandidate input i).bind fun (s, e) =>
    if isCardCandidate (slice input s e) then some ⟨s, e, .card⟩ else none

/-- The social security number branch of both scans. -/
def ssnAt (input : Bytes) (i : ℕ) : Option Span :=
  (digitCandidate input i).bind fun (s, e) =>
    if isSsnCandidate (slice input s e) then some ⟨s, e, .ssn⟩ else none

/-! ### Scans -/

def findAllSpans (input : Bytes) : List Span :=
  scan Span.stop (fun i => (emailAt input i).or ((cardAt input i).or (ssnAt input i)))
    input.length input.length 0

/-- What the scan for one kind recognises at a position. -/
def spanAt (input : Bytes) : PiiKind → ℕ → Option Span
  | .email => emailAt input
  | .card => cardAt input
  | .ssn => ssnAt input

def findSpans (input : Bytes) (kind : PiiKind) : List Span :=
  scan Span.stop (spanAt input kind) input.length input.length 0

/-! ### Replacement -/

/-- The order of `sort_by_key(|(start, end, _)| (start, end))`. -/
def Span.before (a b : Span) : Prop := a.start < b.start ∨ (a.start = b.start ∧ a.stop ≤ b.stop)

instance : DecidableRel Span.before := fun a b =>
  inferInstanceAs (Decidable (a.start < b.start ∨ (a.start = b.start ∧ a.stop ≤ b.stop)))

def sortSpans (spans : List Span) : List Span := spans.insertionSort Span.before

/-- The rest of `dedup_by_key`, with the span kept last. -/
def dedupAfter (last : Span) : List Span → List Span
  | [] => [last]
  | span :: rest =>
      if last.start = span.start then dedupAfter last rest else last :: dedupAfter span rest

/-- `dedup_by_key(|(start, _, _)| start)`: the first of equal neighbours stays. -/
def dedupByStart : List Span → List Span
  | [] => []
  | span :: rest => dedupAfter span rest

/-- The loop that writes a text anew: what stands between the spans is copied,
`write` says what is put in the place of a span, and a span that begins before
the position reached is passed over. -/
def rewrite {σ : Type} (write : σ → Span → Bytes × σ) (input : Bytes) :
    σ → ℕ → List Span → Bytes
  | _, pos, [] => slice input pos input.length
  | s, pos, span :: rest =>
      if span.start < pos then rewrite write input s pos rest
      else
        slice input pos span.start ++ (write s span).1 ++
          rewrite write input (write s span).2 span.stop rest

def replaceSpans (input : Bytes) (spans : List Span) : Bytes :=
  let sorted := dedupByStart (sortSpans spans)
  let output := rewrite (fun _ span => (span.kind.marker, ())) input () 0 sorted
  if output = input then input else output

def redactPii (input : Bytes) : Bytes := replaceSpans input (findAllSpans input)

def redactCards (input : Bytes) : Bytes := replaceSpans input (findSpans input .card)

end Maskura.Redaction
