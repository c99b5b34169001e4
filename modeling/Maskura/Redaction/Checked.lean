import Maskura.Lib.Result
import Maskura.Redaction.Local

/-!
The scanners with everything in them that can go wrong: an index behind the end,
a slice whose ends are in the wrong order, behind the end or inside of a
character, and a loop that does not end. On UTF-8 text nothing of this happens,
and the scanners give what they give without the checks.
-/

namespace Maskura.Redaction

open Lib Lib.Run Lib.Scan Lib.Cut Lib.Utf8

/-- Why a call does not return: a panic, or a loop that is not done when its fuel is. -/
inductive Fault
  | indexOutOfBounds
  | sliceOutOfRange
  | notCharBoundary
  | running
  deriving DecidableEq

instance (x : Bytes) (k : ℕ) : Decidable (IsCharBoundary x k) :=
  inferInstanceAs (Decidable (holdsAt isContinuation x k = false))

/-- `bytes[i]`. -/
def byteAt (bytes : Bytes) (i : ℕ) : Except Fault UInt8 := okOr bytes[i]? .indexOutOfBounds

/-- `&bytes[start..stop]`. -/
def bytesSlice (bytes : Bytes) (start stop : ℕ) : Except Fault Bytes := do
  rejectIf (stop < start ∨ bytes.length < stop) .sliceOutOfRange
  return slice bytes start stop

/-- `&text[start..stop]`. -/
def strSlice (text : Bytes) (start stop : ℕ) : Except Fault Bytes := do
  rejectIf (stop < start ∨ text.length < stop) .sliceOutOfRange
  rejectIf (¬ (IsCharBoundary text start ∧ IsCharBoundary text stop)) .notCharBoundary
  return slice text start stop

/-- `while s > low && p(bytes[s - 1]) \x7b s -= 1 \x7d`. -/
def walkBack (p : UInt8 → Bool) (bytes : Bytes) (low : ℕ) : ℕ → Except Fault ℕ
  | 0 => return 0
  | s + 1 =>
      if low < s + 1 then do
        let b ← byteAt bytes s
        if p b then walkBack p bytes low s else return s + 1
      else return s + 1

/-- `while e < stop && p(bytes[e]) \x7b e += 1 \x7d`. -/
def walkOn (p : UInt8 → Bool) (bytes : Bytes) (stop : ℕ) : (fuel e : ℕ) → Except Fault ℕ
  | 0, _ => .error .running
  | fuel + 1, e =>
      if e < stop then do
        let b ← byteAt bytes e
        if p b then walkOn p bytes stop fuel (e + 1) else return e
      else return e

def checkedDigitToken (bytes : Bytes) (start : ℕ) : Except Fault (Option (ℕ × ℕ)) := do
  let s ← walkBack isTokenByte bytes 0 start
  let e ← walkOn isTokenByte bytes bytes.length (bytes.length + 1) start
  if e ≤ s then return none
  else do
    let token ← bytesSlice bytes s e
    if token.countP isAsciiDigit = 0 then return none else return some (s, e)

def checkedEmailBoundary (bytes : Bytes) (atPos : ℕ) : Except Fault (Option (ℕ × ℕ)) := do
  let s ← walkBack isWordByte bytes 0 atPos
  let e ← walkOn isWordByte bytes bytes.length (bytes.length + 1) (atPos + 1)
  if s < atPos ∧ atPos + 1 < e then return some (s, e) else return none

/-- The first byte of the `k`-th character, which is all of it when it is ASCII. -/
def nthChar (text : Bytes) (k : ℕ) : Option UInt8 := (text.filter (! isContinuation ·))[k]?

def checkedSsnFormat (s : Bytes) : Except Fault Bool :=
  if s.length = 9 ∧ s.all isAsciiDigit then return true
  else if s.length = 11 ∧ nthChar s 3 = some '-'.toUInt8 ∧ nthChar s 6 = some '-'.toUInt8 then do
    let area ← strSlice s 0 3
    if area.all isAsciiDigit then do
      let group ← strSlice s 4 6
      if group.all isAsciiDigit then do
        let serial ← strSlice s 7 s.length
        return serial.all isAsciiDigit
      else return false
    else return false
  else return false

def checkedSsn (digits : Bytes) : Except Fault Bool :=
  if digits.length ≠ 9 ∨ digits.all isAsciiDigit = false then return false
  else do
    let area ← strSlice digits 0 3
    let group ← strSlice digits 3 5
    let serial ← strSlice digits 5 digits.length
    let area := (parseNumber area).getD 999
    let group := (parseNumber group).getD 99
    let serial := (parseNumber serial).getD 9999
    return !(area == 0 || area == 666 || 899 < area || group == 0 || serial == 0)

/-- The test for a social security number, in the order of the code. -/
def ssnCandidate (candidate : Bytes) : Except Fault Bool :=
  let digitsOnly := candidate.filter isAsciiDigit
  if digitsOnly.length = 9 then do
    if ← checkedSsnFormat candidate then checkedSsn digitsOnly else return false
  else return false

/-- The numbers that a scan looks for: all of them, or those of one kind. -/
def recognise (kinds : PiiKind → Bool) (candidate : Bytes) : Except Fault (Option PiiKind) :=
  if kinds .card ∧ isCardCandidate candidate then return some .card
  else if kinds .ssn then do
    if ← ssnCandidate candidate then return some .ssn else return none
  else return none

def emailStep (input : Bytes) (i : ℕ) : Except Fault (Option Span) := do
  let b ← byteAt input i
  if isAt b then do
    match ← checkedEmailBoundary input i with
    | some (start, stop) => do
        let candidate ← strSlice input start stop
        if isValidEmail candidate then return some ⟨start, stop, .email⟩ else return none
    | none => return none
  else return none

def numberStep (kinds : PiiKind → Bool) (input : Bytes) (i : ℕ) : Except Fault (Option Span) := do
  let b ← byteAt input i
  if isAsciiDigit b then do
    match ← checkedDigitToken input i with
    | some (start, stop) => do
        let s ← walkOn (fun c => !isAsciiDigit c) input stop (input.length + 1) start
        let e ← walkBack (fun c => !isAsciiDigit c) input s stop
        if e ≤ s then return none
        else do
          let candidate ← strSlice input s e
          let kind ← recognise kinds candidate
          return kind.map (⟨s, e, ·⟩)
    | none => return none
  else return none

/-- The index of the next round, and the span that was found. -/
def after (i : ℕ) : Option Span → ℕ × Option Span
  | some span => (span.stop, some span)
  | none => (i + 1, none)

/-- One round of `find_all_spans`. -/
def stepAll (input : Bytes) (i : ℕ) : Except Fault (ℕ × Option Span) := do
  match ← emailStep input i with
  | some span => return after i (some span)
  | none => do
      let found ← numberStep (fun _ => true) input i
      return after i found

/-- One round of `find_spans`. -/
def stepKind (kind : PiiKind) (input : Bytes) (i : ℕ) : Except Fault (ℕ × Option Span) := do
  let found ← if kind = .email then emailStep input i else numberStep (· = kind) input i
  return after i found

/-- The loop of both scans. -/
def checkedScan (step : ℕ → Except Fault (ℕ × Option Span)) (len : ℕ) :
    (fuel i : ℕ) → Except Fault (List Span)
  | 0, _ => .error .running
  | fuel + 1, i =>
      if i < len then do
        let (next, found) ← step i
        let rest ← checkedScan step len fuel next
        return found.toList ++ rest
      else return []

def checkedFindAllSpans (input : Bytes) : Except Fault (List Span) :=
  checkedScan (stepAll input) input.length (input.length + 1) 0

def checkedFindSpans (input : Bytes) (kind : PiiKind) : Except Fault (List Span) :=
  checkedScan (stepKind kind input) input.length (input.length + 1) 0

/-- The loop of `replace_spans`. -/
def checkedRewrite (input : Bytes) : ℕ → List Span → Except Fault Bytes
  | pos, [] => strSlice input pos input.length
  | pos, span :: rest =>
      if span.start < pos then checkedRewrite input pos rest
      else do
        let before ← strSlice input pos span.start
        let behind ← checkedRewrite input span.stop rest
        return before ++ span.kind.marker ++ behind

def checkedReplaceSpans (input : Bytes) (spans : List Span) : Except Fault Bytes := do
  let output ← checkedRewrite input 0 (dedupByStart (sortSpans spans))
  return if output = input then input else output

variable {x : Bytes} {p : UInt8 → Bool}

/-! ### Indices and slices -/

theorem byteAt_of_getElem? {i : ℕ} {b : UInt8} (h : x[i]? = some b) : byteAt x i = .ok b := by
  rw [byteAt, h]
  rfl

theorem bytesSlice_eq {s e : ℕ} (hse : s ≤ e) (he : e ≤ x.length) :
    bytesSlice x s e = .ok (slice x s e) := by
  rw [bytesSlice, rejectIf_neg (by omega)]
  rfl

theorem strSlice_eq {s e : ℕ} (hse : s ≤ e) (he : e ≤ x.length)
    (hboundary : IsCharBoundary x s ∧ IsCharBoundary x e) : strSlice x s e = .ok (slice x s e) := by
  rw [strSlice, rejectIf_neg (by omega), rejectIf_neg (not_not.mpr hboundary)]
  rfl

/-- A text of ASCII bytes can be cut anywhere. -/
theorem isCharBoundary_of_all_ascii (h : ∀ byte ∈ x, byte < 128) (k : ℕ) : IsCharBoundary x k := by
  cases hk : x[k]? with
  | none => simp [IsCharBoundary, holdsAt, hk]
  | some byte => exact isCharBoundary_of_ascii hk (h byte (List.mem_of_getElem? hk))

/-! ### Walks -/

theorem walkBack_eq {low e : ℕ} (he : e ≤ x.length) :
    walkBack p x low e = .ok (backWhile p x low e) := by
  induction e with
  | zero => rfl
  | succ e ih =>
      have hget : x[e]? = some x[e] := List.getElem?_eq_getElem he
      have hholds : holdsAt p x e = p x[e] := by rw [holdsAt, hget, Option.any_some]
      rw [walkBack, backWhile, hholds, byteAt_of_getElem? hget]
      by_cases hlow : low ≤ e
      · rw [if_pos (Nat.lt_succ_of_le hlow), ok_bind]
        cases hp : p x[e] with
        | true => simpa [hlow] using ih (by omega)
        | false => simp [pure_ok]
      · rw [if_neg (by omega), if_neg fun h => hlow h.1]
        rfl

theorem walkOn_eq {stop fuel e : ℕ} (hstop : stop ≤ x.length) (hfuel : stop - e < fuel) :
    walkOn p x stop fuel e = .ok (onWhile p x stop e) := by
  induction fuel generalizing e with
  | zero => omega
  | succ fuel ih =>
      rw [walkOn]
      by_cases he : e < stop
      · have hget : x[e]? = some x[e] := List.getElem?_eq_getElem (by omega)
        have hholds : holdsAt p x e = p x[e] := by rw [holdsAt, hget, Option.any_some]
        rw [if_pos he, byteAt_of_getElem? hget, ok_bind]
        cases hp : p x[e] with
        | true =>
            rw [if_pos rfl, ih (by omega), onWhile_step he (hholds.trans hp)]
        | false =>
            rw [if_neg Bool.false_ne_true, onWhile_of_not (hholds.trans hp)]
            rfl
      · have hnil : (x.take stop).drop e = [] := by
          rw [List.drop_eq_nil_iff, List.length_take]
          omega
        rw [if_neg he, onWhile, hnil]
        rfl

theorem checkedDigitToken_eq {i : ℕ} (hi : i ≤ x.length) :
    checkedDigitToken x i = .ok (findDigitToken x i) := by
  have hle := onWhile_le (p := isTokenByte) (x := x) hi
  rw [checkedDigitToken, walkBack_eq hi, ok_bind, walkOn_eq le_rfl (by omega), ok_bind,
    findDigitToken]
  split
  · rfl
  · next hlt =>
    rw [bytesSlice_eq (by omega) hle, ok_bind]
    split <;> rfl

theorem checkedEmailBoundary_eq {i : ℕ} (hi : i < x.length) :
    checkedEmailBoundary x i = .ok (findEmailBoundary x i) := by
  rw [checkedEmailBoundary, walkBack_eq hi.le, ok_bind, walkOn_eq le_rfl (by omega), ok_bind,
    findEmailBoundary]
  split <;> rfl

/-! ### The tests of candidates -/

/-- Digits, blanks and dashes. -/
def IsTokenText (candidate : Bytes) : Prop := ∀ byte ∈ candidate, isTokenByte byte = true

theorem ascii_of_token {c : UInt8} (h : isTokenByte c = true) : c < 128 := by
  simp only [isTokenByte, Bool.or_eq_true, beq_iff_eq] at h
  obtain (h | rfl) | rfl := h
  · exact ascii_of_digit h
  · decide
  · decide

theorem IsTokenText.isCharBoundary (h : IsTokenText x) (k : ℕ) : IsCharBoundary x k :=
  isCharBoundary_of_all_ascii (fun byte hbyte => ascii_of_token (h byte hbyte)) k

theorem IsTokenText.strSlice_eq (h : IsTokenText x) {s e : ℕ} (hse : s ≤ e) (he : e ≤ x.length) :
    strSlice x s e = .ok (slice x s e) :=
  Redaction.strSlice_eq hse he ⟨h.isCharBoundary s, h.isCharBoundary e⟩

theorem IsTokenText.nthChar_eq (h : IsTokenText x) (k : ℕ) : nthChar x k = x[k]? := by
  have hall : x.filter (! isContinuation ·) = x := by
    refine List.filter_eq_self.mpr fun byte hbyte => ?_
    have hascii : ¬ 128 ≤ byte := by
      rw [UInt8.not_le]
      exact ascii_of_token (h byte hbyte)
    simp [isContinuation, hascii]
  rw [nthChar, hall]

theorem checkedSsnFormat_eq (h : IsTokenText x) : checkedSsnFormat x = .ok (isValidSsnFormat x) := by
  rw [checkedSsnFormat, isValidSsnFormat, h.nthChar_eq, h.nthChar_eq]
  by_cases hnine : x.length = 9 ∧ x.all isAsciiDigit
  · rw [if_pos hnine]
    simp [hnine, pure_ok]
  · have hfirst : (x.length == 9 && x.all isAsciiDigit) = false := by
      rw [Bool.eq_false_iff]
      intro hall
      simp only [Bool.and_eq_true, beq_iff_eq] at hall
      exact hnine hall
    rw [if_neg hnine, hfirst, Bool.false_or]
    by_cases heleven : x.length = 11 ∧ x[3]? = some '-'.toUInt8 ∧ x[6]? = some '-'.toUInt8
    · obtain ⟨hlength, hthree, hsix⟩ := heleven
      rw [if_pos ⟨hlength, hthree, hsix⟩, h.strSlice_eq (by omega) (by omega),
        h.strSlice_eq (by omega) (by omega), h.strSlice_eq (by omega) le_rfl]
      simp only [ok_bind, hlength, hthree, hsix, beq_self_eq_true, Bool.true_and]
      cases (slice x 0 3).all isAsciiDigit <;> cases (slice x 4 6).all isAsciiDigit <;> rfl
    · rw [if_neg heleven]
      have hsecond : (x.length == 11 && x[3]? == some '-'.toUInt8 && x[6]? == some '-'.toUInt8) =
          false := by
        rw [Bool.eq_false_iff]
        intro hall
        simp only [Bool.and_eq_true, beq_iff_eq] at hall
        exact heleven ⟨hall.1.1, hall.1.2, hall.2⟩
      rw [hsecond]
      rfl

theorem checkedSsn_eq (h : IsTokenText x) : checkedSsn x = .ok (isValidSsn x) := by
  rw [checkedSsn, isValidSsn]
  by_cases hdigits : x.length ≠ 9 ∨ x.all isAsciiDigit = false
  · have htest : (x.length != 9 || !x.all isAsciiDigit) = true := by simpa using hdigits
    rw [if_pos hdigits, if_pos htest]
    rfl
  · have htest : ¬ (x.length != 9 || !x.all isAsciiDigit) = true := by simpa using hdigits
    have hlength : x.length = 9 := not_not.mp fun hne => hdigits (.inl hne)
    rw [if_neg hdigits, if_neg htest, h.strSlice_eq (by omega) (by omega),
      h.strSlice_eq (by omega) (by omega), h.strSlice_eq (by omega) le_rfl]
    rfl

theorem ssnCandidate_eq (h : IsTokenText x) : ssnCandidate x = .ok (isSsnCandidate x) := by
  have hdigits : IsTokenText (x.filter isAsciiDigit) := fun byte hbyte =>
    h byte (List.mem_filter.mp hbyte).1
  rw [ssnCandidate, isSsnCandidate]
  by_cases hnine : (x.filter isAsciiDigit).length = 9
  · rw [if_pos hnine, checkedSsnFormat_eq h, ok_bind, checkedSsn_eq hdigits]
    cases isValidSsnFormat x <;> simp [hnine, pure_ok]
  · simp [hnine, pure_ok]

/-- The kinds of numbers that are looked for, by the tests without the checks. -/
def numberKind (kinds : PiiKind → Bool) (candidate : Bytes) : Option PiiKind :=
  if kinds .card ∧ isCardCandidate candidate then some .card
  else if kinds .ssn ∧ isSsnCandidate candidate then some .ssn
  else none

theorem recognise_eq (kinds : PiiKind → Bool) (h : IsTokenText x) :
    recognise kinds x = .ok (numberKind kinds x) := by
  rw [recognise, numberKind, ssnCandidate_eq h]
  split
  · rfl
  · cases kinds .ssn <;> cases isSsnCandidate x <;> rfl

/-! ### Rounds -/

theorem emailStep_eq (hx : isUtf8 x = true) {i : ℕ} (hi : i < x.length) :
    emailStep x i = .ok (emailAt x i) := by
  have hget : x[i]? = some x[i] := List.getElem?_eq_getElem hi
  have hholds : holdsAt isAt x i = isAt x[i] := by rw [holdsAt, hget, Option.any_some]
  rw [emailStep, byteAt_of_getElem? hget, ok_bind, emailAt, hholds]
  split
  · next hat =>
    rw [checkedEmailBoundary_eq hi, ok_bind]
    cases hboundary : findEmailBoundary x i with
    | none => rfl
    | some pair =>
        have hrun := ((findEmailBoundary_eq_some (hholds.trans hat)).mp hboundary).2.2
        dsimp only
        rw [strSlice_eq hrun.lt.le hrun.le_length (isCharBoundary_of_wordRun hx hrun), ok_bind,
          Option.bind_some]
        split <;> rfl
  · rfl

theorem numberStep_eq (hx : isUtf8 x = true) (kinds : PiiKind → Bool) {i : ℕ} (hi : i < x.length) :
    numberStep kinds x i = .ok ((digitCandidate x i).bind fun (s, e) =>
      (numberKind kinds (slice x s e)).map (⟨s, e, ·⟩)) := by
  have hget : x[i]? = some x[i] := List.getElem?_eq_getElem hi
  have hholds : holdsAt isAsciiDigit x i = isAsciiDigit x[i] := by rw [holdsAt, hget, Option.any_some]
  rw [numberStep, byteAt_of_getElem? hget, ok_bind]
  by_cases hdigit : isAsciiDigit x[i] = true
  · obtain ⟨s, e, hcandidate, -, -, hnum⟩ := exists_digitCandidate (hholds.trans hdigit)
    have htokens : IsTokenText (slice x s e) := by
      intro byte hbyte
      obtain ⟨k, hk, hke, hget⟩ := mem_slice.mp hbyte
      have hholds := hnum.holds k hk hke
      rwa [holdsAt, hget, Option.any_some] at hholds
    have hle := le_of_digitCandidate hcandidate
    have hwalks := hcandidate
    rw [digitCandidate, if_pos (hholds.trans hdigit), Option.bind_eq_some_iff] at hwalks
    obtain ⟨⟨start, stop⟩, htoken, hends⟩ := hwalks
    have hstop := le_of_findDigitToken htoken hi.le
    rw [if_pos hdigit, checkedDigitToken_eq hi.le, ok_bind, htoken]
    dsimp only at hends ⊢
    rw [walkOn_eq hstop (by omega), ok_bind, walkBack_eq hstop, ok_bind]
    split at hends
    · cases hends
    · next hlt =>
      obtain ⟨hs, he⟩ := Prod.mk.inj (Option.some.inj hends)
      rw [if_neg hlt, he, hs, strSlice_eq hnum.lt.le hle (hnum.isCharBoundary hx), ok_bind,
        recognise_eq kinds htokens, ok_bind, hcandidate]
      rfl
  · rw [if_neg hdigit, digitCandidate, if_neg (by rwa [hholds])]
    rfl

/-- Looking for all numbers finds what the two branches find. -/
theorem numberKind_all (i : ℕ) :
    ((digitCandidate x i).bind fun (s, e) =>
      (numberKind (fun _ => true) (slice x s e)).map (⟨s, e, ·⟩)) = (cardAt x i).or (ssnAt x i) := by
  rw [cardAt, ssnAt]
  cases digitCandidate x i with
  | none => rfl
  | some pair =>
      simp only [Option.bind_some, numberKind, true_and]
      cases isCardCandidate (slice x pair.1 pair.2) <;>
        cases isSsnCandidate (slice x pair.1 pair.2) <;> rfl

theorem stepAll_eq (hx : isUtf8 x = true) {i : ℕ} (hi : i < x.length) :
    stepAll x i = .ok (after i (anyAt x i)) := by
  rw [stepAll, emailStep_eq hx hi, ok_bind, numberStep_eq hx _ hi, numberKind_all, anyAt]
  cases emailAt x i <;> rfl

theorem stepKind_eq (hx : isUtf8 x = true) (kind : PiiKind) {i : ℕ} (hi : i < x.length) :
    stepKind kind x i = .ok (after i (spanAt x kind i)) := by
  rw [stepKind, emailStep_eq hx hi, numberStep_eq hx _ hi]
  cases kind with
  | email => rfl
  | card =>
      rw [spanAt, cardAt]
      cases digitCandidate x i with
      | none => rfl
      | some pair =>
          simp only [Option.bind_some, numberKind]
          cases isCardCandidate (slice x pair.1 pair.2) <;> rfl
  | ssn =>
      rw [spanAt, ssnAt]
      cases digitCandidate x i with
      | none => rfl
      | some pair =>
          simp only [Option.bind_some, numberKind]
          cases isSsnCandidate (slice x pair.1 pair.2) <;> rfl

/-! ### Whole scans -/

theorem lt_after {hit : ℕ → Option Span} (hprogress : ∀ i span, hit i = some span → i < span.stop)
    (i : ℕ) : i < (after i (hit i)).1 := by
  cases hhit : hit i with
  | none => exact Nat.lt_succ_self i
  | some span => exact hprogress i span hhit

/-- A loop whose rounds do not fail and move on ends, and gives the scan. -/
theorem checkedScan_eq {step : ℕ → Except Fault (ℕ × Option Span)} {hit : ℕ → Option Span} {len : ℕ}
    (hstep : ∀ i, i < len → step i = .ok (after i (hit i)))
    (hprogress : ∀ i span, hit i = some span → i < span.stop) {fuel i : ℕ} (hfuel : len ≤ i + fuel) :
    checkedScan step len (fuel + 1) i = .ok (scan Span.stop hit len fuel i) := by
  induction fuel generalizing i with
  | zero =>
      rw [checkedScan, if_neg (by omega)]
      rfl
  | succ fuel ih =>
      rw [checkedScan, scan]
      by_cases hi : i < len
      · have hgo := lt_after hprogress i
        rw [if_pos hi, if_pos hi, hstep i hi, ok_bind]
        dsimp only
        rw [ih (by omega), ok_bind]
        cases hhit : hit i <;> rfl
      · rw [if_neg hi, if_neg hi]
        rfl

/-- The span lies in the text, and its ends split no character. -/
structure InText (x : Bytes) (span : Span) : Prop where
  le : span.start ≤ span.stop
  stop_le : span.stop ≤ x.length
  boundary : IsCharBoundary x span.start ∧ IsCharBoundary x span.stop

theorem IsToken.inText (hx : isUtf8 x = true) {span : Span} (h : IsToken x span) : InText x span :=
  ⟨h.lt.le, h.stop_le, h.isCharBoundary hx⟩

theorem isCharBoundary_length : IsCharBoundary x x.length := by
  simp [IsCharBoundary, holdsAt]

theorem checkedRewrite_eq {pos : ℕ} {spans : List Span} (hpos : pos ≤ x.length)
    (hboundary : IsCharBoundary x pos) (hspans : ∀ span ∈ spans, InText x span) :
    checkedRewrite x pos spans = .ok (rewriteMarkers x pos spans) := by
  induction spans generalizing pos with
  | nil => exact strSlice_eq hpos le_rfl ⟨hboundary, isCharBoundary_length⟩
  | cons span spans ih =>
      obtain ⟨hspan, hrest⟩ := List.forall_mem_cons.mp hspans
      rw [checkedRewrite, rewriteMarkers_cons]
      split
      · exact ih hpos hboundary hrest
      · next hstart =>
        have hle := hspan.le
        have hstop := hspan.stop_le
        rw [strSlice_eq (by omega) (by omega) ⟨hboundary, hspan.boundary.1⟩, ok_bind,
          ih hstop hspan.boundary.2 hrest]
        rfl

theorem mem_of_mem_dedupByStart {spans : List Span} {span : Span} (h : span ∈ dedupByStart spans) :
    span ∈ spans := by
  have hafter : ∀ (rest : List Span) (last : Span), span ∈ dedupAfter last rest →
      span ∈ last :: rest := by
    intro rest
    induction rest with
    | nil => exact fun _ hspan => hspan
    | cons head rest ih =>
        intro last hspan
        rw [dedupAfter] at hspan
        split at hspan
        · have := ih last hspan
          simp only [List.mem_cons] at this ⊢
          tauto
        · obtain rfl | hspan := List.mem_cons.mp hspan
          · exact List.mem_cons_self
          · exact List.mem_cons_of_mem _ (ih head hspan)
  cases spans with
  | nil => exact h
  | cons head rest => exact hafter rest head h

theorem checkedReplaceSpans_eq (hx : isUtf8 x = true) {spans : List Span}
    (hspans : ∀ span ∈ spans, InText x span) :
    checkedReplaceSpans x spans = .ok (replaceSpans x spans) := by
  have hkept : ∀ span ∈ dedupByStart (sortSpans spans), InText x span := fun span hspan =>
    hspans span (mem_sortSpans.mp (mem_of_mem_dedupByStart hspan))
  rw [checkedReplaceSpans, checkedRewrite_eq (Nat.zero_le _) (isCharBoundary_zero hx) hkept]
  rfl

/-- On UTF-8 text no scan panics and every scan ends: each round moves on, each index
and slice is in order, and the spans lie in the text. -/
theorem scanners_panic_free (x : Bytes) (hx : isUtf8 x = true) :
    (checkedFindAllSpans x = .ok (findAllSpans x) ∧
      checkedReplaceSpans x (findAllSpans x) = .ok (redactPii x) ∧
      (∀ span ∈ findAllSpans x, InText x span) ∧
      ∀ i < x.length, ∃ next found, stepAll x i = .ok (next, found) ∧ i < next) ∧
    ∀ kind, checkedFindSpans x kind = .ok (findSpans x kind) ∧
      checkedReplaceSpans x (findSpans x kind) = .ok (replaceSpans x (findSpans x kind)) ∧
      (∀ span ∈ findSpans x kind, InText x span) ∧
      ∀ i < x.length, ∃ next found, stepKind kind x i = .ok (next, found) ∧ i < next := by
  have hall : ∀ span ∈ findAllSpans x, InText x span := fun span hspan =>
    (isToken_of_mem_findAllSpans hspan).inText hx
  refine ⟨⟨checkedScan_eq (fun i hi => stepAll_eq hx hi) anyAt_progress (by omega),
    checkedReplaceSpans_eq hx hall, hall,
    fun i hi => ⟨_, _, stepAll_eq hx hi, lt_after anyAt_progress i⟩⟩, fun kind => ?_⟩
  have hspans : ∀ span ∈ findSpans x kind, InText x span := fun span hspan =>
    (mem_findSpans.mp hspan).2.inText hx
  exact ⟨checkedScan_eq (fun i hi => stepKind_eq hx kind hi) spanAt_progress (by omega),
    checkedReplaceSpans_eq hx hspans, hspans,
    fun i hi => ⟨_, _, stepKind_eq hx kind hi, lt_after spanAt_progress i⟩⟩

def accentedRecord : Bytes := utf8Bytes "é@b.ü 123-45-6789"

theorem accentedRecord_panic_free :
    isUtf8 accentedRecord = true ∧
      findAllSpans accentedRecord = [⟨0, 7, .email⟩, ⟨8, 19, .ssn⟩] ∧
      checkedFindAllSpans accentedRecord = .ok (findAllSpans accentedRecord) := by
  have hutf8 : isUtf8 accentedRecord = true := by decide +kernel
  exact ⟨hutf8, by decide +kernel, (scanners_panic_free accentedRecord hutf8).1.1⟩

end Maskura.Redaction
