import Maskura.Lib.Cut
import Maskura.Redaction.Replace

/-!
Redaction does not look across the separators of records and fields. A separator
belongs to no token and ends every walk, so the spans of a text with a separator
in it are those of the two parts.
-/

namespace Maskura.Redaction

open Lib.Run Lib.Scan Lib.Cut

/-- The separators of lines, columns and pairs. -/
inductive Separator
  | newline
  | carriageReturn
  | tab
  | comma
  | doubleQuote
  | ampersand
  deriving DecidableEq

def Separator.byte : Separator → UInt8
  | .newline => '\n'.toUInt8
  | .carriageReturn => '\r'.toUInt8
  | .tab => '\t'.toUInt8
  | .comma => ','.toUInt8
  | .doubleQuote => '\x22'.toUInt8
  | .ampersand => '&'.toUInt8

/-- The byte stands in no number and in no address. -/
structure Separates (c : UInt8) : Prop where
  token : isTokenByte c = false
  word : isWordByte c = false

theorem Separator.separates (separator : Separator) : Separates separator.byte := by
  cases separator <;> exact ⟨by decide, by decide⟩

theorem Separates.digit {c : UInt8} (h : Separates c) : isAsciiDigit c = false := by
  have htoken := h.token
  rw [isTokenByte, Bool.or_eq_false_iff, Bool.or_eq_false_iff] at htoken
  exact htoken.1.1

theorem Separates.at {c : UInt8} (h : Separates c) : isAt c = false := by
  by_contra hat
  have hword := isWordByte_of_isAt c (Bool.not_eq_false _ ▸ hat)
  rw [h.word] at hword
  cases hword

/-- The span in a text with `n` bytes more in front. -/
def Span.shift (n : ℕ) (span : Span) : Span := ⟨n + span.start, n + span.stop, span.kind⟩

def shiftPair (n : ℕ) (pair : ℕ × ℕ) : ℕ × ℕ := (n + pair.1, n + pair.2)

/-- What the combined scan recognises at a position. -/
def anyAt (x : Bytes) (i : ℕ) : Option Span := (emailAt x i).or ((cardAt x i).or (ssnAt x i))

variable {a b : Bytes} {c : UInt8} {i : ℕ}

/-! ### Before the separator -/

section Left

theorem findDigitToken_left (hc : Separates c) (hi : i ≤ a.length) :
    findDigitToken (a ++ c :: b) i = findDigitToken a i := by
  have hle := onWhile_le (p := isTokenByte) (x := a) hi
  rw [findDigitToken, findDigitToken]
  simp only [backWhile_left hi, onWhile_stops_at_cut hc.token hi, slice_left hle]

theorem findEmailBoundary_left (hc : Separates c) (hi : i < a.length) :
    findEmailBoundary (a ++ c :: b) i = findEmailBoundary a i := by
  rw [findEmailBoundary, findEmailBoundary]
  simp only [backWhile_left hi.le, onWhile_stops_at_cut hc.word (Nat.succ_le_of_lt hi)]

theorem le_of_findDigitToken {x : Bytes} {s e : ℕ} (h : findDigitToken x i = some (s, e))
    (hi : i ≤ x.length) : e ≤ x.length := by
  have hle := onWhile_le (p := isTokenByte) (x := x) hi
  simp only [findDigitToken] at h
  split at h
  · cases h
  · split at h
    · cases h
    · cases h
      exact hle

theorem digitCandidate_left (hc : Separates c) (hi : i < a.length) :
    digitCandidate (a ++ c :: b) i = digitCandidate a i := by
  rw [digitCandidate, digitCandidate, holdsAt_left hi, findDigitToken_left hc hi.le]
  cases htoken : findDigitToken a i with
  | none => rfl
  | some pair =>
      have hle := le_of_findDigitToken htoken hi.le
      simp only [Option.bind_some, onWhile_left hle, backWhile_left hle]

theorem emailAt_left (hc : Separates c) (hi : i < a.length) :
    emailAt (a ++ c :: b) i = emailAt a i := by
  rw [emailAt, emailAt, holdsAt_left hi, findEmailBoundary_left hc hi]
  cases hboundary : findEmailBoundary a i with
  | none => rfl
  | some pair =>
      have hle : pair.2 ≤ a.length := by
        simp only [findEmailBoundary] at hboundary
        split at hboundary
        · cases hboundary
          exact onWhile_le (Nat.succ_le_of_lt hi)
        · cases hboundary
      simp only [Option.bind_some, slice_left hle]

theorem le_of_digitCandidate {x : Bytes} {s e : ℕ} (h : digitCandidate x i = some (s, e)) :
    e ≤ x.length := by
  have hnum := (digitCandidate_eq_some.mp h).2.2.2
  have := holdsAt_lt hnum.last
  have := hnum.lt
  omega

theorem anyAt_left (hc : Separates c) (hi : i < a.length) :
    anyAt (a ++ c :: b) i = anyAt a i := by
  rw [anyAt, anyAt, emailAt_left hc hi]
  simp only [cardAt, ssnAt, digitCandidate_left hc hi]
  cases hcandidate : digitCandidate a i with
  | none => rfl
  | some pair => simp only [Option.bind_some, slice_left (le_of_digitCandidate hcandidate)]

end Left

/-! ### Behind the separator -/

section Right

theorem length_cut : (a ++ c :: b).length = a.length + 1 + b.length := by
  simp only [List.length_append, List.length_cons]
  omega

theorem onWhile_end (p : UInt8 → Bool) (i : ℕ) :
    onWhile p (a ++ c :: b) (a ++ c :: b).length (a.length + 1 + i) =
      a.length + 1 + onWhile p b b.length i := by
  rw [length_cut, onWhile_right]

theorem findDigitToken_right (hc : Separates c) (i : ℕ) :
    findDigitToken (a ++ c :: b) (a.length + 1 + i) =
      (findDigitToken b i).map (shiftPair (a.length + 1)) := by
  rw [findDigitToken, findDigitToken]
  simp only [backWhile_stops_at_cut hc.token, onWhile_end, slice_right, Nat.add_le_add_iff_left]
  split
  · rfl
  · split <;> rfl

theorem findEmailBoundary_right (hc : Separates c) (i : ℕ) :
    findEmailBoundary (a ++ c :: b) (a.length + 1 + i) =
      (findEmailBoundary b i).map (shiftPair (a.length + 1)) := by
  rw [findEmailBoundary, findEmailBoundary]
  simp only [backWhile_stops_at_cut hc.word, Nat.add_assoc (a.length + 1) i 1, onWhile_end,
    Nat.add_lt_add_iff_left]
  split <;> rfl

theorem digitCandidate_right (hc : Separates c) (i : ℕ) :
    digitCandidate (a ++ c :: b) (a.length + 1 + i) =
      (digitCandidate b i).map (shiftPair (a.length + 1)) := by
  rw [digitCandidate, digitCandidate, holdsAt_right, findDigitToken_right hc]
  split
  · cases findDigitToken b i with
    | none => rfl
    | some pair =>
        simp only [Option.map_some, Option.bind_some, shiftPair, onWhile_right, backWhile_right,
          Nat.add_le_add_iff_left]
        split <;> rfl
  · rfl

theorem emailAt_right (hc : Separates c) (i : ℕ) :
    emailAt (a ++ c :: b) (a.length + 1 + i) = (emailAt b i).map (Span.shift (a.length + 1)) := by
  rw [emailAt, emailAt, holdsAt_right, findEmailBoundary_right hc]
  split
  · cases findEmailBoundary b i with
    | none => rfl
    | some pair =>
        simp only [Option.map_some, Option.bind_some, shiftPair, slice_right]
        split <;> rfl
  · rfl

/-- Both branches for numbers. -/
theorem numberAt_right (hc : Separates c) (valid : Bytes → Bool) (kind : PiiKind) (i : ℕ) :
    ((digitCandidate (a ++ c :: b) (a.length + 1 + i)).bind fun (s, e) =>
        if valid (slice (a ++ c :: b) s e) then some (⟨s, e, kind⟩ : Span) else none) =
      ((digitCandidate b i).bind fun (s, e) =>
        if valid (slice b s e) then some ⟨s, e, kind⟩ else none).map (Span.shift (a.length + 1)) := by
  rw [digitCandidate_right hc]
  cases digitCandidate b i with
  | none => rfl
  | some pair =>
      simp only [Option.map_some, Option.bind_some, shiftPair, slice_right]
      split <;> rfl

theorem anyAt_right (hc : Separates c) (i : ℕ) :
    anyAt (a ++ c :: b) (a.length + 1 + i) = (anyAt b i).map (Span.shift (a.length + 1)) := by
  rw [anyAt, anyAt, emailAt_right hc, cardAt, ssnAt, numberAt_right hc, numberAt_right hc,
    ← Option.map_or, ← Option.map_or, cardAt, ssnAt]

end Right

/-- At the separator itself nothing is recognised. -/
theorem anyAt_cut (hc : Separates c) : anyAt (a ++ c :: b) a.length = none := by
  simp [anyAt, emailAt, cardAt, ssnAt, digitCandidate, holdsAt_cut, hc.at, hc.digit]

theorem anyAt_progress {x : Bytes} (i : ℕ) (span : Span) (h : anyAt x i = some span) :
    i < span.stop :=
  (anyAt_eq_some.mp h).2.mem.2

/-- The spans of a text with a separator in it are those of the two parts. -/
theorem findAllSpans_cut (hc : Separates c) :
    findAllSpans (a ++ c :: b) =
      findAllSpans a ++ (findAllSpans b).map (Span.shift (a.length + 1)) := by
  have hlen : (a ++ c :: b).length = a.length + 1 + b.length := length_cut
  have hcut : findAllSpans (a ++ c :: b) = findAllSpans a ++
      scan Span.stop (anyAt (a ++ c :: b)) (a ++ c :: b).length (b.length + 1) a.length := by
    refine scan_append anyAt_progress (fun i hi => anyAt_left hc hi) (fun i span hi hspan => ?_)
      (by omega) (Nat.zero_le _) (by omega) (by omega) (by omega)
    rw [anyAt_left hc hi] at hspan
    exact (anyAt_eq_some.mp hspan).1.stop_le
  rw [hcut, scan, if_pos (by omega), anyAt_cut hc, hlen]
  exact congrArg (findAllSpans a ++ ·)
    (scan_shift (anyAt_right hc) (fun _ => rfl) b.length 0)

/-! ### Replacement -/

/-- The loop that puts markers in the place of spans. -/
def rewriteMarkers (x : Bytes) (pos : ℕ) (spans : List Span) : Bytes :=
  rewrite (fun _ span => (span.kind.marker, ())) x () pos spans

theorem rewriteMarkers_nil (x : Bytes) (pos : ℕ) : rewriteMarkers x pos [] = slice x pos x.length :=
  rfl

theorem rewriteMarkers_cons (x : Bytes) (pos : ℕ) (span : Span) (rest : List Span) :
    rewriteMarkers x pos (span :: rest) =
      if span.start < pos then rewriteMarkers x pos rest
      else slice x pos span.start ++ span.kind.marker ++ rewriteMarkers x span.stop rest :=
  rfl

/-- The replacement writes the sorted spans; those with the start of another are
passed over anyway. -/
theorem redactPii_eq_rewrite (x : Bytes) :
    redactPii x = rewriteMarkers x 0 (sortSpans (findAllSpans x)) := by
  have hdedup : written 0 (dedupByStart (sortSpans (findAllSpans x))) =
      written 0 (sortSpans (findAllSpans x)) := hiddenSpans_eq
  rw [redactPii, replaceSpans, rewrite_eq, hdedup, ← rewrite_eq]
  split
  next heq => exact heq.symm
  next => rfl

theorem rewriteMarkers_right (pos : ℕ) (spans : List Span) :
    rewriteMarkers (a ++ c :: b) (a.length + 1 + pos) (spans.map (Span.shift (a.length + 1))) =
      rewriteMarkers b pos spans := by
  induction spans generalizing pos with
  | nil => rw [List.map_nil, rewriteMarkers_nil, rewriteMarkers_nil, length_cut, slice_right]
  | cons span spans ih =>
      rw [List.map_cons, rewriteMarkers_cons, rewriteMarkers_cons]
      simp only [Span.shift, Nat.add_lt_add_iff_left, slice_right]
      rw [← ih pos, ← ih span.stop]

/-- The loop passes the separator between the spans of the two parts. -/
theorem rewriteMarkers_cut {pos : ℕ} (hpos : pos ≤ a.length) (spans later : List Span)
    (hspans : ∀ span ∈ spans, span.start ≤ a.length ∧ span.stop ≤ a.length) :
    rewriteMarkers (a ++ c :: b) pos (spans ++ later.map (Span.shift (a.length + 1))) =
      rewriteMarkers a pos spans ++ c :: rewriteMarkers b 0 later := by
  induction spans generalizing pos with
  | nil =>
      rw [List.nil_append, rewriteMarkers_nil]
      cases later with
      | nil => rw [List.map_nil, rewriteMarkers_nil, rewriteMarkers_nil, length_cut, slice_across hpos]
      | cons span later =>
          have hskip : ¬ (span.shift (a.length + 1)).start < pos := by
            simp only [Span.shift]
            omega
          rw [List.map_cons, rewriteMarkers_cons, if_neg hskip, rewriteMarkers_cons,
            if_neg (Nat.not_lt_zero _)]
          simp only [Span.shift]
          rw [slice_across hpos, ← rewriteMarkers_right (a := a) (c := c) span.stop later]
          simp only [List.append_assoc, List.cons_append]
  | cons span spans ih =>
      obtain ⟨⟨hstart, hstop⟩, hrest⟩ := List.forall_mem_cons.mp hspans
      rw [List.cons_append, rewriteMarkers_cons, rewriteMarkers_cons, slice_left hstart,
        ih hpos hrest, ih hstop hrest]
      split
      · rfl
      · simp only [List.append_assoc]

theorem before_shift (n : ℕ) (s t : Span) : s.before t ↔ (s.shift n).before (t.shift n) := by
  simp only [Span.before, Span.shift]
  omega

theorem redactPii_cut (hc : Separates c) :
    redactPii (a ++ c :: b) = redactPii a ++ c :: redactPii b := by
  have hsort : sortSpans (findAllSpans (a ++ c :: b)) =
      sortSpans (findAllSpans a) ++ (sortSpans (findAllSpans b)).map (Span.shift (a.length + 1)) := by
    rw [findAllSpans_cut hc, sortSpans, insertionSort_append, sortSpans, sortSpans,
      List.map_insertionSort _ _ _ _ fun s _ t _ => before_shift _ s t]
    intro s hs t ht
    obtain ⟨t, -, rfl⟩ := List.mem_map.mp ht
    have hstop := (isToken_of_mem_findAllSpans hs).stop_le
    have hlt := (isToken_of_mem_findAllSpans hs).lt
    exact .inl (by simp only [Span.shift]; omega)
  rw [redactPii_eq_rewrite, redactPii_eq_rewrite, redactPii_eq_rewrite, hsort]
  refine rewriteMarkers_cut (Nat.zero_le _) _ _ fun span hspan => ?_
  have htoken := isToken_of_mem_findAllSpans (mem_sortSpans.mp hspan)
  exact ⟨htoken.lt.le.trans htoken.stop_le, htoken.stop_le⟩

/-- Redaction is local to fields: what is redacted on one side of a separator does
not depend on the other side, so a document is redacted field by field. -/
theorem redactPii_local (separator : Separator) :
    (∀ a b : Bytes, redactPii (a ++ separator.byte :: b) =
      redactPii a ++ separator.byte :: redactPii b) ∧
    ∀ fields : List Bytes, redactPii ([separator.byte].intercalate fields) =
      [separator.byte].intercalate (fields.map redactPii) := by
  refine ⟨fun a b => redactPii_cut separator.separates, fun fields => ?_⟩
  induction fields with
  | nil => rfl
  | cons field fields ih =>
      cases fields with
      | nil => simp [List.intercalate]
      | cons next fields =>
          rw [List.intercalate_cons_cons, List.append_assoc, List.singleton_append,
            redactPii_cut separator.separates, ih, List.map_cons, List.map_cons, List.map_cons,
            List.intercalate_cons_cons, List.append_assoc, List.singleton_append]

end Maskura.Redaction
