import Maskura.Lib.Utf8
import Maskura.Redaction.Tokens
import Mathlib.Data.List.Pairwise

/-!
What the replacement does to the spans of a scan: which of them it writes, and
the text it makes from them, piece by piece.
-/

namespace Maskura.Redaction

open Lib Lib.Run Lib.Utf8

/-- The spans the loop writes, in the order in which it writes them. -/
def written : ℕ → List Span → List Span
  | _, [] => []
  | pos, span :: rest =>
      if span.start < pos then written pos rest else span :: written span.stop rest

/-- The spans `replace_spans` puts a marker in the place of. -/
def replacedSpans (spans : List Span) : List Span :=
  written 0 (dedupByStart (sortSpans spans))

/-- A text cut at spans: stretches that are copied, and spans. -/
inductive Piece
  | clear (start stop : ℕ)
  | hidden (span : Span)
  deriving DecidableEq

/-- The pieces a text of length `len` falls into, from `pos` on. -/
def pieces (len : ℕ) : ℕ → List Span → List Piece
  | pos, [] => [.clear pos len]
  | pos, span :: rest => .clear pos span.start :: .hidden span :: pieces len span.stop rest

/-- What a piece stands for in the text. -/
def Piece.source (x : Bytes) : Piece → Bytes
  | .clear start stop => slice x start stop
  | .hidden span => slice x span.start span.stop

/-- What becomes of a piece when spans are replaced by their markers. -/
def Piece.redacted (x : Bytes) : Piece → Bytes
  | .clear start stop => slice x start stop
  | .hidden span => span.kind.marker

/-- The pieces follow each other without a gap from `pos` to `stop`. -/
def Tiles (stop : ℕ) : ℕ → List Piece → Prop
  | pos, [] => pos = stop
  | pos, .clear a b :: rest => a = pos ∧ a ≤ b ∧ Tiles stop b rest
  | pos, .hidden span :: rest => span.start = pos ∧ span.start ≤ span.stop ∧ Tiles stop span.stop rest

variable {x : Bytes} {spans : List Span}

/-! ### The spans written -/

theorem mem_of_mem_written {pos : ℕ} {span : Span} (h : span ∈ written pos spans) :
    span ∈ spans := by
  induction spans generalizing pos with
  | nil => simp [written] at h
  | cons head rest ih =>
      rw [written] at h
      split at h
      · exact .tail _ (ih h)
      · rcases List.mem_cons.mp h with rfl | h
        · exact List.mem_cons_self
        · exact .tail _ (ih h)

theorem le_start_of_mem_written {pos : ℕ} (hspans : ∀ span ∈ spans, span.start ≤ span.stop)
    {span : Span} (h : span ∈ written pos spans) : pos ≤ span.start := by
  induction spans generalizing pos with
  | nil => simp [written] at h
  | cons head rest ih =>
      have hrest := fun span hspan => hspans span (List.mem_cons_of_mem _ hspan)
      rw [written] at h
      split at h
      · exact ih hrest h
      next hge =>
        rcases List.mem_cons.mp h with rfl | h
        · omega
        · have := ih hrest h
          have := hspans head List.mem_cons_self
          omega

/-- What is written does not overlap. -/
theorem written_pairwise {pos : ℕ} (hspans : ∀ span ∈ spans, span.start ≤ span.stop) :
    (written pos spans).Pairwise (fun a b => a.stop ≤ b.start) := by
  induction spans generalizing pos with
  | nil => exact .nil
  | cons head rest ih =>
      have hrest := fun span hspan => hspans span (List.mem_cons_of_mem _ hspan)
      rw [written]
      split
      · exact ih hrest
      · exact .cons (fun span hspan => le_start_of_mem_written hrest hspan) (ih hrest)

/-- A span is passed over only for one before it that is written and reaches
into it. -/
theorem mem_written_or_passed {pos : ℕ} (hsorted : spans.Pairwise Span.before) {span : Span}
    (h : span ∈ spans) :
    span ∈ written pos spans ∨ span.start < pos ∨
      ∃ other ∈ written pos spans, other.before span ∧ span.start < other.stop := by
  induction spans generalizing pos with
  | nil => simp at h
  | cons head rest ih =>
      obtain ⟨hhead, hrest⟩ := List.pairwise_cons.mp hsorted
      rw [written]
      split
      next hlt =>
        rcases List.mem_cons.mp h with rfl | h
        · exact .inr (.inl hlt)
        · exact ih hrest h
      next hge =>
        rcases List.mem_cons.mp h with rfl | h
        · exact .inl List.mem_cons_self
        · rcases ih hrest h with hmem | hlt | ⟨other, hmem, hother⟩
          · exact .inl (.tail _ hmem)
          · exact .inr (.inr ⟨head, List.mem_cons_self, hhead span h, hlt⟩)
          · exact .inr (.inr ⟨other, .tail _ hmem, hother⟩)

/-- Of spans with one start the loop writes the first anyway, so that removing
the others before changes nothing. -/
theorem written_dedupByStart {pos : ℕ} (hspans : ∀ span ∈ spans, span.start < span.stop) :
    written pos (dedupByStart spans) = written pos spans := by
  have hafter : ∀ (rest : List Span) (last : Span) (pos : ℕ), last.start < last.stop →
      (∀ span ∈ rest, span.start < span.stop) →
      written pos (dedupAfter last rest) = written pos (last :: rest) := by
    intro rest
    induction rest with
    | nil => exact fun _ _ _ _ => rfl
    | cons head rest ih =>
        intro last pos hlast hall
        obtain ⟨hhead, hrest⟩ := List.forall_mem_cons.mp hall
        rw [dedupAfter]
        split
        next heq =>
          rw [ih last pos hlast hrest]
          simp only [written]
          split
          next hlt => rw [if_pos (heq ▸ hlt)]
          next => rw [if_pos (heq ▸ hlast)]
        next =>
          rw [written, written]
          split
          · exact ih head pos hhead hrest
          · rw [ih head last.stop hhead hrest]
  cases spans with
  | nil => rfl
  | cons head rest =>
      obtain ⟨hhead, hrest⟩ := List.forall_mem_cons.mp hspans
      exact hafter rest head pos hhead hrest

instance : IsTrans Span Span.before :=
  ⟨fun a b c hab hbc => by simp only [Span.before] at *; omega⟩

instance : Std.Total Span.before :=
  ⟨fun a b => by simp only [Span.before]; omega⟩

theorem sortSpans_pairwise : (sortSpans spans).Pairwise Span.before :=
  List.pairwise_insertionSort Span.before spans

theorem mem_sortSpans {span : Span} : span ∈ sortSpans spans ↔ span ∈ spans :=
  List.mem_insertionSort Span.before

/-! ### The text written -/

/-- The loop over spans, as pieces and what is written for a span. -/
theorem rewrite_eq {σ : Type} (write : σ → Span → Bytes × σ) (s : σ) (pos : ℕ) :
    rewrite write x s pos spans = rewrite write x s pos (written pos spans) := by
  induction spans generalizing s pos with
  | nil => rfl
  | cons head rest ih =>
      rw [rewrite, written]
      split
      · exact ih s pos
      next hge => rw [rewrite, if_neg hge, ← ih]

theorem rewrite_marker {pos : ℕ} (hordered : ∀ span ∈ spans, pos ≤ span.start)
    (hpairwise : spans.Pairwise (fun a b => a.stop ≤ b.start)) :
    rewrite (fun _ span => (span.kind.marker, ())) x () pos spans =
      (pieces x.length pos spans).flatMap (Piece.redacted x) := by
  induction spans generalizing pos with
  | nil => simp [rewrite, pieces, Piece.redacted]
  | cons head rest ih =>
      obtain ⟨hhead, hrest⟩ := List.pairwise_cons.mp hpairwise
      have := hordered head List.mem_cons_self
      rw [rewrite, if_neg (by omega), ih hhead hrest]
      simp [pieces, Piece.redacted]

theorem tiles_pieces {len pos : ℕ} (hordered : ∀ span ∈ spans, pos ≤ span.start)
    (hspans : ∀ span ∈ spans, span.start ≤ span.stop ∧ span.stop ≤ len) (hpos : pos ≤ len)
    (hpairwise : spans.Pairwise (fun a b => a.stop ≤ b.start)) :
    Tiles len pos (pieces len pos spans) := by
  induction spans generalizing pos with
  | nil => exact ⟨rfl, hpos, rfl⟩
  | cons head rest ih =>
      obtain ⟨hhead, hrest⟩ := List.pairwise_cons.mp hpairwise
      obtain ⟨⟨hle, hlen⟩, hall⟩ := List.forall_mem_cons.mp hspans
      exact ⟨rfl, hordered head List.mem_cons_self, rfl, hle, ih hhead hall hlen hrest⟩

theorem Tiles.le {stop pos : ℕ} {parts : List Piece} (h : Tiles stop pos parts) : pos ≤ stop := by
  induction parts generalizing pos with
  | nil => exact Nat.le_of_eq h
  | cons part rest ih =>
      cases part with
      | clear a b => have := ih h.2.2; have := h.1; have := h.2.1; omega
      | hidden span => have := ih h.2.2; have := h.1; have := h.2.1; omega

/-- Pieces without a gap make up the text between their ends. -/
theorem flatMap_source {stop pos : ℕ} {parts : List Piece} (h : Tiles stop pos parts) :
    parts.flatMap (Piece.source x) = slice x pos stop := by
  induction parts generalizing pos with
  | nil =>
      obtain rfl : pos = stop := h
      rw [List.flatMap_nil, eq_comm, ← List.length_eq_zero_iff, length_slice]
      omega
  | cons part rest ih =>
      cases part with
      | clear a b =>
          obtain ⟨rfl, hab, hrest⟩ := h
          rw [List.flatMap_cons, ih hrest]
          exact slice_append_slice hab hrest.le
      | hidden span =>
          obtain ⟨rfl, hab, hrest⟩ := h
          rw [List.flatMap_cons, ih hrest]
          exact slice_append_slice hab hrest.le

/-! ### The combined pass -/

/-- The spans the combined pass puts a marker in the place of. -/
def hiddenSpans (x : Bytes) : List Span := replacedSpans (findAllSpans x)

theorem hiddenSpans_eq : hiddenSpans x = written 0 (sortSpans (findAllSpans x)) :=
  written_dedupByStart fun _ hspan =>
    (isToken_of_mem_findAllSpans (mem_sortSpans.mp hspan)).lt

theorem mem_findAllSpans_of_hidden {span : Span} (h : span ∈ hiddenSpans x) :
    span ∈ findAllSpans x := by
  rw [hiddenSpans_eq] at h
  exact mem_sortSpans.mp (mem_of_mem_written h)

theorem isToken_of_hidden {span : Span} (h : span ∈ hiddenSpans x) : IsToken x span :=
  isToken_of_mem_findAllSpans (mem_findAllSpans_of_hidden h)

theorem hiddenSpans_pairwise : (hiddenSpans x).Pairwise (fun a b => a.stop ≤ b.start) := by
  rw [hiddenSpans_eq]
  exact written_pairwise fun span hspan =>
    (isToken_of_mem_findAllSpans (mem_sortSpans.mp hspan)).lt.le

/-- Hidden spans that meet are the same. -/
theorem hidden_unique {span span' : Span} (h : span ∈ hiddenSpans x) (h' : span' ∈ hiddenSpans x)
    {k : ℕ} (hk : span.start ≤ k ∧ k < span.stop) (hk' : span'.start ≤ k ∧ k < span'.stop) :
    span = span' := by
  by_contra hne
  have hsymm : Std.Symm fun a b : Span => a.stop ≤ b.start ∨ b.stop ≤ a.start := ⟨fun _ _ => Or.symm⟩
  have hpairwise : (hiddenSpans x).Pairwise fun a b => a.stop ≤ b.start ∨ b.stop ≤ a.start :=
    hiddenSpans_pairwise.imp Or.inl
  have hapart := hpairwise.forall h h' hne
  omega

/-- A token is hidden unless a token before it is hidden and reaches into it. -/
theorem hidden_or_passed {span : Span} (h : span ∈ findAllSpans x) :
    span ∈ hiddenSpans x ∨
      ∃ other ∈ hiddenSpans x, other.before span ∧ span.start < other.stop := by
  rw [hiddenSpans_eq]
  rcases @mem_written_or_passed _ 0 sortSpans_pairwise _ (mem_sortSpans.mpr h) with
    hmem | hlt | hother
  · exact .inl hmem
  · omega
  · exact .inr hother

theorem IsToken.stop_le {span : Span} (h : IsToken x span) : span.stop ≤ x.length := by
  by_cases hkind : span.kind = .email
  · exact (h.isAddress hkind).run.le_length
  · have hnum := h.isNumber hkind
    have := holdsAt_lt hnum.last
    have := hnum.lt
    omega

theorem tiles_hidden : Tiles x.length 0 (pieces x.length 0 (hiddenSpans x)) :=
  tiles_pieces (fun _ _ => Nat.zero_le _)
    (fun _ hspan => ⟨(isToken_of_hidden hspan).lt.le, (isToken_of_hidden hspan).stop_le⟩)
    (Nat.zero_le _) hiddenSpans_pairwise

/-- The combined pass copies what lies between the hidden spans and writes their
markers. -/
theorem redactPii_eq :
    redactPii x = (pieces x.length 0 (hiddenSpans x)).flatMap (Piece.redacted x) := by
  have hrewrite : rewrite (fun _ span => (span.kind.marker, ())) x () 0
      (dedupByStart (sortSpans (findAllSpans x))) =
      (pieces x.length 0 (hiddenSpans x)).flatMap (Piece.redacted x) := by
    rw [rewrite_eq]
    exact rewrite_marker (fun _ _ => Nat.zero_le _) hiddenSpans_pairwise
  rw [redactPii, replaceSpans]
  simp only [hrewrite]
  split
  next heq => exact heq.symm
  next => rfl

/-! ### Cutting a text -/

theorem ascii_of_boundary {c : UInt8} (h : isBoundary c = true) : c < 128 := by
  simp only [isBoundary, Bool.or_eq_true, beq_iff_eq] at h
  rcases h with (((((h | h) | h) | h) | h) | h) | h <;> (subst h; decide)

theorem ascii_of_digit {c : UInt8} (h : isAsciiDigit c = true) : c < 128 := by
  simp only [isAsciiDigit, Bool.and_eq_true, decide_eq_true_eq] at h
  exact UInt8.lt_of_le_of_lt h.2 (by decide)

/-- The text can be cut at `k`: no character is split there. -/
def IsCharBoundary (x : Bytes) (k : ℕ) : Prop := holdsAt isContinuation x k = false

theorem isCharBoundary_of_ascii {k : ℕ} {c : UInt8} (hc : x[k]? = some c) (hascii : c < 128) :
    IsCharBoundary x k := by
  have hnot : ¬ 128 ≤ c := by rwa [UInt8.not_le]
  simp [IsCharBoundary, holdsAt, hc, isContinuation, hnot]

theorem isCharBoundary_after_ascii (hx : isUtf8 x = true) {k : ℕ} {c : UInt8}
    (hc : x[k]? = some c) (hascii : c < 128) : IsCharBoundary x (k + 1) := by
  rw [IsCharBoundary, Bool.eq_false_iff]
  intro hnext
  obtain ⟨next, hget, hcont⟩ := holdsAt_eq_true.mp hnext
  rw [not_continuation_of_ascii hx hc hascii hget] at hcont
  exact absurd hcont (by simp)

theorem isCharBoundary_zero (hx : isUtf8 x = true) : IsCharBoundary x 0 := by
  rw [IsCharBoundary, Bool.eq_false_iff]
  intro hzero
  obtain ⟨first, hget, hcont⟩ := holdsAt_eq_true.mp hzero
  rw [head_not_continuation hx (by rw [List.head?_eq_getElem?]; exact hget)] at hcont
  exact absurd hcont (by simp)

/-- The ends of a maximal run of bytes other than boundaries split no character. -/
theorem isCharBoundary_of_wordRun (hx : isUtf8 x = true) {a b : ℕ} (hrun : IsRun isWordByte x a b) :
    IsCharBoundary x a ∧ IsCharBoundary x b := by
  have hboundary : ∀ {k : ℕ} {c : UInt8}, holdsAt isWordByte x k = false → x[k]? = some c →
      c < 128 := by
    intro k c hk hc
    simp only [holdsAt, hc, Option.any_some, isWordByte, Bool.not_eq_false'] at hk
    exact ascii_of_boundary hk
  constructor
  · rcases Nat.eq_zero_or_pos a with hzero | hpos
    · rw [hzero]
      exact isCharBoundary_zero hx
    · obtain ⟨k, hk⟩ : ∃ k, k + 1 = a := ⟨a - 1, by omega⟩
      have hlen : k < x.length := by have := hrun.le_length; have := hrun.lt; omega
      rw [← hk]
      exact isCharBoundary_after_ascii hx (List.getElem?_eq_getElem hlen)
        (hboundary (hrun.left k hk) (List.getElem?_eq_getElem hlen))
  · rcases Nat.lt_or_ge b x.length with hlen | hlen
    · exact isCharBoundary_of_ascii (List.getElem?_eq_getElem hlen)
        (hboundary hrun.right (List.getElem?_eq_getElem hlen))
    · exact Bool.eq_false_iff.mpr fun hat => by have := holdsAt_lt hat; omega

/-- A number starts and ends with a digit, so its ends split no character. -/
theorem IsNumber.isCharBoundary (hx : isUtf8 x = true) {c d : ℕ} (hnum : IsNumber x c d) :
    IsCharBoundary x c ∧ IsCharBoundary x d := by
  obtain ⟨first, hfirst, hdigit⟩ := holdsAt_eq_true.mp hnum.first
  obtain ⟨last, hlast, hdigit'⟩ := holdsAt_eq_true.mp hnum.last
  refine ⟨isCharBoundary_of_ascii hfirst (ascii_of_digit hdigit), ?_⟩
  have hafter := isCharBoundary_after_ascii hx hlast (ascii_of_digit hdigit')
  rwa [show d - 1 + 1 = d by have := hnum.lt; omega] at hafter

/-- Every slice the code takes of a text is one: the ends of a token split no
character. -/
theorem IsToken.isCharBoundary (hx : isUtf8 x = true) {span : Span} (h : IsToken x span) :
    IsCharBoundary x span.start ∧ IsCharBoundary x span.stop := by
  by_cases hkind : span.kind = .email
  · exact isCharBoundary_of_wordRun hx (h.isAddress hkind).run
  · exact (h.isNumber hkind).isCharBoundary hx

end Maskura.Redaction
