import Maskura.Redaction.Strength
import Mathlib.Data.List.Chain

/-!
Redaction of what is redacted already. One pass looks at the text as it was:
a marker joins what stands on its two sides, and where it takes a part of a
number away the rest may be a number by itself. On texts in which the tokens
stand apart there is nothing left to find.
-/

namespace Maskura.Redaction

open Lib Lib.Run

/-! ### Where the bytes of the redacted text come from -/

/-- The origin of a byte of the redacted text: a position of the text, or a
position in the marker of a span. -/
inductive Cell
  | copy (k : ℕ)
  | mark (span : Span) (j : ℕ)

/-- The position of the text at which what the cell stands for begins. -/
def Cell.lo : Cell → ℕ
  | .copy k => k
  | .mark span _ => span.start

/-- The position of the text behind what the cell stands for. -/
def Cell.hi : Cell → ℕ
  | .copy k => k + 1
  | .mark span _ => span.stop

def Cell.byte? (x : Bytes) : Cell → Option UInt8
  | .copy k => x[k]?
  | .mark span j => span.kind.marker[j]?

def Piece.cells : Piece → List Cell
  | .clear start stop => (List.range' start (stop - start)).map .copy
  | .hidden span => (List.range' 0 span.kind.marker.length).map (.mark span)

/-- The origins of the bytes of the redacted text. -/
def cells (x : Bytes) : List Cell := (pieces x.length 0 (hiddenSpans x)).flatMap Piece.cells

/-- A cell and the next one: they belong to the marker of one span, or what they
stand for is adjacent in the text. -/
def Next (c d : Cell) : Prop :=
  c.hi = d.lo ∨ ∃ span j, c = .mark span j ∧ d = .mark span (j + 1)

variable {x : Bytes}

theorem Piece.map_cells {piece : Piece} (hpiece : ∀ a b, piece = .clear a b → b ≤ x.length) :
    piece.cells.map (Cell.byte? x) = (piece.redacted x).map some := by
  cases piece with
  | clear a b =>
      have hb := hpiece a b rfl
      apply List.ext_getElem?
      intro i
      simp only [Piece.cells, Piece.redacted, List.map_map, List.getElem?_map]
      rcases Nat.lt_or_ge i (b - a) with hi | hi
      · rw [List.getElem?_range' hi, getElem?_slice hi, List.getElem?_eq_getElem (by omega)]
        simp [Cell.byte?, List.getElem?_eq_getElem (show a + i < x.length by omega)]
      · rw [List.getElem?_eq_none (by simpa using hi),
          List.getElem?_eq_none (by rw [length_slice]; omega)]
        rfl
  | hidden span =>
      apply List.ext_getElem?
      intro i
      simp only [Piece.cells, Piece.redacted, List.map_map, List.getElem?_map]
      rcases Nat.lt_or_ge i span.kind.marker.length with hi | hi
      · rw [List.getElem?_range' hi, List.getElem?_eq_getElem hi]
        simp [Cell.byte?, List.getElem?_eq_getElem hi]
      · rw [List.getElem?_eq_none (by simpa using hi), List.getElem?_eq_none hi]
        rfl

theorem map_cells {pos : ℕ} {parts : List Piece} (h : Tiles x.length pos parts) :
    (parts.flatMap Piece.cells).map (Cell.byte? x) =
      (parts.flatMap (Piece.redacted x)).map some := by
  induction parts generalizing pos with
  | nil => rfl
  | cons part rest ih =>
      have hpart : part.cells.map (Cell.byte? x) = (part.redacted x).map some := by
        apply Piece.map_cells
        rintro a b rfl
        exact h.2.2.le
      have hrest : ∃ pos, Tiles x.length pos rest := by
        cases part with
        | clear a b => exact ⟨b, h.2.2⟩
        | hidden span => exact ⟨span.stop, h.2.2⟩
      obtain ⟨pos', hrest⟩ := hrest
      rw [List.flatMap_cons, List.flatMap_cons, List.map_append, List.map_append, hpart, ih hrest]

/-- The bytes of the redacted text are those of its cells. -/
theorem getElem?_redactPii (i : ℕ) : (redactPii x)[i]? = (cells x)[i]?.bind (Cell.byte? x) := by
  have hmap := congrArg (fun l : List (Option UInt8) => l[i]?) (map_cells (tiles_hidden (x := x)))
  simp only [List.getElem?_map] at hmap
  rw [redactPii_eq, cells]
  rcases hcell : (((pieces x.length 0 (hiddenSpans x)).flatMap Piece.cells))[i]? with _ | c
  · rw [hcell, Option.map_none, eq_comm, Option.map_eq_none_iff] at hmap
    rw [hmap, Option.bind_none]
  · rw [hcell, Option.map_some, eq_comm, Option.map_eq_some_iff] at hmap
    obtain ⟨byte, hbyte, hc⟩ := hmap
    rw [hbyte, Option.bind_some, hc]

theorem holdsAt_redactPii (p : UInt8 → Bool) (i : ℕ) :
    holdsAt p (redactPii x) i = (cells x)[i]?.any fun c => (c.byte? x).any p := by
  rw [holdsAt, getElem?_redactPii]
  cases (cells x)[i]? <;> rfl

/-- The cells lead from `pos` to `stop`. -/
structure Linked (pos stop : ℕ) (cs : List Cell) : Prop where
  chain : cs.IsChain Next
  first : ∀ c, cs.head? = some c → c.lo = pos
  last : ∀ c, cs.getLast? = some c → c.hi = stop
  empty : cs = [] → pos = stop

theorem Linked.append {a b c : ℕ} {cs ds : List Cell} (hcs : Linked a b cs) (hds : Linked b c ds) :
    Linked a c (cs ++ ds) := by
  refine ⟨List.isChain_append.mpr ⟨hcs.chain, hds.chain, fun u hu v hv => ?_⟩, ?_, ?_, ?_⟩
  · exact .inl ((hcs.last u hu).trans (hds.first v hv).symm)
  · intro u hu
    cases cs with
    | nil => exact (hds.first u hu).trans (hcs.empty rfl).symm
    | cons head rest => exact hcs.first u hu
  · intro u hu
    cases ds with
    | nil => exact (hcs.last u (by simpa using hu)).trans (hds.empty rfl)
    | cons head rest => exact hds.last u (by rwa [List.getLast?_append_cons] at hu)
  · intro hnil
    obtain ⟨h₁, h₂⟩ := List.append_eq_nil_iff.mp hnil
    exact (hcs.empty h₁).trans (hds.empty h₂)

theorem linked_clear {a b : ℕ} (hab : a ≤ b) : Linked a b (Piece.clear a b).cells := by
  refine ⟨?_, ?_, ?_, ?_⟩
  · refine List.isChain_map_of_isChain _ (fun k k' hk => ?_) (List.isChain_range' a (b - a) 1)
    exact .inl hk.symm
  · intro c hc
    simp only [Piece.cells, List.head?_map, List.head?_range', Option.map_eq_some_iff] at hc
    obtain ⟨k, hk, rfl⟩ := hc
    split at hk <;> simp_all [Cell.lo]
  · intro c hc
    simp only [Piece.cells, List.getLast?_map, List.getLast?_range', Option.map_eq_some_iff] at hc
    obtain ⟨k, hk, rfl⟩ := hc
    split at hk
    · simp at hk
    · simp only [Option.some.injEq] at hk
      simp only [Cell.hi]
      omega
  · intro hnil
    simp only [Piece.cells, List.map_eq_nil_iff, List.range'_eq_nil_iff] at hnil
    omega

theorem linked_hidden (span : Span) :
    Linked span.start span.stop (Piece.hidden span).cells := by
  refine ⟨?_, ?_, ?_, ?_⟩
  · refine List.isChain_map_of_isChain _ (fun j j' hj => ?_) (List.isChain_range' 0 _ 1)
    exact .inr ⟨span, j, rfl, by rw [hj]⟩
  · intro c hc
    obtain ⟨j, -, rfl⟩ := List.mem_map.mp (List.mem_of_head? hc)
    rfl
  · intro c hc
    obtain ⟨j, -, rfl⟩ := List.mem_map.mp (List.mem_of_getLast? hc)
    rfl
  · intro hnil
    simp only [Piece.cells, List.map_eq_nil_iff, List.range'_eq_nil_iff] at hnil
    have hmarker : ∀ kind : PiiKind, kind.marker.length ≠ 0 := by
      rintro (_ | _ | _) <;> decide +kernel
    exact absurd hnil (hmarker span.kind)

theorem linked_of_tiles {stop pos : ℕ} {parts : List Piece} (h : Tiles stop pos parts) :
    Linked pos stop (parts.flatMap Piece.cells) := by
  induction parts generalizing pos with
  | nil =>
      obtain rfl : pos = stop := h
      exact ⟨.nil, by simp, by simp, fun _ => rfl⟩
  | cons part rest ih =>
      rw [List.flatMap_cons]
      cases part with
      | clear a b =>
          obtain ⟨rfl, hab, hrest⟩ := h
          exact (linked_clear hab).append (ih hrest)
      | hidden span =>
          obtain ⟨rfl, -, hrest⟩ := h
          exact (linked_hidden span).append (ih hrest)

theorem linked_cells : Linked 0 x.length (cells x) := linked_of_tiles tiles_hidden

theorem next_cells {i : ℕ} {c d : Cell} (hc : (cells x)[i]? = some c)
    (hd : (cells x)[i + 1]? = some d) : Next c d := by
  obtain ⟨hi, rfl⟩ := List.getElem?_eq_some_iff.mp hc
  obtain ⟨hi', rfl⟩ := List.getElem?_eq_some_iff.mp hd
  exact List.isChain_iff_getElem.mp linked_cells.chain i hi'

theorem first_cell {c : Cell} (hc : (cells x)[0]? = some c) : c.lo = 0 :=
  linked_cells.first c (by rw [List.head?_eq_getElem?]; exact hc)

theorem last_cell {i : ℕ} {c : Cell} (hc : (cells x)[i]? = some c)
    (hend : (cells x)[i + 1]? = none) : c.hi = x.length := by
  refine linked_cells.last c ?_
  have hlen := List.getElem?_eq_none_iff.mp hend
  have hlt := (List.getElem?_eq_some_iff.mp hc).1
  rw [List.getLast?_eq_getElem?, show (cells x).length - 1 = i by omega]
  exact hc

theorem marker_bytes (kind : PiiKind) : ∀ byte ∈ kind.marker,
    isWordByte byte = true ∧ isTokenByte byte = false ∧ isAt byte = false ∧ isDot byte = false := by
  have hall : (kind.marker.all fun byte =>
      isWordByte byte && !isTokenByte byte && !isAt byte && !isDot byte) = true := by
    cases kind <;> decide
  simpa [and_assoc] using hall

theorem hidden_of_mark {span : Span} {j : ℕ} (h : Cell.mark span j ∈ cells x) :
    span ∈ hiddenSpans x := by
  have hmem : ∀ {pos : ℕ} {spans : List Span},
      Cell.mark span j ∈ (pieces x.length pos spans).flatMap Piece.cells → span ∈ spans := by
    intro pos spans
    induction spans generalizing pos with
    | nil => simp [pieces, Piece.cells]
    | cons head rest ih =>
        intro h
        simp only [pieces, List.flatMap_cons, Piece.cells, List.mem_append, List.mem_map,
          reduceCtorEq, and_false, exists_false, false_or, Cell.mark.injEq] at h
        rcases h with ⟨j', -, rfl, -⟩ | h
        · exact List.mem_cons_self
        · exact .tail _ (ih h)
  exact hmem h

/-- What is copied lies in no hidden span. -/
theorem copy_not_hidden {k : ℕ} (h : Cell.copy k ∈ cells x) {span : Span}
    (hspan : span ∈ hiddenSpans x) : k < span.start ∨ span.stop ≤ k := by
  have hout : ∀ {pos : ℕ} {spans : List Span}, (∀ span ∈ spans, pos ≤ span.start) →
      (∀ span ∈ spans, span.start ≤ span.stop) →
      spans.Pairwise (fun a b => a.stop ≤ b.start) →
      Cell.copy k ∈ (pieces x.length pos spans).flatMap Piece.cells →
      pos ≤ k ∧ ∀ span ∈ spans, k < span.start ∨ span.stop ≤ k := by
    intro pos spans
    induction spans generalizing pos with
    | nil =>
        intro _ _ _ h
        simp only [pieces, List.flatMap_cons, List.flatMap_nil, List.append_nil, Piece.cells,
          List.mem_map, Cell.copy.injEq, exists_eq_right, List.mem_range'_1] at h
        exact ⟨h.1, by simp⟩
    | cons head rest ih =>
        intro hordered hle hpairwise h
        obtain ⟨hhead, hrest⟩ := List.pairwise_cons.mp hpairwise
        have hpos := hordered head List.mem_cons_self
        have hheadLe := hle head List.mem_cons_self
        have hrestLe := fun span hspan => hle span (List.mem_cons_of_mem _ hspan)
        simp only [pieces, List.flatMap_cons, Piece.cells, List.mem_append, List.mem_map,
          Cell.copy.injEq, exists_eq_right, List.mem_range'_1, reduceCtorEq, and_false,
          exists_false, false_or] at h
        rcases h with h | h
        · refine ⟨h.1, List.forall_mem_cons.mpr ⟨.inl (by omega), fun span hspan => .inl ?_⟩⟩
          have := hhead span hspan
          omega
        · obtain ⟨hk, hall⟩ := ih hhead hrestLe hrest h
          exact ⟨by omega, List.forall_mem_cons.mpr ⟨.inr hk, hall⟩⟩
  exact (hout (fun _ _ => Nat.zero_le _) (fun _ hspan => (isToken_of_hidden hspan).lt.le)
    hiddenSpans_pairwise h).2 span hspan

/-! ### Texts whose tokens stand apart -/

/-- The byte belongs to a word, or to a number that is a token. -/
def Joined (x : Bytes) (k : ℕ) : Prop :=
  holdsAt isWordByte x k = true ∨
    ∃ number : Span, number.kind ≠ .email ∧ IsToken x number ∧ number.start ≤ k ∧ k < number.stop

/-- Where an address and a run of digits meet, the digits lie in the address, and a
token of digits does not begin it. No joined stretch with a token of digits looks like
an address, with a dot and, inside of it, an `@` that belongs to no address. -/
structure TokensApart (x : Bytes) : Prop where
  inside : NumbersInside x
  numbers : ∀ a b c d, IsAddress x a b → IsNumber x c d → a < d → c < b → a ≤ c ∧ d ≤ b
  words : ∀ s e, (∀ m, s ≤ m → m < e → Joined x m) →
    (∃ k, s < k ∧ k + 1 < e ∧ holdsAt isAt x k = true ∧ ∀ a b, IsAddress x a b → k < a ∨ b ≤ k) →
    (∃ k, s ≤ k ∧ k < e ∧ holdsAt isDot x k = true) →
    ∀ number : Span, number.kind ≠ .email → IsToken x number → s ≤ number.start → e < number.stop

theorem isWordByte_of_digit (c : UInt8) (h : isAsciiDigit c = true) : isWordByte c = true := by
  rw [isWordByte, Bool.not_eq_true', Bool.eq_false_iff]
  intro hboundary
  simp only [isBoundary, Bool.or_eq_true, beq_iff_eq] at hboundary
  rcases hboundary with (((((rfl | rfl) | rfl) | rfl) | rfl) | rfl) | rfl <;> exact absurd h (by decide)

/-- What a byte of a word in the redacted text stands for is joined. -/
theorem joined_of_cell {i : ℕ} {c : Cell} (hc : (cells x)[i]? = some c)
    (hword : holdsAt isWordByte (redactPii x) i = true) :
    c.lo < c.hi ∧ ∀ k, c.lo ≤ k → k < c.hi → Joined x k := by
  cases c with
  | copy k =>
      refine ⟨Nat.lt_succ_self k, fun j hj hj' => .inl ?_⟩
      obtain rfl : j = k := by simp only [Cell.lo, Cell.hi] at hj hj'; omega
      rw [holdsAt_redactPii, hc] at hword
      exact hword
  | mark span j =>
      have htoken := isToken_of_hidden (hidden_of_mark (List.mem_of_getElem? hc))
      refine ⟨htoken.lt, fun k hk hk' => ?_⟩
      by_cases hkind : span.kind = .email
      · exact .inl ((htoken.isAddress hkind).run.holds k hk hk')
      · exact .inr ⟨span, hkind, htoken, hk, hk'⟩

/-- Along a word of the redacted text. -/
theorem joined_between {i j : ℕ} (hij : i ≤ j) {c d : Cell} (hc : (cells x)[i]? = some c)
    (hd : (cells x)[j]? = some d)
    (hword : ∀ m, i ≤ m → m ≤ j → holdsAt isWordByte (redactPii x) m = true) :
    c.lo ≤ d.lo ∧ c.hi ≤ d.hi ∧ ∀ m, c.lo ≤ m → m < d.hi → Joined x m := by
  induction j, hij using Nat.le_induction generalizing d with
  | base =>
      obtain rfl := Option.some.inj (hc.symm.trans hd)
      exact ⟨le_rfl, le_rfl, (joined_of_cell hc (hword i le_rfl le_rfl)).2⟩
  | succ j hij ih =>
      have hlt : j < (cells x).length := by
        have := (List.getElem?_eq_some_iff.mp hd).1
        omega
      have hprev := List.getElem?_eq_getElem hlt
      obtain ⟨hlo, hhi, hjoined⟩ := ih hprev fun m hm hm' => hword m hm (by omega)
      have hprevLt := (joined_of_cell hprev (hword j hij (by omega))).1
      obtain ⟨hcell, hcellJoined⟩ := joined_of_cell hd (hword (j + 1) (by omega) le_rfl)
      rcases next_cells hprev hd with hnext | ⟨span, l, hmark, rfl⟩
      · refine ⟨by omega, by omega, fun m hm hm' => ?_⟩
        rcases Nat.lt_or_ge m d.lo with hin | hout
        · exact hjoined m hm (hnext ▸ hin)
        · exact hcellJoined m hout hm'
      · rw [hmark] at hlo hhi hjoined
        exact ⟨hlo, hhi, hjoined⟩

/-- A byte of the redacted text that no marker has is copied. -/
theorem copy_of_holdsAt {p : UInt8 → Bool} (hp : ∀ kind : PiiKind, ∀ byte ∈ kind.marker, p byte = false)
    {i : ℕ} (h : holdsAt p (redactPii x) i = true) :
    ∃ k, (cells x)[i]? = some (.copy k) ∧ holdsAt p x k = true := by
  rw [holdsAt_redactPii, Option.any_eq_true] at h
  obtain ⟨c, hc, hbyte⟩ := h
  cases c with
  | copy k => exact ⟨k, hc, hbyte⟩
  | mark span j =>
      obtain ⟨byte, hget, hb⟩ := (Option.any_eq_true _ _).mp hbyte
      rw [hp span.kind byte (List.mem_of_getElem? hget)] at hb
      exact absurd hb (by simp)

/-- A boundary that is joined lies inside of a number. -/
theorem number_of_boundary {m : ℕ} (hm : holdsAt isWordByte x m = false) (hjoined : Joined x m) :
    ∃ c d, IsNumber x c d ∧ c < m ∧ m + 1 < d := by
  rcases hjoined with hword | ⟨number, hkind, htoken, hs, he⟩
  · exact absurd hword (by simp [hm])
  · have hnum := htoken.isNumber hkind
    refine ⟨_, _, hnum, lt_of_le_of_ne hs ?_, lt_of_le_of_ne he ?_⟩
    · rintro rfl
      exact absurd (holdsAt_mono isWordByte_of_digit hnum.first) (by simp [hm])
    · intro heq
      have hlast := hnum.last
      rw [← heq, Nat.add_sub_cancel] at hlast
      exact absurd (holdsAt_mono isWordByte_of_digit hlast) (by simp [hm])

/-- What looks like an address in the redacted text has no marker. -/
theorem TokensApart.no_mark (h : TokensApart x) {a b j : ℕ} (haddr : IsAddress (redactPii x) a b)
    (haj : a ≤ j) (hjb : j < b) {span : Span} {l : ℕ} (hj : (cells x)[j]? = some (.mark span l)) :
    False := by
  have hcell : ∀ m, a ≤ m → m < b → ∃ c, (cells x)[m]? = some c := by
    intro m hm hm'
    have hword := haddr.run.holds m hm hm'
    rw [holdsAt_redactPii, Option.any_eq_true] at hword
    obtain ⟨c, hc, -⟩ := hword
    exact ⟨c, hc⟩
  have hbetween : ∀ {i j : ℕ} {c d : Cell}, a ≤ i → i ≤ j → j < b → (cells x)[i]? = some c →
      (cells x)[j]? = some d → c.lo ≤ d.lo ∧ c.hi ≤ d.hi ∧ ∀ m, c.lo ≤ m → m < d.hi → Joined x m :=
    fun hi hij hj hc hd => joined_between hij hc hd fun m hm hm' =>
      haddr.run.holds m (hi.trans hm) (hm'.trans_lt hj)
  have hlt := haddr.run.lt
  obtain ⟨first, hfirst⟩ := hcell a le_rfl hlt
  obtain ⟨last, hlast⟩ := hcell (b - 1) (by omega) (by omega)
  have hjoined := (hbetween le_rfl (by omega) (by omega) hfirst hlast).2.2
  obtain ⟨i, hai, hib, hat⟩ := haddr.inner
  obtain ⟨k, hi, hatk⟩ := copy_of_holdsAt (fun kind byte hb => (marker_bytes kind byte hb).2.2.1) hat
  -- the cells next to the `@` put it inside of the stretch
  have hlow : first.lo < k := by
    obtain ⟨c, hc⟩ := hcell (i - 1) (by omega) (by omega)
    have hle := (hbetween le_rfl (by omega) (by omega) hfirst hc).1
    have hpos := (joined_of_cell hc (haddr.run.holds _ (by omega) (by omega))).1
    rcases next_cells hc (by rwa [show i - 1 + 1 = i by omega]) with hnext | ⟨_, _, -, hmark⟩
    · exact hle.trans_lt (hpos.trans_eq hnext)
    · cases hmark
  have hhigh : k + 1 < last.hi := by
    obtain ⟨c, hc⟩ := hcell (i + 1) (by omega) hib
    have hle := (hbetween (by omega) (by omega) (by omega) hc hlast).2.1
    have hpos := (joined_of_cell hc (haddr.run.holds _ (by omega) hib)).1
    rcases next_cells hi hc with hnext | ⟨_, _, hmark, -⟩
    · exact (hnext.trans_lt hpos).trans_le hle
    · cases hmark
  have hout := fun hidden => @copy_not_hidden x k (List.mem_of_getElem? hi) hidden
  have hfree : ∀ a b, IsAddress x a b → k < a ∨ b ≤ k := fun a b haddr =>
    hout ⟨a, b, .email⟩ (address_hidden_of_numbersInside h.inside haddr rfl)
  have hspan := hidden_of_mark (List.mem_of_getElem? hj)
  have htoken := isToken_of_hidden hspan
  by_cases hkind : span.kind = .email
  · -- next to an address stands a boundary, and no number over it
    have haddress := htoken.isAddress hkind
    have hspanLt := htoken.lt
    rcases hout span hspan with hks | hsk
    · obtain ⟨m, hm⟩ : ∃ m, m + 1 = span.start := ⟨span.start - 1, by omega⟩
      have hstop : span.stop ≤ last.hi := (hbetween haj (by omega) (by omega) hj hlast).2.1
      obtain ⟨c, d, hnum, hc, hd⟩ := number_of_boundary (haddress.run.left m hm)
        (hjoined m (by omega) (by omega))
      have := h.numbers _ _ _ _ haddress hnum (by omega) (by omega)
      omega
    · have hstart : first.lo ≤ span.start := (hbetween le_rfl haj hjb hfirst hj).1
      obtain ⟨c, d, hnum, hc, hd⟩ := number_of_boundary haddress.run.right
        (hjoined span.stop (by omega) (by omega))
      have := h.numbers _ _ _ _ haddress hnum (by omega) (by omega)
      omega
  · have hvalid := haddr.valid
    simp only [isValidEmail, Bool.and_eq_true, List.any_eq_true] at hvalid
    obtain ⟨⟨-, byte, hbyte, hdot⟩, -⟩ := hvalid
    obtain ⟨p, hap, hpb, hp⟩ := mem_slice.mp hbyte
    obtain ⟨q, hq, hdotq⟩ := copy_of_holdsAt (fun kind byte hb => (marker_bytes kind byte hb).2.2.2)
      (holdsAt_eq_true.mpr ⟨byte, hp, hdot⟩)
    have hfit := h.words first.lo last.hi hjoined ⟨k, hlow, hhigh, hatk, hfree⟩
      ⟨q, (hbetween le_rfl hap hpb hfirst hq).1, (hbetween hap (by omega) (by omega) hq hlast).2.1,
        hdotq⟩ span hkind htoken (hbetween le_rfl haj hjb hfirst hj).1
    exact absurd (hbetween haj (by omega) (by omega) hj hlast).2.1 (Nat.not_le.mpr hfit)

/-- A stretch of the redacted text without markers is a stretch of the text. -/
structure Copied (x : Bytes) (a b k : ℕ) : Prop where
  cell : ∀ m, m < b - a → (cells x)[a + m]? = some (.copy (k + m))

theorem copied_of_cells {a b : ℕ} (hab : a < b)
    (hcopy : ∀ m, a ≤ m → m < b → ∃ k, (cells x)[m]? = some (.copy k)) :
    ∃ k, Copied x a b k := by
  obtain ⟨k, hk⟩ := hcopy a le_rfl hab
  refine ⟨k, ⟨fun m hm => ?_⟩⟩
  induction m with
  | zero => exact hk
  | succ m ih =>
      obtain ⟨k', hk'⟩ := hcopy (a + (m + 1)) (by omega) (by omega)
      rcases next_cells (ih (by omega)) hk' with hnext | ⟨span, j, hcopy, -⟩
      · rw [hk', ← show k + m + 1 = k' from hnext, Nat.add_assoc]
      · simp at hcopy

namespace Copied

variable {a b k : ℕ}

theorem getElem? (h : Copied x a b k) {m : ℕ} (hm : m < b - a) :
    (redactPii x)[a + m]? = x[k + m]? := by
  rw [getElem?_redactPii, h.cell m hm]
  rfl

theorem holdsAt (h : Copied x a b k) (p : UInt8 → Bool) {m : ℕ} (hm : m < b - a) :
    holdsAt p (redactPii x) (a + m) = Lib.Run.holdsAt p x (k + m) := by
  rw [Lib.Run.holdsAt, Lib.Run.holdsAt, h.getElem? hm]

theorem slice (h : Copied x a b k) {c d : ℕ} (hc : a ≤ c) (hd : d ≤ b) :
    slice (redactPii x) c d = Lib.Run.slice x (k + (c - a)) (k + (d - a)) := by
  apply List.ext_getElem?
  intro i
  rcases Nat.lt_or_ge i (d - c) with hi | hi
  · rw [getElem?_slice hi, getElem?_slice (by omega)]
    have hget := h.getElem? (show c - a + i < b - a by omega)
    rwa [show a + (c - a + i) = c + i by omega, ← Nat.add_assoc] at hget
  · rw [List.getElem?_eq_none (by rw [length_slice]; omega),
      List.getElem?_eq_none (by rw [length_slice]; omega)]

theorem not_hidden (h : Copied x a b k) {m : ℕ} (hm : m < b - a) {span : Span}
    (hspan : span ∈ hiddenSpans x) : k + m < span.start ∨ span.stop ≤ k + m :=
  copy_not_hidden (List.mem_of_getElem? (h.cell m hm)) hspan

/-- On the left of it stands nothing, a marker, or the byte that stands there in
the text. -/
theorem left (h : Copied x a b k) (hab : a < b) :
    (a = 0 ∧ k = 0) ∨ ∃ i, i + 1 = a ∧
      ((∃ span j, (cells x)[i]? = some (.mark span j) ∧ span.stop = k) ∨
        ∃ k', k' + 1 = k ∧ (cells x)[i]? = some (.copy k')) := by
  have hfirst := h.cell 0 (by omega)
  rcases Nat.eq_zero_or_pos a with rfl | hpos
  · exact .inl ⟨rfl, first_cell hfirst⟩
  · refine .inr ⟨a - 1, by omega, ?_⟩
    have hlt : a - 1 < (cells x).length := by
      have := (List.getElem?_eq_some_iff.mp hfirst).1
      omega
    have hc := List.getElem?_eq_getElem hlt
    have hnext := next_cells hc (by rw [show a - 1 + 1 = a + 0 by omega]; exact hfirst)
    rcases hnext with hnext | ⟨span, j, -, hcopy⟩
    · cases hcell : (cells x)[a - 1] with
      | copy k' =>
          rw [hcell] at hnext hc
          exact .inr ⟨k', hnext, hc⟩
      | mark span j =>
          rw [hcell] at hnext hc
          exact .inl ⟨span, j, hc, hnext⟩
    · simp at hcopy

/-- On the right of it stands nothing, a marker, or the byte that stands there in
the text. -/
theorem right (h : Copied x a b k) (hab : a < b) :
    ((cells x)[b]? = none ∧ k + (b - a) = x.length) ∨
      (∃ span j, (cells x)[b]? = some (.mark span j) ∧ span.start = k + (b - a)) ∨
        (cells x)[b]? = some (.copy (k + (b - a))) := by
  have hlast := h.cell (b - a - 1) (by omega)
  rw [show a + (b - a - 1) = b - 1 by omega] at hlast
  have hsucc : b - 1 + 1 = b := by omega
  rcases hc : (cells x)[b]? with _ | c
  · refine .inl ⟨rfl, ?_⟩
    have := last_cell hlast (by rw [hsucc]; exact hc)
    simp only [Cell.hi] at this
    omega
  · have hnext := next_cells hlast (by rw [hsucc]; exact hc)
    rcases hnext with hnext | ⟨span, j, hcopy, -⟩
    · cases c with
      | copy k' =>
          have : k' = k + (b - a) := by simp only [Cell.hi, Cell.lo] at hnext; omega
          exact .inr (.inr (by rw [this]))
      | mark span j =>
          refine .inr (.inl ⟨span, j, rfl, ?_⟩)
          simp only [Cell.hi, Cell.lo] at hnext
          omega
    · simp at hcopy

end Copied

theorem word_of_mark {i j : ℕ} {span : Span} (h : (cells x)[i]? = some (.mark span j)) :
    holdsAt isWordByte (redactPii x) i = true := by
  have hj : j < span.kind.marker.length := by
    have hmem := List.mem_of_getElem? h
    simp only [cells, List.mem_flatMap] at hmem
    obtain ⟨piece, -, hpiece⟩ := hmem
    cases piece with
    | clear a b => simp [Piece.cells] at hpiece
    | hidden span' =>
        simp only [Piece.cells, List.mem_map, Cell.mark.injEq, List.mem_range'_1] at hpiece
        obtain ⟨j', hj', rfl, rfl⟩ := hpiece
        omega
  rw [holdsAt_redactPii, h, Option.any_some, Cell.byte?, List.getElem?_eq_getElem hj]
  exact (marker_bytes span.kind _ (List.getElem_mem hj)).1

theorem holdsAt_of_copy {p : UInt8 → Bool} {i k : ℕ} (h : (cells x)[i]? = some (.copy k)) :
    holdsAt p (redactPii x) i = holdsAt p x k := by
  rw [holdsAt_redactPii, h]
  rfl

/-! ### Nothing is left -/

theorem TokensApart.no_address (h : TokensApart x) {a b : ℕ}
    (haddr : IsAddress (redactPii x) a b) : False := by
  have hrun := haddr.run
  have hlt := hrun.lt
  obtain ⟨i, hai, hib, hat⟩ := haddr.inner
  have hcopy : ∀ m, a ≤ m → m < b → ∃ k, (cells x)[m]? = some (.copy k) := by
    intro m hm hm'
    have hword := hrun.holds m hm hm'
    rw [holdsAt_redactPii, Option.any_eq_true] at hword
    obtain ⟨c, hc, -⟩ := hword
    cases c with
    | copy k => exact ⟨k, hc⟩
    | mark span j => exact (h.no_mark haddr hm hm' hc).elim
  obtain ⟨k, hcopied⟩ := copied_of_cells hlt hcopy
  -- the word is a word of the text, and so it is an address there
  have hrun' : IsRun isWordByte x k (k + (b - a)) := by
    refine ⟨by omega, fun m hm hm' => ?_, fun m hm => ?_, ?_⟩
    · have hword := hrun.holds (a + (m - k)) (by omega) (by omega)
      rwa [hcopied.holdsAt _ (by omega), show k + (m - k) = m by omega] at hword
    · rcases hcopied.left hlt with ⟨-, hk⟩ | ⟨i, hi, ⟨span, j, hc, -⟩ | ⟨k', hk', hc⟩⟩
      · omega
      · exact absurd (word_of_mark hc) (by simp [hrun.left i hi])
      · obtain rfl : m = k' := by omega
        rw [← holdsAt_of_copy hc]
        exact hrun.left i hi
    · rcases hcopied.right hlt with ⟨-, hend⟩ | ⟨span, j, hc, -⟩ | hc
      · exact Bool.eq_false_iff.mpr fun hword => by have := holdsAt_lt hword; omega
      · exact absurd (word_of_mark hc) (by simp [hrun.right])
      · rw [← holdsAt_of_copy hc]
        exact hrun.right
  have haddr' : IsAddress x k (k + (b - a)) := by
    refine ⟨hrun', ⟨k + (i - a), by omega, by omega, ?_⟩, ?_⟩
    · rwa [← hcopied.holdsAt isAt (by omega), show a + (i - a) = i by omega]
    · have hvalid := haddr.valid
      rwa [hcopied.slice le_rfl le_rfl, Nat.sub_self, Nat.add_zero] at hvalid
  have hhidden : ⟨k, k + (b - a), .email⟩ ∈ hiddenSpans x :=
    address_hidden_of_numbersInside h.inside haddr' rfl
  rcases hcopied.not_hidden (show 0 < b - a by omega) hhidden with hout | hout <;>
    · simp only at hout
      omega

/-- A number of the redacted text is a number of the text, copied as a whole. -/
theorem TokensApart.number_copied (h : TokensApart x) {c d : ℕ} (hnum : IsNumber (redactPii x) c d) :
    ∃ s e k, s ≤ c ∧ d ≤ e ∧ Copied x s e k ∧ IsNumber x (k + (c - s)) (k + (d - s)) := by
  obtain ⟨s, e, hrun, hsc, hde, hbefore, hafter⟩ := hnum.run
  have hcd := hnum.lt
  have hlt := hrun.lt
  obtain ⟨k, hcopied⟩ := copied_of_cells hlt fun m hm hm' => by
    obtain ⟨k, hk, -⟩ := copy_of_holdsAt
      (fun kind byte hb => (marker_bytes kind byte hb).2.1) (hrun.holds m hm hm')
    exact ⟨k, hk⟩
  refine ⟨s, e, k, hsc, hde, hcopied, ?_⟩
  have htoken : ∀ m, k ≤ m → m < k + (e - s) → holdsAt isTokenByte x m = true := by
    intro m hm hm'
    have := hrun.holds (s + (m - k)) (by omega) (by omega)
    rwa [hcopied.holdsAt _ (by omega), show k + (m - k) = m by omega] at this
  have hdigit : ∀ m, s ≤ m → m < e →
      holdsAt isAsciiDigit x (k + (m - s)) = holdsAt isAsciiDigit (redactPii x) m := by
    intro m hm hm'
    rw [← hcopied.holdsAt _ (by omega), show s + (m - s) = m by omega]
  have hfirst := (hdigit c hsc (by omega)).trans hnum.first
  obtain ⟨c₀, d₀, -, hc₀, hd₀, hnum₀⟩ := exists_digitCandidate hfirst
  -- a hidden span that meets the number of the text would cover the copied digit
  have hmeet : ∀ span ∈ hiddenSpans x, c₀ < span.stop → span.start < d₀ →
      span.start ≤ c₀ ∧ d₀ ≤ span.stop := by
    intro span hspan hs he
    have htok := isToken_of_hidden hspan
    by_cases hkind : span.kind = .email
    · have := h.numbers _ _ _ _ (htok.isAddress hkind) hnum₀ he hs
      omega
    · obtain ⟨h₁, h₂⟩ := (htok.isNumber hkind).unique hnum₀ he hs
      omega
  have hapart : ∀ span ∈ hiddenSpans x, span.stop ≤ c₀ ∨ d₀ ≤ span.start := by
    intro span hspan
    by_contra hno
    have := hmeet span hspan (by omega) (by omega)
    rcases hcopied.not_hidden (show c - s < e - s by omega) hspan <;> omega
  have hmark : ∀ {i j : ℕ} {span : Span}, (cells x)[i]? = some (.mark span j) →
      span ∈ hiddenSpans x := fun hc => hidden_of_mark (List.mem_of_getElem? hc)
  have hkc : k ≤ c₀ := by
    by_contra hno
    rcases hcopied.left hlt with ⟨-, hk⟩ | ⟨i, hi, ⟨span, j, hc, hstop⟩ | ⟨k', hk', hc⟩⟩
    · omega
    · rcases hapart span (hmark hc) with hs | hs
      · omega
      · have := (isToken_of_hidden (hmark hc)).lt
        omega
    · have hleft := hrun.left i hi
      rw [holdsAt_of_copy hc, hnum₀.holds k' (by omega) (by omega)] at hleft
      exact absurd hleft (by simp)
  have hdk : d₀ ≤ k + (e - s) := by
    by_contra hno
    rcases hcopied.right hlt with ⟨-, hend⟩ | ⟨span, j, hc, hstart⟩ | hc
    · have := holdsAt_lt hnum₀.last
      omega
    · rcases hapart span (hmark hc) with hs | hs
      · have := (isToken_of_hidden (hmark hc)).lt
        omega
      · omega
    · have hright := hrun.right
      rw [holdsAt_of_copy hc, hnum₀.holds _ (by omega) (by omega)] at hright
      exact absurd hright (by simp)
  have hceq : c₀ = k + (c - s) := by
    by_contra hne
    have hno := hbefore (s + (c₀ - k)) (by omega) (by omega)
    rw [hcopied.holdsAt _ (by omega), show k + (c₀ - k) = c₀ by omega, hnum₀.first] at hno
    exact absurd hno (by simp)
  have hdeq : d₀ = k + (d - s) := by
    rcases Nat.lt_trichotomy d₀ (k + (d - s)) with hlt' | heq | hgt
    · -- the last digit of the copy lies in the same run of the text
      obtain ⟨s₀, e₀, hrun₀, hs₀, he₀, -, hafter₀⟩ := hnum₀.run
      have := hrun₀.contains htoken (by omega) (by omega)
      have hno := hafter₀ (k + (d - 1 - s)) (by omega) (by omega)
      rw [hdigit (d - 1) (by omega) (by omega), hnum.last] at hno
      exact absurd hno (by simp)
    · exact heq
    · have hno := hafter (s + (d₀ - 1 - k)) (by omega) (by omega)
      rw [hcopied.holdsAt _ (by omega), show k + (d₀ - 1 - k) = d₀ - 1 by omega, hnum₀.last] at hno
      exact absurd hno (by simp)
  rwa [hceq, hdeq] at hnum₀

theorem TokensApart.no_number (h : TokensApart x) {span : Span} (hkind : span.kind ≠ .email)
    (htoken : IsToken (redactPii x) span) : False := by
  have hnum := htoken.isNumber hkind
  have hlt := hnum.lt
  obtain ⟨s, e, k, hs, he, hcopied, hnum'⟩ := h.number_copied hnum
  have htoken' : IsToken x ⟨k + (span.start - s), k + (span.stop - s), span.kind⟩ := by
    obtain ⟨start, stop, kind⟩ := span
    have hslice := hcopied.slice hs he
    cases kind with
    | email => exact absurd rfl hkind
    | card => exact ⟨hnum', by rw [← hslice]; exact htoken.2⟩
    | ssn => exact ⟨hnum', by rw [← hslice]; exact htoken.2⟩
  obtain ⟨hidden, hmem, hcover⟩ := covered_of_numbersInside h.inside htoken' le_rfl htoken'.lt
  simp only at hcover
  rcases hcopied.not_hidden (show span.start - s < e - s by omega) hmem <;> omega

/-- On a text whose tokens stand apart redaction leaves nothing to find, and a
second pass changes nothing. -/
theorem redactPii_idempotent_of_apart (x : Bytes) (h : TokensApart x) :
    findAllSpans (redactPii x) = [] ∧ redactPii (redactPii x) = redactPii x := by
  have hnone : findAllSpans (redactPii x) = [] := by
    rw [List.eq_nil_iff_forall_not_mem]
    intro span hspan
    have htoken := isToken_of_mem_findAllSpans hspan
    by_cases hkind : span.kind = .email
    · exact h.no_address (htoken.isAddress hkind)
    · exact h.no_number hkind htoken
  refine ⟨hnone, ?_⟩
  rw [redactPii, hnone]
  simp [replaceSpans, sortSpans, dedupByStart, rewrite, Lib.Run.slice]

/-- The address begins with a digit. -/
def addressAndNumber : Bytes := utf8Bytes "1a@b.c 123456789"

theorem addressAndNumber_apart : TokensApart addressAndNumber := by
  have hspans : findSpans addressAndNumber .email = [⟨0, 6, .email⟩] ∧
      findSpans addressAndNumber .card = [] ∧
      findSpans addressAndNumber .ssn = [⟨7, 16, .ssn⟩] := by decide +kernel
  have haddress : ∀ a b, IsAddress addressAndNumber a b → a = 0 ∧ b = 6 := by
    intro a b h
    have hmem : ⟨a, b, .email⟩ ∈ findSpans addressAndNumber .email := mem_findSpans.mpr ⟨rfl, h⟩
    simpa [hspans] using hmem
  refine ⟨?_, ?_, ?_⟩
  · intro address number hemail haddr hkind hnumber _ hlt
    have := haddress _ _ (haddr.isAddress hemail)
    have hmem := mem_findSpans.mpr ⟨rfl, hnumber⟩
    cases hnumberKind : number.kind with
    | email => exact absurd hnumberKind hkind
    | card => simp [hnumberKind, hspans] at hmem
    | ssn =>
        simp only [hnumberKind, hspans, List.mem_singleton] at hmem
        have : number.start = 7 := congrArg Span.start hmem
        omega
  · intro a b c d ha hc _ hlt
    have hcandidate := digitCandidate_eq_some.mpr ⟨hc.first, le_rfl, hc.lt, hc⟩
    have hall : ∀ i < 6, ∀ found ∈ digitCandidate addressAndNumber i, found = (0, 1) := by
      decide +kernel
    have := haddress a b ha
    have := Prod.mk.inj (hall c (by omega) _ hcandidate)
    omega
  · rintro s e - ⟨k, -, -, hk, hfree⟩
    have hall : ∀ i < 16, holdsAt isAt addressAndNumber i = true → i = 2 := by decide +kernel
    have htoken : IsToken addressAndNumber ⟨0, 6, .email⟩ :=
      (mem_findSpans.mp (by rw [hspans.1]; exact List.mem_singleton_self _)).2
    have := hall k (holdsAt_lt hk) hk
    have := hfree 0 6 (htoken.isAddress rfl)
    omega

theorem addressAndNumber_idempotent :
    TokensApart addressAndNumber ∧
      redactPii addressAndNumber = PiiKind.email.marker ++ utf8Bytes " " ++ PiiKind.ssn.marker ∧
      findAllSpans (redactPii addressAndNumber) = [] ∧
      redactPii (redactPii addressAndNumber) = redactPii addressAndNumber :=
  ⟨addressAndNumber_apart, by decide +kernel,
    redactPii_idempotent_of_apart addressAndNumber addressAndNumber_apart⟩

def addressBeforeDigits : Bytes := utf8Bytes "a@b.c5 123456789"

def wordsAroundCard : Bytes := utf8Bytes "a@4111 1111 1111 1111x.y"

/-- In the first text the first pass takes a digit away from ten, and what is left is a
social security number. In the second a marker joins two words to an address. -/
theorem second_pass_finds_more :
    (redactPii addressBeforeDigits = PiiKind.email.marker ++ utf8Bytes " 123456789" ∧
      findAllSpans (redactPii addressBeforeDigits) = [⟨17, 26, .ssn⟩] ∧
      redactPii (redactPii addressBeforeDigits) =
        PiiKind.email.marker ++ utf8Bytes " " ++ PiiKind.ssn.marker) ∧
    redactPii wordsAroundCard = utf8Bytes "a@" ++ PiiKind.card.marker ++ utf8Bytes "x.y" ∧
      findAllSpans (redactPii wordsAroundCard) = [⟨0, 20, .email⟩] ∧
      redactPii (redactPii wordsAroundCard) = PiiKind.email.marker := by
  decide +kernel

end Maskura.Redaction
